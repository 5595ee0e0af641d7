import DesignMarkup.Proofs.Style.Bag
import DesignMarkup.Tag.Record

/-!
Stored records are read back as they were: the text of a record holds its properties in order, its
bags and its optional fields, present or absent.
-/

namespace DesignMarkup

namespace TagRecord

/-- The fields of a record in the order in which they are written. -/
def fields (r : TagRecord) : List (String × Option Json) :=
  [("tag", some (.string r.tag)), ("properties", some (.ofTexts r.properties)),
    ("elementId", some r.elementId.toJson), ("elementName", some (.string r.elementName)),
    ("elementType", r.elementType.map ElementKind.toJson), ("content", r.content.map .string),
    ("styles", r.styles.map Bag.toJson), ("layout", r.layout.map Bag.toJson)]

theorem toJson_eq (r : TagRecord) : r.toJson = .ofFields r.fields :=
  rfl

theorem distinct_fields (r : TagRecord) : Json.Distinct fieldNames r.fields :=
  ⟨rfl, by decide⟩

theorem ofJson?_toJson (payload : Json.NoPayload) (r : TagRecord) :
    ofJson? payload r.toJson = some r := by
  have h := r.distinct_fields
  have htag := h.required_eq "tag" rfl Json.text?
  have hproperties := h.withDefault_eq "properties" rfl .empty Json.texts?
  have hid := h.required_eq "elementId" rfl ElementId.ofJson?
  have hname := h.withDefault_eq "elementName" rfl "" Json.text?
  have hkind := h.optional_eq "elementType" rfl (ElementKind.ofJson?_toJson payload)
    (fun _ => Json.noConfusion)
  have hcontent := h.optional_eq "content" rfl Json.text?_string (fun _ => Json.noConfusion)
  have hstyles := h.optional_eq "styles" rfl StyleBag.ofJson?_toJson
    (fun _ => Json.noConfusion)
  have hlayout := h.optional_eq "layout" rfl LayoutBag.ofJson?_toJson
    (fun _ => Json.noConfusion)
  rw [ofJson?, toJson_eq, Json.record?_ofFields h]
  simp only [Option.bind_eq_bind, Option.bind_some, htag, hproperties, hid, hname, hkind,
    hcontent, hstyles, hlayout, Json.text?, Json.texts?_ofTexts, ElementId.ofJson?_toJson]
  rfl

theorem isFlat_fields (r : TagRecord) : ∀ field ∈ r.fields, ∀ j ∈ field.2, j.IsFlat := by
  intro field hfield j hj
  simp only [fields, List.mem_cons, List.not_mem_nil, or_false] at hfield
  rcases hfield with rfl | rfl | rfl | rfl | rfl | rfl | rfl | rfl
  all_goals simp only [Option.mem_def, Option.some.injEq, Option.map_eq_some_iff] at hj
  · exact hj ▸ Json.isFlat_string r.tag
  · exact hj ▸ Json.isFlat_ofTexts r.properties
  · exact hj ▸ Json.isFlat_string r.elementId.text
  · exact hj ▸ Json.isFlat_string r.elementName
  · obtain ⟨kind, -, rfl⟩ := hj
    exact Json.isFlat_string kind.name
  · obtain ⟨text, -, rfl⟩ := hj
    exact Json.isFlat_string text
  · obtain ⟨bag, -, rfl⟩ := hj
    exact bag.isFlat_toJson
  · obtain ⟨bag, -, rfl⟩ := hj
    exact bag.isFlat_toJson

/-- The text stored for a record holds the record. -/
@[simp] theorem ofText?_toText (r : TagRecord) : ofText? r.toText = some r := by
  rw [ofText?, toText, toJson_eq, Json.read?_ofFields_of_flat r.isFlat_fields, Option.bind_some,
    ← toJson_eq, ofJson?_toJson]

end TagRecord
end DesignMarkup
