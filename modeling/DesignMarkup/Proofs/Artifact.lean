import DesignMarkup.Artifact
import DesignMarkup.Proofs.Json.Fields

/-!
Stored artifacts are read back as they were, with the time and the version that they were stored
with.
-/

namespace DesignMarkup

theorem ShapeInfo.ofJson?_toJson (s : ShapeInfo) : ofJson? s.toJson = some s := by
  have hnodup : ["id", "name"].Nodup := by decide
  rw [ofJson?, toJson, Json.record?_of_names hnodup rfl]
  simp [Json.Record.required, OrderedMap.lookup]

theorem AstMetadata.ofJson?_toJson (m : AstMetadata) : ofJson? m.toJson = some m := by
  have hnodup : ["shapeInfo", "htmlCode", "cssCode", "metaInfo"].Nodup := by decide
  rw [ofJson?, toJson, Json.record?_of_names hnodup rfl]
  simp [Json.Record.required, Json.Record.withDefault, OrderedMap.lookup,
    m.shapeInfo.ofJson?_toJson]

namespace AstArtifact

theorem ofJson?_toJson (a : AstArtifact) : ofJson? a.toJson = some a := by
  have hnodup : ["ast", "timestamp", "version", "metadata"].Nodup := by decide
  rw [ofJson?, toJson, Json.record?_of_names hnodup rfl]
  simp [Json.Record.required, OrderedMap.lookup, a.metadata.ofJson?_toJson]

theorem isExact_toJson (a : AstArtifact) : a.toJson.IsExact :=
  ⟨trivial, Json.isExact_ofInt64 a.timestamp, trivial,
    ⟨⟨trivial, trivial, trivial⟩, trivial, trivial, trivial, trivial⟩, trivial⟩

/-- The text stored for a syntax tree holds it. -/
@[simp] theorem ofText?_toText (a : AstArtifact) : ofText? a.toText = some a := by
  have hnesting : a.toJson.nesting ≤ Json.maxNesting := (by decide : 3 ≤ 127)
  exact (Json.bind_read?_compact a.isExact_toJson hnesting ofJson?).trans a.ofJson?_toJson

end AstArtifact

namespace ComponentMetadata

/-- The fields in the order in which they are written. -/
def fields (m : ComponentMetadata) : List (String × Option Json) :=
  [("shapeInfo", some m.shapeInfo.toJson), ("astData", m.astData.map .string)]

theorem toJson_eq (m : ComponentMetadata) : m.toJson = .ofFields m.fields :=
  rfl

theorem distinct_fields (m : ComponentMetadata) :
    Json.Distinct ["shapeInfo", "astData"] m.fields :=
  ⟨rfl, by decide⟩

theorem ofJson?_toJson (m : ComponentMetadata) : ofJson? m.toJson = some m := by
  have h := m.distinct_fields
  have hshape := h.required_eq "shapeInfo" rfl ShapeInfo.ofJson?
  have hast := h.optional_eq "astData" rfl Json.text?_string (fun _ => Json.noConfusion)
  rw [ofJson?, toJson_eq, Json.record?_ofFields h]
  simp only [Option.bind_eq_bind, Option.bind_some, hshape, hast, ShapeInfo.ofJson?_toJson]
  rfl

/-- Both fields nest at most one level, the syntax tree being stored as a text. -/
theorem forall_fields {P : Json → Prop} (m : ComponentMetadata) (hshape : P m.shapeInfo.toJson)
    (hstring : ∀ s, P (.string s)) : ∀ field ∈ m.fields, ∀ j ∈ field.2, P j := by
  intro field hfield j hj
  simp only [fields, List.mem_cons, List.not_mem_nil, or_false] at hfield
  rcases hfield with rfl | rfl
  all_goals simp only [Option.mem_def, Option.some.injEq, Option.map_eq_some_iff] at hj
  · exact hj ▸ hshape
  · obtain ⟨text, -, rfl⟩ := hj
    exact hstring text

theorem isExact_toJson (m : ComponentMetadata) : m.toJson.IsExact := by
  rw [toJson_eq]
  apply Json.isExact_ofFields
  apply forall_fields
  · exact ⟨trivial, trivial, trivial⟩
  · exact fun _ => trivial

theorem nesting_toJson_le (m : ComponentMetadata) : m.toJson.nesting ≤ 2 := by
  rw [toJson_eq, Json.nesting_ofFields_le_iff]
  apply forall_fields
  · exact Nat.le_refl 1
  · exact fun _ => Nat.zero_le 1

end ComponentMetadata

namespace ComponentArtifact

theorem ofJson?_toJson (a : ComponentArtifact) : ofJson? a.toJson = some a := by
  have hnodup : ["componentCode", "timestamp", "version", "metadata"].Nodup := by decide
  rw [ofJson?, toJson, Json.record?_of_names hnodup rfl]
  simp [Json.Record.required, OrderedMap.lookup, a.metadata.ofJson?_toJson]

theorem isExact_toJson (a : ComponentArtifact) : a.toJson.IsExact :=
  ⟨trivial, Json.isExact_ofInt64 a.timestamp, trivial, a.metadata.isExact_toJson, trivial⟩

theorem nesting_toJson_le (a : ComponentArtifact) : a.toJson.nesting ≤ Json.maxNesting := by
  have hmetadata := a.metadata.nesting_toJson_le
  simp only [toJson, Json.nesting, Json.nestingMembers, Json.ofInt64, Json.maxNesting]
  omega

/-- The text stored for a component holds it. -/
@[simp] theorem ofText?_toText (a : ComponentArtifact) : ofText? a.toText = some a :=
  (Json.bind_read?_compact a.isExact_toJson a.nesting_toJson_le ofJson?).trans a.ofJson?_toJson

end ComponentArtifact
end DesignMarkup
