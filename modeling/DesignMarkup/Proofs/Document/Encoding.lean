import DesignMarkup.Document.Encoding
import DesignMarkup.Proofs.Json.Plain
import DesignMarkup.Proofs.Tag.Encoding

/-!
Written snapshots.  A snapshot is read back from the tree that is written for it, with its layers,
their elements and the data stored on them.
-/

namespace DesignMarkup

open Json (present)

namespace Element

theorem distinct_fields (e : Element) : Json.Distinct fieldNames e.fields :=
  ⟨rfl, by decide⟩

/-- What holds of texts and of objects of texts holds of every written field. -/
theorem forall_fields {P : Json → Prop} (e : Element) (hstring : ∀ s, P (.string s))
    (hobject : ∀ texts, (texts.map Prod.fst).Nodup → P (Json.textObject texts)) :
    ∀ field ∈ e.fields, ∀ j ∈ field.2, P j := by
  intro field hfield j hj
  simp only [fields, List.mem_cons, List.not_mem_nil, or_false] at hfield
  rcases hfield with rfl | rfl | rfl | rfl | rfl | rfl
  all_goals simp only [Option.mem_def, Option.some.injEq, Option.map_eq_some_iff] at hj
  · exact hj ▸ hstring e.id.text
  · exact hj ▸ hstring e.name
  · exact hj ▸ hstring e.kind.name
  · obtain ⟨text, -, rfl⟩ := hj
    exact hstring text
  · obtain ⟨bag, -, rfl⟩ := hj
    exact hobject _ (Bag.nodup_keys_entries Style.keys_nodup bag)
  · obtain ⟨bag, -, rfl⟩ := hj
    exact hobject _ (Bag.nodup_keys_entries Style.layoutKeys_nodup bag)

/-- An element is read from the record of its fields. -/
theorem ofRecord?_written (payload : Json.NoPayload) (e : Element) :
    ofRecord? payload (Json.Record.written e.fields) = some e := by
  have h := e.distinct_fields
  have hid := h.required_eq "id" rfl ElementId.ofJson?
  have hname := h.withDefault_eq "name" rfl "" Json.text?
  have hkind := h.withDefault_eq "type" rfl .other (ElementKind.ofJson? payload)
  have hcontent := h.optional_eq "content" rfl Json.text?_string
    (fun _ => Json.noConfusion)
  have hstyles := h.optional_eq "styles" rfl StyleBag.ofJson?_toJson (fun _ => Json.noConfusion)
  have hlayout := h.optional_eq "layout" rfl LayoutBag.ofJson?_toJson
    (fun _ => Json.noConfusion)
  rw [ofRecord?]
  simp only [Option.bind_eq_bind, Option.bind_some, hid, hname, hkind, hcontent, hstyles,
    hlayout, Json.text?, ElementId.ofJson?_toJson, ElementKind.ofJson?_toJson]
  rfl

theorem ofJson?_toJson (e : Element) : ofJson? e.toJson = some e := by
  rw [ofJson?, toJson, Json.record?_ofFields e.distinct_fields, Option.bind_some,
    ofRecord?_written]

/-- The text of an element holds the element. -/
theorem ofText?_toText (e : Element) : ofText? e.toText = some e := by
  have hflat : ∀ field ∈ e.fields, ∀ j ∈ field.2, j.IsFlat :=
    e.forall_fields Json.isFlat_string fun texts _ => .inr ⟨texts, rfl⟩
  rw [ofText?, toText, toJson, Json.read?_ofFields_of_flat hflat]
  exact e.ofJson?_toJson

end Element

namespace Layer

/-- The fields of a layer that are not its element's. -/
def ownFields (layer : Layer) : List (String × Option Json) :=
  [("pluginData", if layer.data.isEmpty then none else some (.ofTexts layer.data)),
    ("children",
      if layer.children.isEmpty then none else some (.array (listToJson layer.children)))]

/-- The fields of a layer in the order in which they are written. -/
def fields (layer : Layer) : List (String × Option Json) :=
  layer.element.fields ++ layer.ownFields

theorem toJson_eq (layer : Layer) : layer.toJson = .ofFields layer.fields := by
  cases layer
  rw [toJson]
  rfl

theorem distinct_fields (layer : Layer) :
    Json.Distinct (Element.fieldNames ++ fieldNames) layer.fields :=
  ⟨rfl, by decide⟩

theorem distinct_ownFields (layer : Layer) : Json.Distinct fieldNames layer.ownFields :=
  ⟨rfl, by decide⟩

/-- What holds of texts, of objects of texts and of the layers below holds of every written
field. -/
theorem forall_fields {P : Json → Prop} (layer : Layer) (hstring : ∀ s, P (.string s))
    (hobject : ∀ texts, (texts.map Prod.fst).Nodup → P (Json.textObject texts))
    (hchildren : P (.array (listToJson layer.children))) :
    ∀ field ∈ layer.fields, ∀ j ∈ field.2, P j := by
  intro field hfield j hj
  rcases List.mem_append.mp hfield with helement | hown
  · exact layer.element.forall_fields hstring hobject field helement j hj
  · simp only [ownFields, List.mem_cons, List.not_mem_nil, or_false] at hown
    rcases hown with rfl | rfl
    · simp only [Option.mem_def, Option.ite_none_left_eq_some, Option.some.injEq] at hj
      exact hj.2 ▸ hobject _ layer.data.keys_nodup
    · simp only [Option.mem_def, Option.ite_none_left_eq_some, Option.some.injEq] at hj
      exact hj.2 ▸ hchildren

mutual

theorem isExact_toJson (layer : Layer) : layer.toJson.IsExact := by
  match layer with
  | ⟨element, data, children⟩ =>
      rw [toJson_eq]
      apply Json.isExact_ofFields
      apply forall_fields
      · intro s
        exact (Json.isFlat_string s).isExact
      · intro texts _
        exact Json.IsFlat.isExact (.inr ⟨texts, rfl⟩)
      · exact itemsExact_listToJson children

theorem itemsExact_listToJson (layers : List Layer) : Json.ItemsExact (listToJson layers) := by
  match layers with
  | [] => trivial
  | layer :: rest => exact ⟨isExact_toJson layer, itemsExact_listToJson rest⟩

end

/-- The levels of arrays and objects that a layer takes without the layers below it: an object, and
one more in it when the layer has data, styles or a layout. -/
def ownNesting (layer : Layer) : Nat :=
  if layer.data.isEmpty ∧ layer.element.styles = none ∧ layer.element.layout = none then 1 else 2

theorem ownNesting_pos (layer : Layer) : 0 < layer.ownNesting := by
  rw [ownNesting]
  split <;> decide

theorem ownNesting_le_two (layer : Layer) : layer.ownNesting ≤ 2 := by
  rw [ownNesting]
  split <;> decide

theorem ownNesting_of_data {layer : Layer} (h : layer.data.isEmpty = false) :
    layer.ownNesting = 2 := by
  rw [ownNesting, if_neg]
  simp [h]

theorem nesting_toJson_le_iff (layer : Layer) (depth : Nat) :
    layer.toJson.nesting ≤ depth ↔
      layer.ownNesting ≤ depth ∧
        (layer.children = [] ∨ Json.nestingItems (listToJson layer.children) + 2 ≤ depth) := by
  obtain ⟨⟨id, name, kind, content, styles, layout⟩, data, children⟩ := layer
  rw [toJson_eq, ownNesting]
  cases depth with
  | zero =>
      have hown : ∀ p : Prop, [Decidable p] → ¬ (if p then 1 else 2) ≤ 0 := by
        intro p _
        split <;> decide
      simp [Json.ofFields, Json.nesting, hown]
  | succ depth =>
      have hdata : (Json.ofTexts data).nesting = 1 := Json.nesting_textObject data.entries
      have hstyles : ∀ bag : StyleBag, bag.toJson.nesting = 1 :=
        fun bag => Json.nesting_textObject bag.entries
      have hlayout : ∀ bag : LayoutBag, bag.toJson.nesting = 1 :=
        fun bag => Json.nesting_textObject bag.entries
      rw [Json.nesting_ofFields_le_iff]
      simp [fields, ownFields, Element.fields, ElementId.toJson, ElementKind.toJson, hdata,
        hstyles, hlayout, Json.nesting]
      cases styles <;> cases layout <;> cases data.isEmpty <;> simp <;> grind

/-- The members of a written layer that have its own names. -/
theorem filter_own (layer : Layer) :
    (present layer.fields).filter (fun member => member.1 ∈ fieldNames) =
      present layer.ownFields := by
  rw [Json.filter_present fun name => decide (name ∈ fieldNames)]
  rfl

theorem filter_others (layer : Layer) :
    (present layer.fields).filter (fun member => member.1 ∉ fieldNames) =
      present layer.element.fields := by
  rw [Json.filter_present fun name => decide (name ∉ fieldNames)]
  rfl

/-- The members of an element are plain, so that none of them lacks a value. -/
theorem isReadable_others (e : Element) :
    (present e.fields).all (fun member => member.2.isReadable) = true := by
  have hplain : ∀ member ∈ present e.fields, member.2.IsPlain := by
    apply Json.forall_mem_present
    exact e.forall_fields Json.isPlain_string fun _ => Json.isPlain_textObject
  rw [List.all_eq_true]
  intro member hmem
  rw [Json.isReadable, hplain member hmem]
  rfl

/-- A written layer is read back when those below it are. -/
theorem ofJsonWithin?_toJson_of_children (layer : Layer) {depth : Nat}
    (hchildren : layer.children = [] ∨
      (listToJson layer.children).mapM (ofJsonWithin? depth) = some layer.children) :
    ofJsonWithin? (depth + 1) layer.toJson = some layer := by
  have hrecord : (Json.object (present layer.fields)).record? fieldNames =
      some (Json.Record.written layer.ownFields) := by
    have h := Json.record?_ofFields_of_nodup fieldNames layer.distinct_fields.nodup_fields
    rwa [filter_own] at h
  have hother : (Json.object (present layer.element.fields)).record? Element.fieldNames =
      some (Json.Record.written layer.element.fields) :=
    Json.record?_ofFields layer.element.distinct_fields
  have hdata : (Json.Record.written layer.ownFields).withDefault "pluginData" .empty Json.texts? =
      some layer.data := by
    rw [Json.Record.withDefault, Json.Record.written,
      Json.lookup_present _ layer.distinct_ownFields.nodup_fields]
    cases hempty : layer.data.isEmpty with
    | true =>
      simpa [ownFields, OrderedMap.lookup, hempty] using
        (OrderedMap.eq_empty_of_isEmpty hempty).symm
    | false => simp [ownFields, OrderedMap.lookup, hempty]
  have hbelow : (Json.Record.written layer.ownFields).withDefault "children" []
      (Json.list? (ofJsonWithin? depth)) = some layer.children := by
    rw [Json.Record.withDefault, Json.Record.written,
      Json.lookup_present _ layer.distinct_ownFields.nodup_fields]
    rcases hchildren with hnone | hread
    · simp [ownFields, OrderedMap.lookup, hnone]
    · cases hempty : layer.children.isEmpty with
      | true => simp [ownFields, OrderedMap.lookup, List.isEmpty_iff.mp hempty]
      | false => simpa [ownFields, OrderedMap.lookup, hempty, Json.list?] using hread
  have htree : layer.toJson = .object (present layer.fields) := toJson_eq layer
  rw [htree, ofJsonWithin?]
  simp only [hrecord, filter_others, isReadable_others, hother, hdata, hbelow, if_true,
    Element.ofRecord?_written, Option.bind_eq_bind, Option.bind_some]
  cases layer
  rfl

mutual

/-- A written layer is read back with all below it. -/
theorem ofJsonWithin?_toJson (layer : Layer) {depth : Nat}
    (hdepth : layer.toJson.nesting ≤ depth) :
    ofJsonWithin? depth layer.toJson = some layer := by
  match layer with
  | ⟨element, data, children⟩ =>
      obtain ⟨hown, hbelow⟩ := (nesting_toJson_le_iff _ _).mp hdepth
      obtain ⟨depth, rfl⟩ := Nat.exists_eq_add_one.mpr (Nat.lt_of_lt_of_le (ownNesting_pos _) hown)
      apply ofJsonWithin?_toJson_of_children
      rcases hbelow with hnone | hbelow
      · exact .inl hnone
      · exact .inr (mapM_ofJsonWithin? children (Nat.le_of_succ_le (Nat.le_of_succ_le_succ hbelow)))

theorem mapM_ofJsonWithin? (layers : List Layer) {depth : Nat}
    (hdepth : Json.nestingItems (listToJson layers) ≤ depth) :
    (listToJson layers).mapM (ofJsonWithin? depth) = some layers := by
  match layers with
  | [] => rfl
  | layer :: rest =>
      rw [listToJson, Json.nestingItems, Nat.max_le] at hdepth
      rw [listToJson, List.mapM_cons, ofJsonWithin?_toJson layer hdepth.1,
        mapM_ofJsonWithin? rest hdepth.2]
      rfl

end

theorem list?_ofJson? (layers : List Layer) :
    Json.list? ofJson? (.array (listToJson layers)) = some layers := by
  induction layers with
  | nil => rfl
  | cons layer rest ih =>
      have hlayer : ofJson? layer.toJson = some layer :=
        ofJsonWithin?_toJson layer (Nat.le_refl _)
      rw [Json.list?] at ih
      rw [listToJson, Json.list?, List.mapM_cons, hlayer, ih]
      rfl

end Layer

namespace Snapshot

/-- A snapshot is read back from the tree that is written for it. -/
theorem ofJson?_toJson (s : Snapshot) : ofJson? s.toJson = some s := by
  have hselection : Json.list? ElementId.ofJson? (.array (s.selection.map ElementId.toJson)) =
      some s.selection :=
    Json.mapM_map_of_read ElementId.toJson ElementId.ofJson? fun id _ => id.ofJson?_toJson
  have hlayers := Layer.list?_ofJson? s.layers
  have hnodup : fieldNames.Nodup := by decide
  rw [ofJson?, toJson, Json.record?_of_names hnodup rfl]
  simp [Json.Record.withDefault, OrderedMap.lookup, Json.text?, hselection, hlayers]

theorem isExact_toJson (s : Snapshot) : s.toJson.IsExact := by
  have hselection : Json.ItemsExact (s.selection.map ElementId.toJson) :=
    Json.itemsExact_iff.mpr (List.forall_mem_map.mpr fun _ _ => trivial)
  exact ⟨trivial, trivial, hselection, Layer.itemsExact_listToJson s.layers, trivial⟩

/-- The text of a snapshot that does not nest too deep holds the snapshot. -/
theorem ofText?_toText {s : Snapshot} (h : s.toJson.nesting ≤ Json.maxNesting) :
    ofText? s.toText = some s :=
  (Json.bind_read?_compact s.isExact_toJson h ofJson?).trans s.ofJson?_toJson

theorem nesting_selection (ids : List ElementId) :
    Json.nestingItems (ids.map ElementId.toJson) = 0 :=
  Nat.le_zero.mp (Json.nestingItems_le (List.forall_mem_map.mpr fun _ _ => Nat.le_refl 0))

/-- A snapshot nests two levels deeper than its layers: in their array and in its object. -/
theorem nesting_toJson (s : Snapshot) :
    s.toJson.nesting = Json.nestingItems (Layer.listToJson s.layers) + 2 := by
  simp [toJson, Json.nesting, Json.nestingMembers, nesting_selection]

end Snapshot
end DesignMarkup
