import DesignMarkup.Message.Inbound
import DesignMarkup.Proofs.Message.Tagged

/-!
Written requests.  A request is read back from its text with all of its data; it nests too little
to be refused, and its identifiers are none of those that are dropped.
-/

namespace DesignMarkup

open Json (Record)

theorem GeneratedOutput.ofJson?_toJson (o : GeneratedOutput) : ofJson? o.toJson = some o := by
  have hnodup : ["htmlOutput", "cssOutput", "metaInfo"].Nodup := by decide
  rw [ofJson?, toJson, Json.record?_of_names hnodup rfl]
  simp [Record.withDefault, OrderedMap.lookup]

namespace Inbound

/-- The kind under which a request is written. -/
def kind : Inbound → String
  | getSelection => "get-selection"
  | applyTag _ _ _ => "apply-tag"
  | removeTag _ => "remove-tag"
  | exportTags => "export-tags"
  | autoTagSelection _ => "auto-tag-selection"
  | generateRichJson => "generate-rich-json"
  | saveAst _ _ _ => "save-ast"
  | clearAst _ => "clear-ast"
  | saveComponent _ _ => "save-react-component"
  | clearComponent _ => "clear-react-component"

/-- The fields of a request beside its kind. -/
def fields : Inbound → List (String × Json)
  | getSelection | exportTags | generateRichJson => []
  | applyTag tag properties ids =>
      [("data", .object [("tag", .string tag), ("properties", .ofTexts properties),
        ("elementIds", idsToJson ids)])]
  | removeTag ids | autoTagSelection ids => [("data", .object [("elementIds", idsToJson ids)])]
  | saveAst ast id output =>
      [("data", .object [("astData", .string ast), ("shapeId", id.toJson),
        ("metadata", output.toJson)])]
  | saveComponent code id =>
      [("data", .object [("componentCode", .string code), ("shapeId", id.toJson)])]
  | clearAst id | clearComponent id => [("shapeId", id.toJson)]

theorem toJson_eq (m : Inbound) : m.toJson = .ofTagged m.kind m.fields := by
  cases m <;> rfl

theorem isExact_idsToJson (ids : List ElementId) : (idsToJson ids).IsExact :=
  Json.itemsExact_iff.mpr (List.forall_mem_map.mpr fun _ _ => trivial)

theorem nesting_idsToJson_le (ids : List ElementId) : (idsToJson ids).nesting ≤ 1 :=
  Nat.succ_le_succ (Json.nestingItems_le (List.forall_mem_map.mpr fun _ _ => Nat.le_refl 0))

/-- No identifier is blank, so none is dropped. -/
theorem idsOfJson?_idsToJson (ids : List ElementId) : idsOfJson? (idsToJson ids) = some ids := by
  have htexts : (ids.map ElementId.toJson).mapM Json.text? = some (ids.map ElementId.text) := by
    induction ids with
    | nil => rfl
    | cons id rest ih =>
        rw [List.map_cons, List.mapM_cons, ih]
        rfl
  have hids : (ids.map ElementId.text).filterMap ElementId.ofText? = ids := by
    have hsome : ElementId.ofText? ∘ ElementId.text = some := funext ElementId.ofText?_text
    rw [List.filterMap_map, hsome, List.filterMap_some]
  rw [idsOfJson?, idsToJson, Json.list?, htexts, Option.map_some, hids]

theorem isExact_toJson (m : Inbound) : m.toJson.IsExact := by
  cases m with
  | getSelection | exportTags | generateRichJson => exact ⟨trivial, trivial⟩
  | applyTag tag properties ids =>
      have hproperties := (Json.isFlat_ofTexts properties).isExact
      exact ⟨trivial, ⟨trivial, hproperties, isExact_idsToJson ids, trivial⟩, trivial⟩
  | removeTag ids | autoTagSelection ids =>
      exact ⟨trivial, ⟨isExact_idsToJson ids, trivial⟩, trivial⟩
  | saveAst ast id output =>
      exact ⟨trivial, ⟨trivial, trivial, ⟨trivial, trivial, trivial, trivial⟩, trivial⟩, trivial⟩
  | clearAst id | clearComponent id => exact ⟨trivial, trivial, trivial⟩
  | saveComponent code id => exact ⟨trivial, ⟨trivial, trivial, trivial⟩, trivial⟩

theorem nesting_toJson_le (m : Inbound) : m.toJson.nesting ≤ 3 := by
  cases m with
  | applyTag tag properties ids =>
      have hproperties := (Json.isFlat_ofTexts properties).nesting_le
      have hids := nesting_idsToJson_le ids
      simp only [toJson, Json.ofTagged, Json.nesting, Json.nestingMembers]
      omega
  | removeTag ids | autoTagSelection ids =>
      have hids := nesting_idsToJson_le ids
      simp only [toJson, Json.ofTagged, Json.nesting, Json.nestingMembers]
      omega
  | getSelection | exportTags | generateRichJson | saveAst | clearAst | saveComponent
  | clearComponent => exact Nat.le_of_ble_eq_true rfl

/-- Data that is written with the names of its fields in their order is found again. -/
theorem data?_of_names {names : List String} (hnodup : names.Nodup)
    {members : List (String × Json)} (hnames : members.map Prod.fst = names) :
    data? names (.object [("data", .object members)]) = some ⟨members, false⟩ := by
  have hdata : ["data"].Nodup := by decide
  rw [data?, Json.record?_of_names hdata rfl]
  exact Json.record?_of_names hnodup hnames

theorem idsData?_fields (ids : List ElementId) :
    idsData? (.object [("data", .object [("elementIds", idsToJson ids)])]) = some ids := by
  have hnodup : ["elementIds"].Nodup := by decide
  rw [idsData?, data?_of_names hnodup rfl]
  exact idsOfJson?_idsToJson ids

theorem shapeId?_fields (id : ElementId) :
    shapeId? (.object [("shapeId", id.toJson)]) = some id := by
  have hnodup : ["shapeId"].Nodup := by decide
  rw [shapeId?, Json.record?_of_names hnodup rfl]
  exact id.ofJson?_toJson

/-- The fields of each kind are read as they were written. -/
theorem ofFields?_fields (m : Inbound) : ofFields? m.kind (.object m.fields) = some m := by
  cases m with
  | getSelection | exportTags | generateRichJson => rfl
  | applyTag tag properties ids =>
      have hnodup : ["tag", "properties", "elementIds"].Nodup := by decide
      simp only [kind, fields, ofFields?]
      rw [data?_of_names hnodup rfl]
      simp [Record.required, Record.withDefault, OrderedMap.lookup, idsOfJson?_idsToJson]
  | removeTag ids | autoTagSelection ids =>
      simp only [kind, fields, ofFields?, idsData?_fields, Option.map_some]
  | saveAst ast id output =>
      have hnodup : ["astData", "shapeId", "metadata"].Nodup := by decide
      simp only [kind, fields, ofFields?]
      rw [data?_of_names hnodup rfl]
      simp [Record.required, Record.withDefault, OrderedMap.lookup, output.ofJson?_toJson]
  | saveComponent code id =>
      have hnodup : ["componentCode", "shapeId"].Nodup := by decide
      simp only [kind, fields, ofFields?]
      rw [data?_of_names hnodup rfl]
      simp [Record.required, OrderedMap.lookup]
  | clearAst id | clearComponent id =>
      simp only [kind, fields, ofFields?, shapeId?_fields, Option.map_some]

theorem ofJson?_toJson (m : Inbound) : ofJson? m.toJson = some m := by
  have hexact := m.isExact_toJson
  have hnames : ∀ field ∈ m.fields, field.1 ≠ "type" := by
    cases m <;> simp [fields]
  rw [toJson_eq] at hexact ⊢
  rw [ofJson?, Json.tagged?_ofTagged m.kind hexact hnames, Option.bind_some]
  exact m.ofFields?_fields

/-- The text of a request holds the request. -/
theorem ofText?_toText (m : Inbound) : ofText? m.toText = some m := by
  have hnesting : m.toJson.nesting ≤ Json.maxNesting :=
    Nat.le_trans m.nesting_toJson_le (by decide)
  exact (Json.bind_read?_compact m.isExact_toJson hnesting ofJson?).trans m.ofJson?_toJson

end Inbound
end DesignMarkup
