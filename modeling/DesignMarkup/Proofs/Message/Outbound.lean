import DesignMarkup.Message.Outbound
import DesignMarkup.Proofs.Forest.Encoding
import DesignMarkup.Proofs.Message.Tagged

/-!
Written answers.  An answer whose text can be read at all is read back from it with all of its data;
the answer that carries a syntax tree of any form is left aside, because such a tree need not be
written as it is.
-/

namespace DesignMarkup

open Json (Record)

theorem SelectionItem.ofJson?_toJson (payload : Json.NoPayload) (item : SelectionItem) :
    ofJson? payload item.toJson = some item := by
  have hnodup : ["id", "name", "type"].Nodup := by decide
  rw [ofJson?, toJson, Json.record?_of_names hnodup rfl]
  simp [Record.required, OrderedMap.lookup]

theorem LoadedText.ofJson?_toJson {name : String} (hname : name ≠ "timestamp")
    (loaded : LoadedText) : ofJson? name (loaded.toJson name) = some loaded := by
  have hnodup : [name, "timestamp"].Nodup := by simp [hname]
  rw [ofJson?, toJson, Json.record?_of_names hnodup rfl]
  simp [Record.required, OrderedMap.lookup, hname]

theorem LoadedText.isExact_optionalToJson (name : String) (loaded : Option LoadedText) :
    (optionalToJson name loaded).IsExact := by
  cases loaded with
  | none => trivial
  | some loaded => exact ⟨trivial, Json.isExact_ofInt64 loaded.timestamp, trivial⟩

theorem TagRecord.isExact_toJson (r : TagRecord) : r.toJson.IsExact :=
  Json.isExact_ofFields fun field hfield j hj => (r.isFlat_fields field hfield j hj).isExact

namespace Outbound

/-- The kind of the answers that carry a syntax tree of any form. -/
def freeKind : String :=
  "ast-generated"

theorem isExact_toJson {m : Outbound} (h : m.kind ≠ freeKind) : m.toJson.IsExact := by
  cases m with
  | selectionUpdate items =>
      have hitems : Json.ItemsExact (items.map SelectionItem.toJson) :=
        Json.itemsExact_iff.mpr (List.forall_mem_map.mpr fun _ _ =>
          ⟨trivial, trivial, trivial, trivial⟩)
      exact ⟨trivial, hitems, trivial⟩
  | tagApplied r => exact ⟨trivial, r.isExact_toJson, trivial⟩
  | tagRemoved id => exact ⟨trivial, ⟨trivial, trivial⟩, trivial⟩
  | tagsLoaded records =>
      have hrecords : Json.ItemsExact (records.map TagRecord.toJson) :=
        Json.itemsExact_iff.mpr (List.forall_mem_map.mpr fun r _ => r.isExact_toJson)
      exact ⟨trivial, hrecords, trivial⟩
  | exportData forest | richJsonData forest => exact ⟨trivial, forest.faithful_toJson.exact, trivial⟩
  | autoTagComplete taggedCount processed =>
      have hprocessed : Json.ItemsExact (processed.map ElementId.toJson) :=
        Json.itemsExact_iff.mpr (List.forall_mem_map.mpr fun _ _ => trivial)
      exact ⟨trivial, ⟨Json.isExact_ofUInt64 taggedCount, hprocessed, trivial⟩, trivial⟩
  | astGenerated ast success => exact absurd rfl h
  | astError content | componentError content | error content => exact ⟨trivial, trivial, trivial⟩
  | astLoaded loaded | componentLoaded loaded =>
      exact ⟨trivial, LoadedText.isExact_optionalToJson _ loaded, trivial⟩

section Fields

variable {α : Type}

theorem data?_fields (read : Json → Option α) (data : Json) :
    data? read (.object [("data", data)]) = read data := by
  have hnodup : ["data"].Nodup := by decide
  rw [data?, Json.record?_of_names hnodup rfl]
  rfl

theorem content?_fields (content : String) :
    content? (.object [("content", .string content)]) = some content := by
  have hnodup : ["content"].Nodup := by decide
  rw [content?, Json.record?_of_names hnodup rfl]
  rfl

theorem nullableData?_fields {name : String} (hname : name ≠ "timestamp")
    (loaded : Option LoadedText) :
    nullableData? (LoadedText.ofJson? name)
      (.object [("data", LoadedText.optionalToJson name loaded)]) = some loaded := by
  have hnodup : ["data"].Nodup := by decide
  rw [nullableData?, Json.record?_of_names hnodup rfl]
  cases loaded with
  | none => rfl
  | some loaded => exact congrArg (Option.map some) (loaded.ofJson?_toJson hname)

end Fields

/-- The written number is any tree here, so that nothing computes with the bounds of a number. -/
theorem ofFields?_autoTagComplete {count ids : Json} {taggedCount : UInt64}
    {processed : List ElementId} (hcount : count.uint64? = some taggedCount)
    (hids : Json.list? ElementId.ofJson? ids = some processed) :
    ofFields? "auto-tag-complete"
        (.object [("data", .object [("taggedCount", count), ("processedElements", ids)])]) =
      some (autoTagComplete taggedCount processed) := by
  have hnodup : ["taggedCount", "processedElements"].Nodup := by decide
  simp only [ofFields?, data?_fields]
  rw [Json.record?_of_names hnodup rfl]
  simp [Record.required, OrderedMap.lookup, hcount, hids]

/-- The fields of each kind are read as they were written. -/
theorem ofFields?_fields {m : Outbound} (h : m.kind ≠ freeKind) :
    ofFields? m.kind (.object m.fields) = some m := by
  cases m with
  | selectionUpdate items =>
      have hitems : Json.list? (SelectionItem.ofJson? .nullOrObject)
          (.array (items.map SelectionItem.toJson)) = some items :=
        Json.mapM_map_of_read SelectionItem.toJson _ fun item _ => item.ofJson?_toJson _
      simp only [kind, fields, ofFields?, data?_fields, hitems, Option.map_some]
  | tagApplied r =>
      simp only [kind, fields, ofFields?, data?_fields, r.ofJson?_toJson, Option.map_some]
  | tagRemoved id =>
      have hnodup : ["elementId"].Nodup := by decide
      simp only [kind, fields, ofFields?, data?_fields]
      rw [Json.record?_of_names hnodup rfl]
      simp [Record.required, OrderedMap.lookup]
  | tagsLoaded records =>
      have hrecords : Json.list? (TagRecord.ofJson? .nullOrObject)
          (.array (records.map TagRecord.toJson)) = some records :=
        Json.mapM_map_of_read TagRecord.toJson _ fun r _ => r.ofJson?_toJson _
      simp only [kind, fields, ofFields?, data?_fields, hrecords, Option.map_some]
  | exportData forest | richJsonData forest =>
      simp only [kind, fields, ofFields?, data?_fields, forest.ofJson?_toJson, Option.map_some]
  | autoTagComplete taggedCount processed =>
      have hprocessed : Json.list? ElementId.ofJson? (.array (processed.map ElementId.toJson)) =
          some processed :=
        Json.mapM_map_of_read ElementId.toJson _ fun id _ => id.ofJson?_toJson
      exact ofFields?_autoTagComplete (Json.uint64?_ofUInt64 taggedCount) hprocessed
  | astGenerated ast success => exact absurd rfl h
  | astError content | componentError content | error content =>
      simp only [kind, fields, ofFields?, content?_fields, Option.map_some]
  | astLoaded loaded =>
      have hname : "ast" ≠ "timestamp" := by decide
      simp only [kind, fields, ofFields?, nullableData?_fields hname, Option.map_some]
  | componentLoaded loaded =>
      have hname : "componentCode" ≠ "timestamp" := by decide
      simp only [kind, fields, ofFields?, nullableData?_fields hname, Option.map_some]

theorem ofJson?_toJson {m : Outbound} (h : m.kind ≠ freeKind) : ofJson? m.toJson = some m := by
  have hexact := isExact_toJson h
  have hnames : ∀ field ∈ m.fields, field.1 ≠ "type" := by
    cases m <;> simp [fields]
  rw [toJson] at hexact ⊢
  rw [ofJson?, Json.tagged?_ofTagged m.kind hexact hnames, Option.bind_some]
  exact ofFields?_fields h

/-- The text of an answer that does not nest too deep holds the answer. -/
theorem ofText?_toText {m : Outbound} (h : m.kind ≠ freeKind)
    (hnesting : m.toJson.nesting ≤ Json.maxNesting) : ofText? m.toText = some m :=
  (Json.bind_read?_compact (isExact_toJson h) hnesting ofJson?).trans (ofJson?_toJson h)

end Outbound
end DesignMarkup
