import DesignMarkup.Forest.Encoding
import DesignMarkup.Message.Tagged

/-!
The answers of a session to its client.
-/

namespace DesignMarkup

/-- A selected element as the client shows it. -/
structure SelectionItem where
  id : ElementId
  name : String
  kind : ElementKind
deriving DecidableEq

/-- A text made earlier with the time in milliseconds. -/
structure LoadedText where
  text : String
  timestamp : Int64
deriving DecidableEq

/-- An answer of a session. -/
inductive Outbound where
  | selectionUpdate (items : List SelectionItem)
  | tagApplied (r : TagRecord)
  | tagRemoved (id : ElementId)
  | tagsLoaded (records : List TagRecord)
  | exportData (forest : Forest)
  | autoTagComplete (taggedCount : UInt64) (processed : List ElementId)
  | richJsonData (forest : Forest)
  | astGenerated (ast : Json) (success : Bool)
  | astError (content : String)
  | astLoaded (ast : Option LoadedText)
  | componentLoaded (code : Option LoadedText)
  | componentError (content : String)
  | error (content : String)

namespace SelectionItem

def toJson (item : SelectionItem) : Json :=
  .object [("id", item.id.toJson), ("name", .string item.name), ("type", item.kind.toJson)]

def ofJson? (payload : Json.NoPayload) (j : Json) : Option SelectionItem := do
  let r ← j.record? ["id", "name", "type"]
  return {
    id := ← r.required "id" ElementId.ofJson?
    name := ← r.required "name" Json.text?
    kind := ← r.required "type" (ElementKind.ofJson? payload) }

end SelectionItem

namespace LoadedText

/-- The text is held under a name of its own. -/
def toJson (name : String) (loaded : LoadedText) : Json :=
  .object [(name, .string loaded.text), ("timestamp", .ofInt64 loaded.timestamp)]

def ofJson? (name : String) (j : Json) : Option LoadedText := do
  let r ← j.record? [name, "timestamp"]
  return {
    text := ← r.required name Json.text?
    timestamp := ← r.required "timestamp" Json.int64? }

/-- A text that may be missing, written as `null` then. -/
def optionalToJson (name : String) : Option LoadedText → Json
  | some loaded => loaded.toJson name
  | none => .null

end LoadedText

namespace Outbound

/-- The kind of an answer. -/
def kind : Outbound → String
  | selectionUpdate _ => "selection-update"
  | tagApplied _ => "tag-applied"
  | tagRemoved _ => "tag-removed"
  | tagsLoaded _ => "tags-loaded"
  | exportData _ => "export-data"
  | autoTagComplete _ _ => "auto-tag-complete"
  | richJsonData _ => "rich-json-data"
  | astGenerated _ _ => "ast-generated"
  | astError _ => "ast-error"
  | astLoaded _ => "ast-loaded"
  | componentLoaded _ => "react-component-loaded"
  | componentError _ => "react-component-error"
  | error _ => "error"

/-- The fields of an answer beside its kind. -/
def fields : Outbound → List (String × Json)
  | selectionUpdate items => [("data", .array (items.map SelectionItem.toJson))]
  | tagApplied r => [("data", r.toJson)]
  | tagRemoved id => [("data", .object [("elementId", id.toJson)])]
  | tagsLoaded records => [("data", .array (records.map TagRecord.toJson))]
  | exportData forest => [("data", forest.toJson)]
  | autoTagComplete taggedCount processed =>
      [("data", .object [("taggedCount", .ofUInt64 taggedCount),
        ("processedElements", .array (processed.map ElementId.toJson))])]
  | richJsonData forest => [("data", forest.toJson)]
  | astGenerated ast success => [("data", .object [("astData", ast), ("success", .bool success)])]
  | astError content => [("content", .string content)]
  | astLoaded ast => [("data", LoadedText.optionalToJson "ast" ast)]
  | componentLoaded code => [("data", LoadedText.optionalToJson "componentCode" code)]
  | componentError content => [("content", .string content)]
  | error content => [("content", .string content)]

def toJson (m : Outbound) : Json :=
  .ofTagged m.kind m.fields

/-- The only field of an answer with data. -/
def data? {α : Type} (read : Json → Option α) (fields : Json) : Option α := do
  let r ← fields.record? ["data"]
  r.required "data" read

/-- The only field of an answer whose data may be missing. -/
def nullableData? {α : Type} (read : Json → Option α) (fields : Json) : Option (Option α) := do
  let r ← fields.record? ["data"]
  r.nullable "data" read

/-- The only field of an answer with a text. -/
def content? (fields : Json) : Option String := do
  let r ← fields.record? ["content"]
  r.required "content" Json.text?

/-- The answer of a kind with its fields. -/
def ofFields? (kind : String) (fields : Json) : Option Outbound :=
  match kind with
  | "selection-update" =>
      (data? (Json.list? (SelectionItem.ofJson? .nullOrObject)) fields).map selectionUpdate
  | "tag-applied" => (data? (TagRecord.ofJson? .nullOrObject) fields).map tagApplied
  | "tag-removed" => do
      let r ← data? (Json.record? ["elementId"]) fields
      return tagRemoved (← r.required "elementId" ElementId.ofJson?)
  | "tags-loaded" =>
      (data? (Json.list? (TagRecord.ofJson? .nullOrObject)) fields).map tagsLoaded
  | "export-data" => (data? (Forest.ofJson? .nullOrObject) fields).map exportData
  | "auto-tag-complete" => do
      let r ← data? (Json.record? ["taggedCount", "processedElements"]) fields
      return autoTagComplete (← r.required "taggedCount" Json.uint64?)
        (← r.required "processedElements" (Json.list? ElementId.ofJson?))
  | "rich-json-data" => (data? (Forest.ofJson? .nullOrObject) fields).map richJsonData
  | "ast-generated" => do
      let r ← data? (Json.record? ["astData", "success"]) fields
      return astGenerated (← r.required "astData" Json.value?) (← r.required "success" Json.bool?)
  | "ast-error" => (content? fields).map astError
  | "ast-loaded" => (nullableData? (LoadedText.ofJson? "ast") fields).map astLoaded
  | "react-component-loaded" =>
      (nullableData? (LoadedText.ofJson? "componentCode") fields).map componentLoaded
  | "react-component-error" => (content? fields).map componentError
  | "error" => (content? fields).map error
  | _ => none

def ofJson? (j : Json) : Option Outbound :=
  j.tagged?.bind fun (kind, fields) => ofFields? kind fields

def toText (m : Outbound) : String :=
  m.toJson.compact

def ofText? (s : String) : Option Outbound :=
  (Json.read? s).bind ofJson?

end Outbound
end DesignMarkup
