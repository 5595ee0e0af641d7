import DesignMarkup.Element.Id
import DesignMarkup.Message.Tagged
import DesignMarkup.Tag.Properties

/-!
The requests of a session's client.
-/

namespace DesignMarkup

/-- The generated texts that a syntax tree was made from. -/
structure GeneratedOutput where
  html : String := ""
  css : String := ""
  metaInfo : String := ""
deriving DecidableEq, Repr

/-- A request to a session. -/
inductive Inbound where
  | getSelection
  | applyTag (tag : String) (properties : Properties) (ids : List ElementId)
  | removeTag (ids : List ElementId)
  | exportTags
  | autoTagSelection (ids : List ElementId)
  | generateRichJson
  | saveAst (ast : String) (id : ElementId) (output : GeneratedOutput)
  | clearAst (id : ElementId)
  | saveComponent (code : String) (id : ElementId)
  | clearComponent (id : ElementId)
deriving DecidableEq

namespace GeneratedOutput

def toJson (o : GeneratedOutput) : Json :=
  .object [("htmlOutput", .string o.html), ("cssOutput", .string o.css),
    ("metaInfo", .string o.metaInfo)]

def ofJson? (j : Json) : Option GeneratedOutput := do
  let r ← j.record? ["htmlOutput", "cssOutput", "metaInfo"]
  return {
    html := ← r.withDefault "htmlOutput" "" Json.text?
    css := ← r.withDefault "cssOutput" "" Json.text?
    metaInfo := ← r.withDefault "metaInfo" "" Json.text? }

end GeneratedOutput

namespace Inbound

def idsToJson (ids : List ElementId) : Json :=
  .array (ids.map ElementId.toJson)

/-- A list of identifiers without the blank ones, so that a request that names some is answered
for the others. -/
def idsOfJson? (j : Json) : Option (List ElementId) :=
  (j.list? Json.text?).map fun texts => texts.filterMap ElementId.ofText?

def toJson : Inbound → Json
  | getSelection => .ofTagged "get-selection" []
  | applyTag tag properties ids =>
      .ofTagged "apply-tag" [("data", .object [("tag", .string tag),
        ("properties", .ofTexts properties), ("elementIds", idsToJson ids)])]
  | removeTag ids => .ofTagged "remove-tag" [("data", .object [("elementIds", idsToJson ids)])]
  | exportTags => .ofTagged "export-tags" []
  | autoTagSelection ids =>
      .ofTagged "auto-tag-selection" [("data", .object [("elementIds", idsToJson ids)])]
  | generateRichJson => .ofTagged "generate-rich-json" []
  | saveAst ast id output =>
      .ofTagged "save-ast" [("data", .object [("astData", .string ast), ("shapeId", id.toJson),
        ("metadata", output.toJson)])]
  | clearAst id => .ofTagged "clear-ast" [("shapeId", id.toJson)]
  | saveComponent code id =>
      .ofTagged "save-react-component" [("data", .object [("componentCode", .string code),
        ("shapeId", id.toJson)])]
  | clearComponent id => .ofTagged "clear-react-component" [("shapeId", id.toJson)]

/-- The fields of a request's `data`. -/
def data? (names : List String) (fields : Json) : Option Json.Record := do
  let r ← fields.record? ["data"]
  r.required "data" (Json.record? names)

/-- The identifiers of a request that has nothing else. -/
def idsData? (fields : Json) : Option (List ElementId) := do
  let r ← data? ["elementIds"] fields
  r.withDefault "elementIds" [] idsOfJson?

/-- The only field of a request to clear an artifact. -/
def shapeId? (fields : Json) : Option ElementId := do
  let r ← fields.record? ["shapeId"]
  r.required "shapeId" ElementId.ofJson?

/-- The request of a kind with its fields. -/
def ofFields? (kind : String) (fields : Json) : Option Inbound :=
  match kind with
  | "get-selection" => fields.noFields?.map fun _ => getSelection
  | "apply-tag" => do
      let r ← data? ["tag", "properties", "elementIds"] fields
      return applyTag (← r.required "tag" Json.text?)
        (← r.withDefault "properties" .empty Json.texts?)
        (← r.withDefault "elementIds" [] idsOfJson?)
  | "remove-tag" => (idsData? fields).map removeTag
  | "export-tags" => fields.noFields?.map fun _ => exportTags
  | "auto-tag-selection" => (idsData? fields).map autoTagSelection
  | "generate-rich-json" => fields.noFields?.map fun _ => generateRichJson
  | "save-ast" => do
      let r ← data? ["astData", "shapeId", "metadata"] fields
      return saveAst (← r.required "astData" Json.text?) (← r.required "shapeId" ElementId.ofJson?)
        (← r.withDefault "metadata" {} GeneratedOutput.ofJson?)
  | "clear-ast" => (shapeId? fields).map clearAst
  | "save-react-component" => do
      let r ← data? ["componentCode", "shapeId"] fields
      return saveComponent (← r.required "componentCode" Json.text?)
        (← r.required "shapeId" ElementId.ofJson?)
  | "clear-react-component" => (shapeId? fields).map clearComponent
  | _ => none

def ofJson? (j : Json) : Option Inbound :=
  j.tagged?.bind fun (kind, fields) => ofFields? kind fields

def toText (m : Inbound) : String :=
  m.toJson.compact

def ofText? (s : String) : Option Inbound :=
  (Json.read? s).bind ofJson?

end Inbound
end DesignMarkup
