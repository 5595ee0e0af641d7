import DesignMarkup.Forest.Basic

/-!
Export forests as JSON.
-/

namespace DesignMarkup

namespace ForestMetadata

def toJson (m : ForestMetadata) : Json :=
  .object [("pluginName", .string m.pluginName), ("version", .string m.version),
    ("exportDate", .string m.exportDate), ("fileName", .string m.fileName),
    ("pageName", .string m.pageName)]

def fieldNames : List String :=
  ["pluginName", "version", "exportDate", "fileName", "pageName"]

def ofJson? (j : Json) : Option ForestMetadata := do
  let r ← j.record? fieldNames
  return {
    pluginName := ← r.withDefault "pluginName" "" Json.text?
    version := ← r.withDefault "version" "" Json.text?
    exportDate := ← r.withDefault "exportDate" "" Json.text?
    fileName := ← r.withDefault "fileName" "" Json.text?
    pageName := ← r.withDefault "pageName" "" Json.text? }

end ForestMetadata

namespace ForestNode

mutual

def toJson : ForestNode → Json
  | ⟨tag, id, name, kind, attributes, content, styles, layout, children⟩ =>
      .ofFields [("tag", some (.string tag)), ("elementId", some id.toJson),
        ("elementName", some (.string name)), ("elementType", kind.map ElementKind.toJson),
        ("attributes", some (.ofTexts attributes)), ("content", content.map .string),
        ("styles", styles.map Bag.toJson), ("layout", layout.map Bag.toJson),
        ("children", if children.isEmpty then none else some (.array (listToJson children)))]

def listToJson : List ForestNode → List Json
  | [] => []
  | node :: rest => node.toJson :: listToJson rest

end

def fieldNames : List String :=
  ["tag", "elementId", "elementName", "elementType", "attributes", "content", "styles", "layout",
    "children"]

/-- A node read from a tree, with at most `depth` levels of nodes. -/
def ofJsonWithin? (payload : Json.NoPayload) : (depth : Nat) → Json → Option ForestNode
  | 0, _ => none
  | depth + 1, j => do
      let r ← j.record? fieldNames
      return {
        tag := ← r.required "tag" Json.text?
        elementId := ← r.required "elementId" ElementId.ofJson?
        elementName := ← r.withDefault "elementName" "" Json.text?
        elementType := ← r.optional "elementType" (ElementKind.ofJson? payload)
        attributes := ← r.withDefault "attributes" .empty Json.texts?
        content := ← r.optional "content" Json.text?
        styles := ← r.optional "styles" Bag.ofJson?
        layout := ← r.optional "layout" Bag.ofJson?
        children := ← r.withDefault "children" [] (Json.list? (ofJsonWithin? payload depth)) }

/-- A node read from a tree.  Nodes lie in each other no deeper than arrays and objects do. -/
def ofJson? (payload : Json.NoPayload) (j : Json) : Option ForestNode :=
  ofJsonWithin? payload j.nesting j

end ForestNode

namespace Forest

def toJson (forest : Forest) : Json :=
  .object [("metadata", forest.metadata.toJson),
    ("tree", .array (ForestNode.listToJson forest.tree))]

def fieldNames : List String :=
  ["metadata", "tree"]

def ofJson? (payload : Json.NoPayload) (j : Json) : Option Forest := do
  let r ← j.record? fieldNames
  return {
    metadata := ← r.withDefault "metadata" {} ForestMetadata.ofJson?
    tree := ← r.withDefault "tree" [] (Json.list? (ForestNode.ofJson? payload)) }

def toText (forest : Forest) : String :=
  forest.toJson.compact

def ofText? (s : String) : Option Forest :=
  (Json.read? s).bind (ofJson? .null)

end Forest
end DesignMarkup
