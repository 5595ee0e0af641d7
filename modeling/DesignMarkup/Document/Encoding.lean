import DesignMarkup.Document.Basic

/-!
Snapshots as JSON.  A layer is an object that holds the fields of its element next to its data and
the layers below it.
-/

namespace DesignMarkup

namespace Layer

mutual

def toJson : Layer → Json
  | ⟨element, data, children⟩ =>
      .ofFields (element.fields ++
        [("pluginData", if data.isEmpty then none else some (.ofTexts data)),
          ("children", if children.isEmpty then none else some (.array (listToJson children)))])

def listToJson : List Layer → List Json
  | [] => []
  | layer :: rest => layer.toJson :: listToJson rest

end

/-- The names of the fields that a layer has beside those of its element. -/
def fieldNames : List String :=
  ["pluginData", "children"]

/-- A layer read from a tree, with at most `depth` levels of layers.  The members that are not
the layer's own, even the unknown ones, belong to the element and must have values. -/
def ofJsonWithin? : (depth : Nat) → Json → Option Layer
  | 0, _ => none
  | depth + 1, .object members => do
      let r ← (Json.object members).record? fieldNames
      let others := members.filter fun member => member.1 ∉ fieldNames
      if others.all fun member => member.2.isReadable then
        let element ← (Json.object others).record? Element.fieldNames
        return {
          element := ← Element.ofRecord? .nullOrObject element
          data := ← r.withDefault "pluginData" .empty Json.texts?
          children := ← r.withDefault "children" [] (Json.list? (ofJsonWithin? depth)) }
      else none
  | _ + 1, _ => none

/-- A layer read from a tree.  Layers lie in each other no deeper than arrays and objects do. -/
def ofJson? (j : Json) : Option Layer :=
  ofJsonWithin? j.nesting j

end Layer

namespace Snapshot

def toJson (s : Snapshot) : Json :=
  .object [("fileName", .string s.fileName), ("pageName", .string s.pageName),
    ("selection", .array (s.selection.map ElementId.toJson)),
    ("elements", .array (Layer.listToJson s.layers))]

def fieldNames : List String :=
  ["fileName", "pageName", "selection", "elements"]

def ofJson? (j : Json) : Option Snapshot := do
  let r ← j.record? fieldNames
  return {
    fileName := ← r.withDefault "fileName" "" Json.text?
    pageName := ← r.withDefault "pageName" "" Json.text?
    selection := ← r.withDefault "selection" [] (Json.list? ElementId.ofJson?)
    layers := ← r.withDefault "elements" [] (Json.list? Layer.ofJson?) }

def toText (s : Snapshot) : String :=
  s.toJson.compact

def ofText? (s : String) : Option Snapshot :=
  (Json.read? s).bind ofJson?

end Snapshot
end DesignMarkup
