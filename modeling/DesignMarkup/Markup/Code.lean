import DesignMarkup.Markup.Css
import DesignMarkup.Markup.Html
import DesignMarkup.Markup.Reading

/-!
Generated code: the markup and the style sheet of the same nodes.
-/

namespace DesignMarkup

/-- Markup and the style sheet that goes with it. -/
structure GeneratedCode where
  html : String
  css : String
deriving DecidableEq, Repr

namespace GeneratedCode

/-- The version of the generator. -/
def generatorVersion : String :=
  "0.3.0"

/-- Markup and style sheet of nodes, with the same classes in both. -/
def ofNodes (nodes : List MarkupNode) : GeneratedCode :=
  let styled := StyledNode.ofNodes nodes
  ⟨StyledNode.html styled, StyledNode.css styled⟩

/-- Markup and style sheet of an input text. -/
def ofInput (s : String) : Except MarkupError GeneratedCode :=
  (MarkupNode.nodesOfText s).map ofNodes

def toJson (code : GeneratedCode) : Json :=
  .object [("html", .string code.html), ("css", .string code.css)]

def ofJson? (j : Json) : Option GeneratedCode := do
  let r ← j.record? ["html", "css"]
  return {
    html := ← r.required "html" Json.text?
    css := ← r.required "css" Json.text? }

def toText (code : GeneratedCode) : String :=
  code.toJson.compact

def ofText? (s : String) : Option GeneratedCode :=
  (Json.read? s).bind ofJson?

end GeneratedCode
end DesignMarkup
