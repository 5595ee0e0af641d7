import DesignMarkup.Tag.Properties

/-!
Layer names that follow the naming convention: a category, and after a slash a variant.  The
category gives a tag, the variant one of its properties.
-/

namespace DesignMarkup

/-- The parts of a layer name, trimmed. -/
structure LayerName where
  category : String
  variant : Option String
deriving DecidableEq, Repr

/-- The tag and properties that a layer name suggests. -/
structure Inference where
  tag : String
  properties : Properties
deriving DecidableEq

namespace LayerName

/-- The characters before the first slash, and those after it if there is one. -/
def splitSlash : List Char → List Char × Option (List Char)
  | [] => ([], none)
  | c :: cs =>
      if c = '/' then ([], some cs)
      else
        let (category, variant) := splitSlash cs
        (c :: category, variant)

/-- The parts of a layer name.  A blank category makes it no such name, a blank variant counts as
none. -/
def parse? (name : String) : Option LayerName :=
  let (category, variant) := splitSlash name.toList
  let category := Text.trimChars category
  let variant := (variant.map Text.trimChars).filter fun cs => !cs.isEmpty
  if category.isEmpty then none
  else some ⟨String.ofList category, variant.map String.ofList⟩

/-- The categories and their tags. -/
def taxonomy : List (String × String) := [
  ("button", "button"),
  ("input", "input"),
  ("textarea", "textarea"),
  ("select", "select"),
  ("checkbox", "input"),
  ("radio", "input"),
  ("link", "a"),
  ("nav", "nav"),
  ("header", "header"),
  ("footer", "footer"),
  ("main", "main"),
  ("section", "section"),
  ("aside", "aside"),
  ("article", "article"),
  ("card", "article"),
  ("form", "form"),
  ("label", "label"),
  ("heading", "h2"),
  ("title", "h1"),
  ("text", "p"),
  ("paragraph", "p"),
  ("image", "img"),
  ("img", "img"),
  ("icon", "span"),
  ("list", "ul"),
  ("item", "li"),
  ("container", "div"),
  ("div", "div")]

/-- The tag of a category. -/
def tag? (category : String) : Option String :=
  taxonomy.lookup category

/-- The button variants that are button types. -/
def buttonTypes : List String :=
  ["button", "submit", "reset"]

/-- A variant that no attribute of its own stands for. -/
def dataVariant (variant : Option String) : List (String × String) :=
  variant.toList.map ("data-variant", ·)

/-- The attributes that a tag of a category starts with, and the one that holds the variant. -/
def suggestions (category tag : String) (variant : Option String) : List (String × String) :=
  if tag = "button" then
    match variant with
    | some v => if v ∈ buttonTypes then [("type", v)] else [("type", "button"), ("data-variant", v)]
    | none => [("type", "button")]
  else if tag = "input" then
    if category = "checkbox" ∨ category = "radio" then
      ("type", category) :: dataVariant variant
    else [("type", variant.getD "text"), ("required", "true")]
  else if tag = "a" then ("target", "_blank") :: dataVariant variant
  else dataVariant variant

/-- The properties that a tag of a category starts with. -/
def suggestedProperties (category tag : String) (variant : Option String) : Properties :=
  .ofList (suggestions category tag variant)

/-- The tag and properties of a layer name, if its category is known. -/
def infer? (name : String) : Option Inference := do
  let parsed ← parse? name
  let tag ← tag? parsed.category
  return ⟨tag, suggestedProperties parsed.category tag parsed.variant⟩

end LayerName
end DesignMarkup
