import DesignMarkup.Markup.Node

/-!
Style declarations.  Known styles come first in the order of the schema, the others follow in the
order of their keys.  A style whose key or value could end its declaration is left out.
-/

namespace DesignMarkup.Markup

/-- The characters that a value must not contain. -/
def isValueBreak (c : Char) : Bool :=
  c == '\x7b' || c == '\x7d' || c == ';'

/-- The characters that a key must not contain. -/
def isKeyBreak (c : Char) : Bool :=
  isValueBreak c || c == ':'

/-- A style with its value trimmed, if it can be declared. -/
def declarable? (style : String × String) : Option (String × String) :=
  let value := Text.trim style.2
  if value = "" ∨ value.toList.any isValueBreak ∨ style.1.toList.any isKeyBreak then none
  else some (style.1, value)

/-- The styles that can be declared, with their values trimmed. -/
def declarable (styles : OrderedMap String String) : List (String × String) :=
  styles.entries.filterMap declarable?

/-- The beginnings of keys that belong to one browser. -/
def vendorStarts : List (List Char) :=
  ["webkit-".toList, "moz-".toList, "ms-".toList]

/-- An upper-case letter starts a new word. -/
def hyphenate (c : Char) : List Char :=
  if c.isUpper then ['-', c.toLower] else [c]

/-- The CSS property of a style key: the one of the schema, or the key in hyphenated words. -/
def cssProperty (key : String) : String :=
  match Style.property? key with
  | some property => property
  | none =>
      let words := key.toList.flatMap hyphenate
      String.ofList (if vendorStarts.any (·.isPrefixOf words) then '-' :: words else words)

/-- The declarations of known styles, in the order of the schema. -/
def knownDeclarations (styles : List (String × String)) : List (String × String) :=
  Style.properties.filterMap fun (key, property) => (styles.lookup key).map (property, ·)

/-- The declarations of other styles, in the order of their keys. -/
def otherDeclarations (styles : List (String × String)) : List (String × String) :=
  ((styles.filter fun style => style.1 ∉ Style.keys).mergeSort fun a b => decide (a.1 ≤ b.1)).map
    fun style => (cssProperty style.1, style.2)

/-- The properties and values that are declared for styles. -/
def declarations (styles : OrderedMap String String) : List (String × String) :=
  let styles := declarable styles
  knownDeclarations styles ++ otherDeclarations styles

end DesignMarkup.Markup
