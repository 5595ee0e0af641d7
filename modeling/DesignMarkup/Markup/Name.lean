import DesignMarkup.Text.Blank

/-!
The names that markup may contain: tags, the tags of void elements, and attribute names.
-/

namespace DesignMarkup.Markup

/-- The characters of a tag after its first one. -/
def isTagChar (c : Char) : Bool :=
  c.isAlphanum || c == '-' || c == '_' || c == '.' || c == ':'

/-- A tag is an ASCII letter, then letters, digits and a few marks. -/
def isTag (tag : String) : Bool :=
  match tag.toList with
  | [] => false
  | c :: cs => c.isAlpha && cs.all isTagChar

/-- The tags of the elements that have no content and no end. -/
def voidTags : List String :=
  ["area", "base", "br", "col", "embed", "hr", "img", "input", "link", "meta", "param", "source",
    "track", "wbr"]

/-- The element has no content and no end. -/
def isVoid (tag : String) : Bool :=
  tag ∈ voidTags

/-- The characters that end or spoil an attribute name. -/
def isAttributeBreak (c : Char) : Bool :=
  Text.isBlank c || Text.isControl c || c ∈ ['"', '\'', '<', '>', '/', '=']

/-- An attribute name that can be written. -/
def isAttributeName (name : String) : Bool :=
  !name.toList.isEmpty && !name.toList.any isAttributeBreak

theorem isTag_of_isVoid {tag : String} (h : isVoid tag = true) : isTag tag = true := by
  simp only [isVoid, decide_eq_true_eq] at h
  have hall : ∀ t ∈ voidTags, isTag t = true := by decide
  exact hall tag h

end DesignMarkup.Markup
