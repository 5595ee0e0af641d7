/-!
Slugs: names reduced to lower-case ASCII letters and digits with single hyphens between the
words.  A slug serves as a class name.
-/

namespace DesignMarkup.Text

/-- The characters that belong to the words of a slug: ASCII letters and digits. -/
def isSlugChar (c : Char) : Bool :=
  c.isAlphanum

/-- The slug of what follows a word's character.  `gap` tells that a separator was met since the
last character kept, so that a hyphen comes before the next one. -/
def slugTail : (gap : Bool) → List Char → List Char
  | _, [] => []
  | gap, c :: cs =>
      if isSlugChar c then
        (if gap then ['-', c.toLower] else [c.toLower]) ++ slugTail false cs
      else slugTail true cs

/-- The slug of a list of characters: separators before the first word leave no trace. -/
def slugChars (cs : List Char) : List Char :=
  slugTail false (cs.dropWhile (!isSlugChar ·))

/-- The words of a name, lower-cased and joined by single hyphens. -/
def slug (name : String) : String :=
  String.ofList (slugChars name.toList)

example : slug "Hero Title" = "hero-title" := by decide
example : slug "  --Card__Body!! " = "card-body" := by decide
example : slug "***" = "" := by decide

end DesignMarkup.Text
