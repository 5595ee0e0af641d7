import DesignMarkup.Markup.Code
import DesignMarkup.Proofs.Markup.Reader

/-!
Generated markup is read back to the elements that it was generated for.  No text of a node, be it
a tag, a name, an attribute or a content, can pass for markup of another shape.
-/

namespace DesignMarkup

open HtmlElement (ListWellFormed charsOfList)

namespace StyledNode

mutual

/-- The elements that a node is written as. -/
def rendered : StyledNode → List HtmlElement
  | ⟨tag, name, attributes, content, _, className, children⟩ =>
      let written := writtenAttributes className attributes
      if !Markup.isTag tag then renderedList children
      else if Markup.isVoid tag then [.empty tag written]
      else if children.isEmpty then [.text tag written (ownText content name)]
      else [.parent tag written (renderedList children)]

def renderedList : List StyledNode → List HtmlElement
  | [] => []
  | node :: rest => node.rendered ++ renderedList rest

end

theorem isAttributeName_of_mem_written {className : Option String} {attributes : Properties}
    {entry : String × String} (h : entry ∈ writtenAttributes className attributes) :
    Markup.isAttributeName entry.1 = true := by
  cases className with
  | none => exact (List.mem_filter.mp h).2
  | some c =>
      rcases List.mem_cons.mp h with rfl | hother
      · show Markup.isAttributeName "class" = true
        decide
      · have hkept := (List.mem_filter.mp hother).2
        rw [Bool.and_eq_true] at hkept
        exact hkept.2

theorem isOpening_written {tag : String} (htag : Markup.isTag tag = true)
    (className : Option String) (attributes : Properties) :
    HtmlElement.IsOpening tag (writtenAttributes className attributes) := by
  constructor
  · exact htag
  · intro entry hentry
    exact isAttributeName_of_mem_written hentry

theorem stops_ownText (content : Option String) (name : String) :
    Text.Stops Text.isBlank (ownText content name).toList :=
  Text.stops_trim _

end StyledNode

namespace HtmlElement

theorem listWellFormed_append {left right : List HtmlElement} (hleft : ListWellFormed left)
    (hright : ListWellFormed right) : ListWellFormed (left ++ right) := by
  induction left with
  | nil => exact hright
  | cons element rest ih => exact ⟨hleft.1, ih hleft.2⟩

theorem charsOfList_append (level : Nat) (left right : List HtmlElement) :
    charsOfList level (left ++ right) = charsOfList level left ++ charsOfList level right := by
  induction left with
  | nil => rfl
  | cons element rest ih => simp [charsOfList, ih]

end HtmlElement

namespace StyledNode

mutual

theorem wellFormed_rendered (node : StyledNode) : ListWellFormed node.rendered := by
  match node with
  | ⟨tag, name, attributes, content, _, className, children⟩ =>
      have hchildren := wellFormed_renderedList children
      rw [rendered]
      cases htag : Markup.isTag tag with
      | false => exact hchildren
      | true =>
          have hopening := isOpening_written htag className attributes
          cases hvoid : Markup.isVoid tag with
          | true => exact ⟨⟨hopening, hvoid⟩, trivial⟩
          | false =>
              cases hempty : children.isEmpty with
              | true => exact ⟨⟨hopening, hvoid, stops_ownText content name⟩, trivial⟩
              | false => exact ⟨⟨hopening, hvoid, hchildren⟩, trivial⟩

theorem wellFormed_renderedList (nodes : List StyledNode) :
    ListWellFormed (renderedList nodes) := by
  match nodes with
  | [] => trivial
  | node :: rest =>
      exact HtmlElement.listWellFormed_append (wellFormed_rendered node)
        (wellFormed_renderedList rest)

end

mutual

/-- The lines of a node are its elements, each with a line break and space before it. -/
theorem flatMap_lines (level : Nat) (node : StyledNode) :
    (node.lines level).flatMap ('\n' :: ·) = charsOfList level node.rendered := by
  match node with
  | ⟨tag, name, attributes, content, _, className, children⟩ =>
      rw [lines, rendered]
      cases htag : Markup.isTag tag with
      | false => exact flatMap_linesOfList level children
      | true =>
          cases hvoid : Markup.isVoid tag with
          | true => simp [charsOfList, HtmlElement.chars, HtmlElement.opening, openTag]
          | false =>
              cases hempty : children.isEmpty with
              | true => simp [charsOfList, HtmlElement.chars, HtmlElement.opening, openTag]
              | false =>
                  have hchildren := flatMap_linesOfList (level + 1) children
                  simp [charsOfList, HtmlElement.chars, HtmlElement.opening, openTag, hchildren]

theorem flatMap_linesOfList (level : Nat) (nodes : List StyledNode) :
    (linesOfList level nodes).flatMap ('\n' :: ·) = charsOfList level (renderedList nodes) := by
  match nodes with
  | [] => rfl
  | node :: rest =>
      rw [linesOfList, List.flatMap_append, flatMap_lines level node,
        flatMap_linesOfList level rest, renderedList, HtmlElement.charsOfList_append]

end

end StyledNode

/-- Lines with line breaks between them are lines with a line break before each, up to the first
one. -/
theorem cons_intercalate_eq_flatMap {lines : List (List Char)} (h : lines ≠ []) :
    '\n' :: List.intercalate ['\n'] lines = lines.flatMap ('\n' :: ·) := by
  induction lines with
  | nil => exact absurd rfl h
  | cons line rest ih =>
      by_cases hrest : rest = []
      · simp [hrest]
      · rw [List.intercalate_cons_of_ne_nil hrest, List.flatMap_cons, ← ih hrest]
        simp

namespace HtmlElement

theorem readElements_lineBreak (fuel : Nat) (cs : List Char) :
    readElements fuel ('\n' :: cs) = readElements fuel cs := by
  have hskip : skipLayout ('\n' :: cs) = skipLayout cs := List.dropWhile_cons_of_pos (by decide)
  cases fuel with
  | zero => rfl
  | succ fuel => rw [readElements, readElements, hskip]

/-- Well-formed elements are read from the text that they are written as, with or without the line
break at its front. -/
theorem readElements_lines {lines : List (List Char)} {elements : List HtmlElement}
    (hlines : lines.flatMap ('\n' :: ·) = charsOfList 0 elements) (h : ListWellFormed elements) :
    readElements ((List.intercalate ['\n'] lines).length + 2) (List.intercalate ['\n'] lines) =
      some (elements, []) := by
  by_cases hempty : lines = []
  · cases elements with
    | nil => simp [hempty, readElements, skipLayout, isOver]
    | cons element rest => simp [hempty, charsOfList] at hlines
  · have hwritten := (cons_intercalate_eq_flatMap hempty).trans hlines
    rw [← readElements_lineBreak, hwritten]
    have hfuel : (charsOfList 0 elements).length < (List.intercalate ['\n'] lines).length + 2 := by
      rw [← hwritten]
      exact Nat.lt_succ_self _
    have hread := readElements_chars h 0 hfuel (show isOver (skipLayout []) = true from rfl)
    rw [List.append_nil] at hread
    exact hread

end HtmlElement

/-- The markup of nodes with classes is read back to the elements that they are written as. -/
theorem StyledNode.read?_html (nodes : List StyledNode) :
    HtmlElement.read? (StyledNode.html nodes) = some (StyledNode.renderedList nodes) := by
  have hread := HtmlElement.readElements_lines (StyledNode.flatMap_linesOfList 0 nodes)
    (StyledNode.wellFormed_renderedList nodes)
  rw [HtmlElement.read?, StyledNode.html, String.toList_ofList, hread]

/-- Escaped text is no markup. -/
example : HtmlElement.read? "<p title=\"a &gt; b\">&lt;b&gt;</p>" =
    some [.text "p" [("title", "a > b")] "<b>"] := by
  rfl

end DesignMarkup
