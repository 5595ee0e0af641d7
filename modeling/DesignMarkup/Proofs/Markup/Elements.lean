import DesignMarkup.Proofs.Markup.Emission
import DesignMarkup.Proofs.Markup.FirstFree

/-!
The elements that nodes stand for, told of the nodes alone: which nodes have one, which class it is
given, which other attributes it shows and in which order, and what is in it.  The markup of any
nodes is read back as these elements, so no text in a node can pass for markup.
-/

namespace DesignMarkup

namespace MarkupNode

/-- The text that is shown for a node without children: its content, or its name if the content says
nothing, without blanks around it. -/
def shownText (content : Option String) (name : String) : String :=
  match content with
  | some text => if Text.trim text = "" then Text.trim name else Text.trim text
  | none => Text.trim name

/-- The value of a class attribute: the class that is given, and behind it those that are asked for,
without blanks around them. -/
def mergedClass (given : String) (asked : Option String) : String :=
  " ".intercalate (given :: (asked.toList.map Text.trim).filter (· ≠ ""))

/-- The attributes that an element shows: the class that is given first, with those that the node
asks for, then the others in the order in which the node has them.  What has no fitting name is left
out. -/
def shownAttributes (given : Option String) (attributes : Properties) : List (String × String) :=
  let named := attributes.entries.filter (Markup.FitsAttributeName ·.1)
  match given with
  | some className =>
      ("class", mergedClass className (attributes.find? "class")) :: named.filter (·.1 ≠ "class")
  | none => named

/-- The classes that a node can be given, in the order in which they are tried: the slug of its name,
or else of its tag, and then the same with a number. -/
def classCandidates (tag name : String) (numbers : Nat) : List String :=
  let base := ([Text.slug name, Text.slug tag].find? (· ≠ "")).getD "element"
  base :: (List.range' 2 numbers).map fun n => base ++ "-" ++ toString n

/-- The class that is given to a node with a fitting tag, if it declares something: the first one
that is not taken. -/
def givenClass? (taken : List String) (tag name : String) (styles : OrderedMap String String) :
    Option String :=
  if Markup.declarations styles = [] then none
  else (classCandidates tag name taken.length).find? (· ∉ taken)

mutual

/-- The elements that a node stands for once some classes are taken, and the classes that are taken
after it. -/
def elementsFrom (taken : List String) : MarkupNode → List String × List HtmlElement
  | ⟨tag, name, attributes, styles, content, children⟩ =>
      if Markup.FitsTag tag then
        let given := givenClass? taken tag name styles
        let shown := shownAttributes given attributes
        let taken := given.toList ++ taken
        if tag ∈ Markup.voidTags then (taken, [.empty tag shown])
        else if children.isEmpty then (taken, [.text tag shown (shownText content name)])
        else
          let (taken, below) := elementsOfListFrom taken children
          (taken, [.parent tag shown below])
      else elementsOfListFrom taken children

def elementsOfListFrom (taken : List String) : List MarkupNode → List String × List HtmlElement
  | [] => (taken, [])
  | node :: rest =>
      let (taken, elements) := node.elementsFrom taken
      let (taken, others) := elementsOfListFrom taken rest
      (taken, elements ++ others)

end

/-- The elements that nodes stand for. -/
def elements (nodes : List MarkupNode) : List HtmlElement :=
  (elementsOfListFrom [] nodes).2

theorem shownText_eq (content : Option String) (name : String) :
    shownText content name = StyledNode.ownText content name := by
  cases content with
  | none => rfl
  | some text =>
      rw [shownText, StyledNode.ownText]
      by_cases hblank : Text.trim text = ""
      · rw [if_pos hblank, Option.filter_some, (Text.isBlankText_iff_trim_eq_empty text).mpr hblank]
        rfl
      · have hshown : Text.isBlankText text = false := by
          rwa [← Bool.not_eq_true, Text.isBlankText_iff_trim_eq_empty]
        rw [if_neg hblank, Option.filter_some, hshown]
        rfl

theorem mergedClass_eq (given : String) (attributes : Properties) :
    mergedClass given (attributes.find? "class") = StyledNode.classValue given attributes := by
  rw [mergedClass, StyledNode.classValue]
  cases attributes.find? "class" with
  | none => rfl
  | some asked =>
      by_cases hasked : Text.trim asked = "" <;> simp [hasked]

theorem shownAttributes_eq (given : Option String) (attributes : Properties) :
    shownAttributes given attributes = StyledNode.writtenAttributes given attributes := by
  have hnamed : attributes.entries.filter (Markup.FitsAttributeName ·.1) =
      attributes.entries.filter fun entry => Markup.isAttributeName entry.1 := by
    apply List.filter_congr
    intro entry _
    rw [Bool.eq_iff_iff, decide_eq_true_iff, Markup.isAttributeName_iff]
  cases given with
  | none => exact hnamed
  | some className =>
      simp only [shownAttributes, StyledNode.writtenAttributes, hnamed, mergedClass_eq,
        List.filter_filter]

theorem classCandidates_eq (tag name : String) (numbers : Nat) :
    classCandidates tag name numbers =
      StyledNode.baseName name tag ::
        (List.range' 2 numbers).map (StyledNode.numbered (StyledNode.baseName name tag)) := by
  have hbase : ([Text.slug name, Text.slug tag].find? (· ≠ "")).getD "element" =
      StyledNode.baseName name tag := by
    rw [StyledNode.baseName]
    by_cases hname : Text.slug name = ""
    · by_cases htag : Text.slug tag = "" <;> simp [hname, htag]
    · simp [hname]
  rw [classCandidates, hbase, funext (StyledNode.numbered_eq (StyledNode.baseName name tag))]

/-- The first candidate that is free is the name that is settled on: there are more candidates than
names that are taken. -/
theorem find?_classCandidates (taken : List String) (tag name : String) :
    (classCandidates tag name taken.length).find? (· ∉ taken) =
      some (StyledNode.uniqueName (StyledNode.baseName name tag) taken) := by
  rw [classCandidates_eq]
  by_cases hbase : StyledNode.baseName name tag ∈ taken
  · obtain ⟨n, hle, hname, hfree, htaken⟩ := StyledNode.exists_uniqueName_eq hbase
    have hcount := StyledNode.le_length_of_taken hbase htaken
    have hdedup := (List.dedup_sublist taken).length_le
    have hfind : (List.range' 2 taken.length).find?
        (fun i => decide (StyledNode.numbered (StyledNode.baseName name tag) i ∉ taken)) =
          some n := by
      rw [List.find?_range'_eq_some, List.mem_range'_1]
      refine ⟨decide_eq_true hfree, ⟨hle, by omega⟩, fun i hi hlt => ?_⟩
      simpa using htaken i hi hlt
    rw [List.find?_cons_of_neg (by simpa using hbase), List.find?_map, hname]
    exact congrArg (Option.map _) hfind
  · rw [List.find?_cons_of_pos (by simpa using hbase), StyledNode.uniqueName, if_neg hbase]

theorem givenClass?_eq {tag : String} (htag : Markup.isTag tag = true) (taken : List String)
    (name : String) (styles : OrderedMap String String) :
    givenClass? taken tag name styles = StyledNode.ownClass? tag name styles taken := by
  rw [givenClass?, find?_classCandidates, StyledNode.ownClass?, StyledNode.classFor?, htag]
  by_cases hnone : Markup.declarations styles = [] <;> simp [hnone]

-- The classes taken so far go through both walks, so the induction is over any of them.
mutual

/-- A node stands for the elements that it comes to, and takes the same classes. -/
theorem elementsFrom_eq (taken : List String) (node : MarkupNode) :
    node.elementsFrom taken =
      ((emission taken [node]).taken, (emission taken [node]).elements) := by
  match node with
  | ⟨tag, name, attributes, styles, content, children⟩ =>
      rw [elementsFrom]
      cases htag : Markup.isTag tag with
      | false =>
          have hfits : ¬ Markup.FitsTag tag := by
            rw [← Markup.isTag_iff, htag]
            exact Bool.false_ne_true
          rw [if_neg hfits, emission_of_not_tag taken name attributes styles content children htag]
          exact elementsOfListFrom_eq taken children
      | true =>
          rw [if_pos ((Markup.isTag_iff tag).mp htag)]
          simp only [givenClass?_eq htag, shownAttributes_eq, shownText_eq]
          cases hvoid : Markup.isVoid tag with
          | true =>
              rw [if_pos (of_decide_eq_true hvoid),
                emission_of_void taken name attributes styles content children hvoid]
              rfl
          | false =>
              rw [if_neg (of_decide_eq_false hvoid),
                emission_of_tag taken name attributes styles content children htag hvoid]
              have hbelow := elementsOfListFrom_eq
                (StyledNode.takenBelow tag name styles taken) children
              cases children with
              | nil => rfl
              | cons child rest =>
                  rw [← StyledNode.takenBelow, hbelow]
                  rfl

theorem elementsOfListFrom_eq (taken : List String) (nodes : List MarkupNode) :
    elementsOfListFrom taken nodes =
      ((emission taken nodes).taken, (emission taken nodes).elements) := by
  match nodes with
  | [] => rfl
  | node :: rest =>
      rw [elementsOfListFrom, elementsFrom_eq taken node, emission_cons taken node rest]
      simp only [elementsOfListFrom_eq _ rest]
      rfl

end

end MarkupNode

namespace GeneratedCode

/-- The markup of nodes is read back as the elements that they stand for, whatever they hold. -/
theorem elements_read_back (nodes : List MarkupNode) :
    HtmlElement.read? (ofNodes nodes).html = some (MarkupNode.elements nodes) := by
  rw [ofNodes, StyledNode.read?_html, MarkupNode.elements, MarkupNode.elementsOfListFrom_eq]
  rfl

/-- A card that asks for a class and has a title that tries to end its opening, around a node that
has no tag; what lies below that one tries to be markup. -/
def hostileNodes : List MarkupNode :=
  [{ tag := "div", elementName := "Card", styles := .ofList [("color", "red")]
     attributes := .ofList [("title", "\"><p>"), ("on click", "go()"), ("class", " wide ")]
     children :=
      [{ tag := "", elementName := "Group", content := some "lost"
         children :=
          [{ tag := "p", elementName := "Note", content := some " </p><b> " },
            { tag := "i", elementName := "&" }] },
        { tag := "br", elementName := "Break", content := some "lost" }] }]

example : HtmlElement.openingsOfList (MarkupNode.elements hostileNodes) =
    [("div", [("class", "card wide"), ("title", "\"><p>")]), ("p", []), ("i", []), ("br", [])] := by
  decide +kernel

end GeneratedCode
end DesignMarkup
