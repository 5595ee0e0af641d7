import DesignMarkup.Proofs.Markup.Cursor
import DesignMarkup.Proofs.Markup.StyleSheet
import DesignMarkup.Proofs.Text.Words

/-!
Markup and style sheet agree on the classes that are given to nodes.  Whether a rule then selects no
element but its own depends on the classes that nodes ask for themselves: it does unless a written
node asks for a class that is given to another one.
-/

namespace DesignMarkup

open MarkupNode (places writtenPlaces)

namespace HtmlElement

/-- The classes in the opening of an element: the words of its class attribute. -/
def classWords (opening : String × List (String × String)) : List String :=
  Text.words ((OrderedMap.lookup "class" opening.2).getD "")

end HtmlElement

namespace Place

/-- The classes that a node asks for itself. -/
def ownWords (place : Place) : List String :=
  Text.words ((place.node.attributes.find? "class").getD "")

end Place

namespace StyledNode

theorem words_className {className : String} (h : IsClassName className) :
    Text.words className = [className] := by
  apply Text.words_of_not_blank h.ne_empty
  intro c hc
  exact Text.isBlank_of_isSlugText (h.isSlugText c hc)

theorem words_classValue {className : String} (h : IsClassName className)
    (attributes : Properties) :
    Text.words (classValue className attributes) =
      className :: Text.words ((attributes.find? "class").getD "") := by
  rw [← Text.words_trim ((attributes.find? "class").getD ""), classValue]
  by_cases hown : Text.trim ((attributes.find? "class").getD "") = ""
  · rw [if_pos hown, hown, words_className h]
    rfl
  · rw [if_neg hown, Text.words_append_space, words_className h, List.singleton_append]

end StyledNode

namespace Place

/-- A written element has the class that is given to its node and those that the node asks for. -/
theorem classWords_opening {place : Place}
    (h : ∀ className, place.className = some className → StyledNode.IsClassName className) :
    HtmlElement.classWords place.opening = place.className.toList ++ place.ownWords := by
  rw [HtmlElement.classWords, opening]
  cases hclass : place.className with
  | some className =>
      rw [StyledNode.writtenAttributes, OrderedMap.lookup, if_pos rfl, Option.getD_some,
        StyledNode.words_classValue (h className hclass)]
      rfl
  | none =>
      have hlookup := OrderedMap.lookup_filter Markup.isAttributeName "class"
        place.node.attributes.entries
      rw [if_pos (by decide)] at hlookup
      rw [StyledNode.writtenAttributes, hlookup]
      rfl

end Place

theorem MarkupNode.isClassName_writtenPlaces {nodes : List MarkupNode} {place : Place}
    (hplace : place ∈ writtenPlaces nodes) (className : String)
    (h : place.className = some className) : StyledNode.IsClassName className :=
  isClassName_places nodes place (List.mem_of_mem_filter hplace) className h

namespace GeneratedCode

/-- What markup and style sheet have in common, told by the places of nodes. -/
structure ClassesAgree (nodes : List MarkupNode) : Prop where
  /-- Every node has one place, parents first. -/
  map_node : (places nodes).map Place.node = MarkupNode.preorderList nodes
  /-- A node has a class exactly if it is written and declares something. -/
  isSome_className : ∀ place ∈ places nodes,
    (place.className.isSome = true ↔
      place.isWritten = true ∧ Markup.declarations place.node.styles ≠ [])
  /-- The markup has one element for each written node. -/
  elements : (HtmlElement.read? (ofNodes nodes).html).map HtmlElement.openingsOfList =
    some ((writtenPlaces nodes).map Place.opening)
  /-- The element has the class that is given to its node, before those that the node asks for. -/
  classWords : ∀ place ∈ writtenPlaces nodes,
    HtmlElement.classWords place.opening = place.className.toList ++ place.ownWords
  /-- The style sheet is read as one rule for each class, with what the node of that class declares.
  -/
  rules : StyleRule.read? (ofNodes nodes).css =
    some ((writtenPlaces nodes).filterMap Place.rule?)
  /-- The rules are for the classes of the written nodes, in the order of the markup. -/
  selectors : ((writtenPlaces nodes).filterMap Place.rule?).map StyleRule.className =
    (writtenPlaces nodes).filterMap Place.className
  /-- No class is given twice. -/
  nodup : ((writtenPlaces nodes).filterMap Place.className).Nodup
  /-- Walks that look the classes up by position write the same markup and style sheet. -/
  byPosition_eq : byPosition nodes = ofNodes nodes

/-- Markup and style sheet of any nodes agree on their classes. -/
theorem classesAgree (nodes : List MarkupNode) : ClassesAgree nodes := by
  constructor
  case map_node => exact MarkupNode.map_node_places nodes
  case isSome_className => exact MarkupNode.isSome_className_places nodes
  case elements => exact openings_html nodes
  case classWords =>
    intro place hplace
    exact Place.classWords_opening (MarkupNode.isClassName_writtenPlaces hplace)
  case rules => rw [read?_css, MarkupNode.rules_eq_writtenPlaces]
  case selectors => exact Place.map_className_filterMap_rule? (writtenPlaces nodes)
  case nodup => exact MarkupNode.nodup_filterMap_className_writtenPlaces nodes
  case byPosition_eq => exact byPosition_eq nodes

end GeneratedCode

namespace Place

/-- A written place has a class that is given to its node or that the node asks for. -/
def Has (className : String) (place : Place) : Prop :=
  place.className = some className ∨ className ∈ place.ownWords

instance (className : String) : DecidablePred (Has className) :=
  fun _ => inferInstanceAs (Decidable (_ ∨ _))

theorem mem_classWords_opening {place : Place} {className : String}
    (h : ∀ given, place.className = some given → StyledNode.IsClassName given) :
    className ∈ HtmlElement.classWords place.opening ↔ place.Has className := by
  rw [classWords_opening h, List.mem_append, Option.mem_toList]
  rfl

/-- Where no class is given twice, one place alone has it exactly if no other asks for it. -/
theorem filter_has_eq_iff {places : List Place} (h : (places.filterMap className).Nodup)
    {place : Place} (hplace : place ∈ places) {name : String}
    (hname : place.className = some name) :
    places.filter (Has name) = [place] ↔
      ∀ other ∈ places, name ∈ other.ownWords → other.className = some name := by
  constructor
  · intro hfilter other hother hown
    have hmem : other ∈ places.filter (Has name) :=
      List.mem_filter.mpr ⟨hother, decide_eq_true (Or.inr hown)⟩
    rw [hfilter, List.mem_singleton] at hmem
    rw [hmem]
    exact hname
  · intro hforeign
    rw [← filter_className_eq h hplace hname]
    apply List.filter_congr
    intro other hother
    apply decide_eq_decide.mpr
    constructor
    · rintro (hgiven | hown)
      · exact hgiven
      · exact hforeign other hother hown
    · exact Or.inl

end Place

namespace GeneratedCode

/-- Every rule selects one element of the markup, that of the node it was generated for. -/
def SelectsOwn (nodes : List MarkupNode) : Prop :=
  ∃ elements, HtmlElement.read? (ofNodes nodes).html = some elements ∧
    ∀ rule ∈ StyledNode.rules (StyledNode.ofNodes nodes), ∃ place ∈ writtenPlaces nodes,
      place.rule? = some rule ∧
        (HtmlElement.openingsOfList elements).filter (rule.className ∈ HtmlElement.classWords ·) =
          [place.opening]

/-- The elements that a class selects are those of the written nodes that have it. -/
theorem filter_openings (nodes : List MarkupNode) (className : String) :
    ((writtenPlaces nodes).map Place.opening).filter (className ∈ HtmlElement.classWords ·) =
      ((writtenPlaces nodes).filter (Place.Has className)).map Place.opening := by
  rw [List.filter_map]
  apply congrArg (List.map Place.opening)
  apply List.filter_congr
  intro place hplace
  apply decide_eq_decide.mpr
  exact Place.mem_classWords_opening (MarkupNode.isClassName_writtenPlaces hplace)

/-- Rules select no element but their own exactly if no written node asks for a class that is given
to another one. -/
theorem selectsOwn_iff (nodes : List MarkupNode) :
    SelectsOwn nodes ↔
      ∀ place ∈ writtenPlaces nodes, ∀ className, place.className = some className →
        ∀ other ∈ writtenPlaces nodes, className ∈ other.ownWords →
          other.className = some className := by
  have hnodup := MarkupNode.nodup_filterMap_className_writtenPlaces nodes
  have hopenings := openings_html nodes
  constructor
  · rintro ⟨elements, hread, hselects⟩ place hplace className hclass
    rw [hread, Option.map_some, Option.some.injEq] at hopenings
    have hrule : (⟨className, Markup.declarations place.node.styles⟩ : StyleRule) ∈
        StyledNode.rules (StyledNode.ofNodes nodes) := by
      rw [← MarkupNode.filterMap_rule?_writtenPlaces]
      exact List.mem_filterMap.mpr ⟨place, hplace, by rw [Place.rule?, hclass, Option.map_some]⟩
    obtain ⟨selected, -, -, hfilter⟩ := hselects _ hrule
    rw [hopenings, filter_openings] at hfilter
    have hlength := congrArg List.length hfilter
    rw [List.length_map] at hlength
    obtain ⟨single, hsingle⟩ := List.length_eq_one_iff.mp hlength
    have hmem : place ∈ (writtenPlaces nodes).filter (Place.Has className) :=
      List.mem_filter.mpr ⟨hplace, decide_eq_true (Or.inl hclass)⟩
    rw [hsingle, List.mem_singleton] at hmem
    rw [← hmem] at hsingle
    exact (Place.filter_has_eq_iff hnodup hplace hclass).mp hsingle
  · intro hforeign
    obtain ⟨elements, hread, helements⟩ := Option.map_eq_some_iff.mp hopenings
    refine ⟨elements, hread, ?_⟩
    intro rule hrule
    rw [← MarkupNode.filterMap_rule?_writtenPlaces] at hrule
    obtain ⟨place, hplace, hown⟩ := List.mem_filterMap.mp hrule
    obtain ⟨className, hclass, rfl⟩ := Option.map_eq_some_iff.mp hown
    refine ⟨place, hplace, hown, ?_⟩
    rw [helements, filter_openings,
      (Place.filter_has_eq_iff hnodup hplace hclass).mpr (hforeign place hplace className hclass)]
    rfl

/-- A styled card, and a note that asks for the class that the card is given. -/
def cardAndNote : List MarkupNode :=
  [{ tag := "div", elementName := "Card", styles := .ofList [("color", "red")] },
    { tag := "p", elementName := "Note", attributes := .ofList [("class", "card")] }]

/-- The rule for the card selects the note as well. -/
theorem not_selectsOwn_cardAndNote : ¬ SelectsOwn cardAndNote := by
  rintro ⟨elements, hread, hselects⟩
  have hopenings := openings_html cardAndNote
  rw [hread, Option.map_some, Option.some.injEq] at hopenings
  have hwritten : (writtenPlaces cardAndNote).map Place.opening =
      [("div", [("class", "card")]), ("p", [("class", "card")])] := by
    decide +kernel
  have hrule : (⟨"card", [("color", "red")]⟩ : StyleRule) ∈
      StyledNode.rules (StyledNode.ofNodes cardAndNote) := by
    decide +kernel
  obtain ⟨place, -, -, hfilter⟩ := hselects _ hrule
  have hlength := congrArg List.length hfilter
  rw [hopenings, hwritten, List.length_singleton] at hlength
  exact absurd hlength (by decide +kernel)

end GeneratedCode
end DesignMarkup
