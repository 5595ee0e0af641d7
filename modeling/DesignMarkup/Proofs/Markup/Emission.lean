import DesignMarkup.Proofs.Markup.Classes

/-!
What nodes come to in the code, told apart from the nodes around them: the places of those that are
written, each with its class, and the elements of the markup.  Only the classes taken before matter,
and nodes pass on to those behind them no more than the classes taken after.
-/

namespace DesignMarkup

/-- A place with its node changed. -/
def Place.mapNode (change : MarkupNode → MarkupNode) (place : Place) : Place :=
  { place with node := change place.node }

theorem Place.rule?_mapNode {change : MarkupNode → MarkupNode}
    (h : ∀ node, (change node).styles = node.styles) (place : Place) :
    (place.mapNode change).rule? = place.rule? := by
  simp only [rule?, mapNode, h]

/-- What nodes come to: the classes taken after them, the places of those that are written and the
elements that they are written as. -/
structure Emission where
  taken : List String
  places : List Place
  elements : List HtmlElement

namespace Emission

/-- What nodes come to that follow others. -/
def append (left right : Emission) : Emission :=
  ⟨right.taken, left.places ++ right.places, left.elements ++ right.elements⟩

/-- What nodes come to, told of changed nodes. -/
def mapNode (change : MarkupNode → MarkupNode) (emission : Emission) : Emission :=
  { emission with places := emission.places.map (Place.mapNode change) }

theorem append_mapNode (change : MarkupNode → MarkupNode) (left right : Emission) :
    (left.append right).mapNode change = (left.mapNode change).append (right.mapNode change) := by
  simp only [append, mapNode, List.map_append]

/-- The style sheet for what nodes come to. -/
def css (emission : Emission) : String :=
  StyleRule.sheet (emission.places.filterMap Place.rule?)

/-- A change that keeps the styles of nodes keeps the style sheet. -/
theorem css_mapNode {change : MarkupNode → MarkupNode}
    (h : ∀ node, (change node).styles = node.styles) (emission : Emission) :
    (emission.mapNode change).css = emission.css := by
  simp only [css, mapNode, List.filterMap_map]
  apply congrArg StyleRule.sheet
  apply List.filterMap_congr
  intro place _
  exact Place.rule?_mapNode h place

end Emission

namespace StyledNode

theorem preorderList_append (left right : List StyledNode) :
    preorderList (left ++ right) = preorderList left ++ preorderList right := by
  induction left with
  | nil => rfl
  | cons node rest ih => simp [preorderList, ih]

theorem renderedList_append (left right : List StyledNode) :
    renderedList (left ++ right) = renderedList left ++ renderedList right := by
  induction left with
  | nil => rfl
  | cons node rest ih => simp [renderedList, ih]

theorem assignList_append (taken : List String) (left right : List MarkupNode) :
    assignList taken (left ++ right) =
      ((assignList (assignList taken left).1 right).1,
        (assignList taken left).2 ++ (assignList (assignList taken left).1 right).2) := by
  induction left generalizing taken with
  | nil => rfl
  | cons node rest ih =>
      rw [List.cons_append, assignList_cons, ih]
      rfl

theorem isEmpty_assignList (taken : List String) (nodes : List MarkupNode) :
    (assignList taken nodes).2.isEmpty = nodes.isEmpty := by
  cases nodes <;> rfl

section OfParts

variable {tag name : String} {attributes : Properties} {styles : OrderedMap String String}
  {content className : Option String} {children : List StyledNode}

theorem className_ofParts :
    (ofParts tag name attributes styles content className children).className = className :=
  rfl

theorem rendered_ofParts_of_tag (htag : Markup.isTag tag = true)
    (hvoid : Markup.isVoid tag = false) :
    (ofParts tag name attributes styles content className children).rendered =
      [if children.isEmpty then
        .text tag (writtenAttributes className attributes) (ownText content name)
      else .parent tag (writtenAttributes className attributes) (renderedList children)] := by
  simp only [ofParts, rendered, htag, hvoid, Bool.not_true, Bool.false_eq_true, if_false]
  split <;> rfl

end OfParts

end StyledNode

namespace MarkupNode

open StyledNode (assign assignList takenBelow ownClass? ofParts placesBy writtenAttributes ownText)

theorem placedList_append (isOpen : Bool) (left right : List MarkupNode) :
    placedList isOpen (left ++ right) = placedList isOpen left ++ placedList isOpen right := by
  induction left with
  | nil => rfl
  | cons node rest ih => simp [placedList, ih]

/-- What nodes come to once some classes are taken. -/
def emission (taken : List String) (nodes : List MarkupNode) : Emission where
  taken := (assignList taken nodes).1
  places := (placesBy (placedList true nodes)
    (StyledNode.preorderList (assignList taken nodes).2)).filter Place.isWritten
  elements := StyledNode.renderedList (assignList taken nodes).2

theorem places_emission (nodes : List MarkupNode) :
    (emission [] nodes).places = writtenPlaces nodes :=
  rfl

theorem emission_nil (taken : List String) : emission taken [] = ⟨taken, [], []⟩ :=
  rfl

theorem emission_append (taken : List String) (left right : List MarkupNode) :
    emission taken (left ++ right) =
      (emission taken left).append (emission (emission taken left).taken right) := by
  have hlength := (StyledNode.standsFor_assignList taken left).length_eq.symm
  simp only [emission, Emission.append, StyledNode.assignList_append, placedList_append,
    StyledNode.preorderList_append, StyledNode.renderedList_append,
    StyledNode.placesBy_append hlength, List.filter_append]

theorem emission_cons (taken : List String) (node : MarkupNode) (rest : List MarkupNode) :
    emission taken (node :: rest) =
      (emission taken [node]).append (emission (emission taken [node]).taken rest) :=
  emission_append taken [node] rest

section Node

variable (taken : List String) {tag : String} (name : String) (attributes : Properties)
  (styles : OrderedMap String String) (content : Option String) (children : List MarkupNode)

/-- A node whose tag is none comes to what lies below it. -/
theorem emission_of_not_tag (h : Markup.isTag tag = false) :
    emission taken [⟨tag, name, attributes, styles, content, children⟩] =
      emission taken children := by
  have hvoid : Markup.isVoid tag = false := by
    by_contra hvoid
    rw [Markup.isTag_of_isVoid (by simpa using hvoid)] at h
    cases h
  have hown : ownClass? tag name styles taken = none := by
    simp [ownClass?, StyledNode.classFor?, h]
  have hbelow : takenBelow tag name styles taken = taken := by
    rw [takenBelow, hown]
    rfl
  simp [emission, StyledNode.assignList, StyledNode.assign_of_not_void _ _ _ _ _ _ hvoid, hown,
    hbelow, placedList, placed, h, hvoid, StyledNode.preorderList, StyledNode.preorder_ofParts,
    StyledNode.placesBy_cons, Place.ofClass, StyledNode.renderedList,
    StyledNode.rendered_ofParts_of_not_tag h]

/-- A void element comes to itself, whatever lies below it. -/
theorem emission_of_void (h : Markup.isVoid tag = true) :
    emission taken [⟨tag, name, attributes, styles, content, children⟩] =
      { taken := takenBelow tag name styles taken
        places := [⟨⟨tag, name, attributes, styles, content, children⟩, true,
          ownClass? tag name styles taken⟩]
        elements := [.empty tag
          (writtenAttributes (ownClass? tag name styles taken) attributes)] } := by
  have htag := Markup.isTag_of_isVoid h
  have hbelow : (placesBy (placedList false children)
      (StyledNode.preorderList (StyledNode.plainList children))).filter Place.isWritten = [] :=
    StyledNode.filter_placesBy_of_not_written (not_written_placedList children)
  simp [emission, StyledNode.assignList, StyledNode.assign_of_void _ _ _ _ _ _ h, placedList,
    placed, h, htag, StyledNode.preorderList, StyledNode.preorder_ofParts,
    StyledNode.placesBy_cons, Place.ofClass, StyledNode.renderedList,
    StyledNode.rendered_ofParts_of_void htag h, StyledNode.className_ofParts, hbelow]

/-- Any other element comes to itself around what lies below it, or to its text if it has no
children. -/
theorem emission_of_tag (htag : Markup.isTag tag = true) (hvoid : Markup.isVoid tag = false) :
    let below := emission (takenBelow tag name styles taken) children
    let written := writtenAttributes (ownClass? tag name styles taken) attributes
    emission taken [⟨tag, name, attributes, styles, content, children⟩] =
      { taken := below.taken
        places := ⟨⟨tag, name, attributes, styles, content, children⟩, true,
          ownClass? tag name styles taken⟩ :: below.places
        elements := [if children.isEmpty then .text tag written (ownText content name)
          else .parent tag written below.elements] } := by
  simp [emission, StyledNode.assignList, StyledNode.assign_of_not_void _ _ _ _ _ _ hvoid,
    StyledNode.rendered_ofParts_of_tag htag hvoid, StyledNode.isEmpty_assignList, placedList,
    placed, htag, hvoid, StyledNode.preorderList, StyledNode.preorder_ofParts,
    StyledNode.placesBy_cons, StyledNode.className_ofParts, Place.ofClass, StyledNode.renderedList]

end Node

end MarkupNode

namespace GeneratedCode

open MarkupNode (emission)

variable (nodes : List MarkupNode)

theorem css_ofNodes : (ofNodes nodes).css = (emission [] nodes).css := by
  have hrules := MarkupNode.filterMap_rule?_writtenPlaces nodes
  simp only [Emission.css, MarkupNode.places_emission, hrules]
  rfl

theorem html_ofNodes : (ofNodes nodes).html =
    String.ofList ((HtmlElement.charsOfList 0 (emission [] nodes).elements).drop 1) := by
  have hlines := StyledNode.flatMap_linesOfList 0 (StyledNode.ofNodes nodes)
  apply congrArg String.ofList
  by_cases hempty : StyledNode.linesOfList 0 (StyledNode.ofNodes nodes) = []
  · rw [hempty] at hlines ⊢
    exact congrArg (List.drop 1) hlines
  · have hbroken := (cons_intercalate_eq_flatMap hempty).trans hlines
    exact congrArg (List.drop 1) hbroken

/-- Nodes have the same code exactly if they come to the same elements and the same style sheet:
the elements can be read from the markup. -/
theorem ofNodes_eq_iff (nodes nodes' : List MarkupNode) :
    ofNodes nodes = ofNodes nodes' ↔
      (emission [] nodes).elements = (emission [] nodes').elements ∧
        (emission [] nodes).css = (emission [] nodes').css := by
  constructor
  · intro h
    have hread := congrArg (fun code => HtmlElement.read? code.html) h
    simp only [ofNodes, StyledNode.read?_html, Option.some_inj] at hread
    exact ⟨hread, by rw [← css_ofNodes, ← css_ofNodes, h]⟩
  · rintro ⟨helements, hcss⟩
    have hhtml : (ofNodes nodes).html = (ofNodes nodes').html := by
      rw [html_ofNodes, html_ofNodes, helements]
    rw [← css_ofNodes, ← css_ofNodes] at hcss
    exact congrArg₂ GeneratedCode.mk hhtml hcss

end GeneratedCode

end DesignMarkup
