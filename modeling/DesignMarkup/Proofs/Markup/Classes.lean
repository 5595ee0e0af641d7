import DesignMarkup.Proofs.Markup.Rendered
import DesignMarkup.Proofs.Markup.UniqueName
import Mathlib.Data.List.Forall2

/-!
The classes of nodes.  Each node stands in its place among all nodes, written or not; the elements
of the markup and the rules of the style sheet are those of the written nodes, and a class that one
of them is given is given to no other.
-/

namespace DesignMarkup

namespace HtmlElement

mutual

/-- The tags and attributes of an element and of all in it, outer ones first. -/
def openings : HtmlElement → List (String × List (String × String))
  | empty tag attributes => [(tag, attributes)]
  | text tag attributes _ => [(tag, attributes)]
  | parent tag attributes children => (tag, attributes) :: openingsOfList children

def openingsOfList : List HtmlElement → List (String × List (String × String))
  | [] => []
  | element :: rest => element.openings ++ openingsOfList rest

end

theorem openingsOfList_append (left right : List HtmlElement) :
    openingsOfList (left ++ right) = openingsOfList left ++ openingsOfList right := by
  induction left with
  | nil => rfl
  | cons element rest ih => simp [openingsOfList, ih]

end HtmlElement

namespace MarkupNode

mutual

/-- A node and all below it, parents first, each with whether it is written: its tag must be one,
and nothing void may lie above it.  `isOpen` tells that nothing void lies above the node itself. -/
def placed (isOpen : Bool) : MarkupNode → List (MarkupNode × Bool)
  | ⟨tag, name, attributes, styles, content, children⟩ =>
      (⟨tag, name, attributes, styles, content, children⟩, isOpen && Markup.isTag tag) ::
        placedList (isOpen && !Markup.isVoid tag) children

def placedList (isOpen : Bool) : List MarkupNode → List (MarkupNode × Bool)
  | [] => []
  | node :: rest => node.placed isOpen ++ placedList isOpen rest

end

mutual

theorem map_fst_placed (isOpen : Bool) (node : MarkupNode) :
    (node.placed isOpen).map Prod.fst = node.preorder := by
  match node with
  | ⟨tag, name, attributes, styles, content, children⟩ =>
      rw [placed, preorder, List.map_cons, map_fst_placedList]

theorem map_fst_placedList (isOpen : Bool) (nodes : List MarkupNode) :
    (placedList isOpen nodes).map Prod.fst = preorderList nodes := by
  match nodes with
  | [] => rfl
  | node :: rest =>
      rw [placedList, preorderList, List.map_append, map_fst_placed isOpen node,
        map_fst_placedList isOpen rest]

end

mutual

/-- Below a void element nothing is written. -/
theorem not_written_placed (node : MarkupNode) :
    ∀ place ∈ node.placed false, place.2 = false := by
  match node with
  | ⟨tag, name, attributes, styles, content, children⟩ =>
      rw [placed, List.forall_mem_cons, Bool.false_and, Bool.false_and]
      exact ⟨rfl, not_written_placedList children⟩

theorem not_written_placedList (nodes : List MarkupNode) :
    ∀ place ∈ placedList false nodes, place.2 = false := by
  match nodes with
  | [] =>
      intro place hplace
      cases hplace
  | node :: rest =>
      rw [placedList, List.forall_mem_append]
      exact ⟨not_written_placed node, not_written_placedList rest⟩

end

end MarkupNode

namespace StyledNode

section Node

variable (tag name : String) (attributes : Properties) (styles : OrderedMap String String)
  (content : Option String)

/-- A node with its class, over children that have theirs. -/
def ofParts (className : Option String) (children : List StyledNode) : StyledNode :=
  ⟨tag, name, attributes, content, Markup.declarations styles, className, children⟩

/-- The class that is given to a node itself. -/
def ownClass? (taken : List String) : Option String :=
  classFor? taken tag name (Markup.declarations styles)

/-- The classes taken once a node has its own. -/
def takenBelow (taken : List String) : List String :=
  (ownClass? tag name styles taken).toList ++ taken

variable {tag} (taken : List String) (children : List MarkupNode)

theorem assign_of_void (h : Markup.isVoid tag = true) :
    assign taken ⟨tag, name, attributes, styles, content, children⟩ =
      (takenBelow tag name styles taken,
        ofParts tag name attributes styles content (ownClass? tag name styles taken)
          (plainList children)) := by
  rw [assign, if_pos h]
  rfl

theorem assign_of_not_void (h : Markup.isVoid tag = false) :
    assign taken ⟨tag, name, attributes, styles, content, children⟩ =
      ((assignList (takenBelow tag name styles taken) children).1,
        ofParts tag name attributes styles content (ownClass? tag name styles taken)
          (assignList (takenBelow tag name styles taken) children).2) := by
  rw [assign, if_neg (Bool.eq_false_iff.mp h)]
  rfl

end Node

theorem preorder_ofParts (tag name : String) (attributes : Properties)
    (styles : OrderedMap String String) (content className : Option String)
    (children : List StyledNode) :
    (ofParts tag name attributes styles content className children).preorder =
      ofParts tag name attributes styles content className children :: preorderList children :=
  rfl

theorem assignList_cons (taken : List String) (node : MarkupNode) (rest : List MarkupNode) :
    assignList taken (node :: rest) =
      ((assignList (assign taken node).1 rest).1,
        (assign taken node).2 :: (assignList (assign taken node).1 rest).2) :=
  rfl

section Related

/-- A relation between nodes with a class and placed ones holds of each node by itself: without a
class where it is not written, and with the class that it is given where its tag alone decides. -/
structure RelatesOwn (R : StyledNode → MarkupNode × Bool → Prop) : Prop where
  unwritten : ∀ (node : MarkupNode) (children : List StyledNode),
    R (ofParts node.tag node.elementName node.attributes node.styles node.content none children)
      (node, false)
  own : ∀ (taken : List String) (node : MarkupNode) (children : List StyledNode),
    R (ofParts node.tag node.elementName node.attributes node.styles node.content
        (ownClass? node.tag node.elementName node.styles taken) children)
      (node, Markup.isTag node.tag)

variable {R : StyledNode → MarkupNode × Bool → Prop}

mutual

theorem RelatesOwn.plain (hown : RelatesOwn R) (node : MarkupNode) :
    List.Forall₂ R (plain node).preorder (node.placed false) := by
  match node with
  | ⟨tag, name, attributes, styles, content, children⟩ =>
      rw [StyledNode.plain, preorder, MarkupNode.placed, Bool.false_and, Bool.false_and]
      apply List.Forall₂.cons
      · exact hown.unwritten ⟨tag, name, attributes, styles, content, children⟩ _
      · exact hown.plainList children

theorem RelatesOwn.plainList (hown : RelatesOwn R) (nodes : List MarkupNode) :
    List.Forall₂ R (preorderList (plainList nodes)) (MarkupNode.placedList false nodes) := by
  match nodes with
  | [] => exact List.Forall₂.nil
  | node :: rest =>
      rw [StyledNode.plainList, preorderList, MarkupNode.placedList]
      exact List.rel_append (hown.plain node) (hown.plainList rest)

end

mutual

/-- What relates the nodes themselves relates the trees that are given classes to the trees that
these are given for, place by place. -/
theorem RelatesOwn.assign (hown : RelatesOwn R) (taken : List String) (node : MarkupNode) :
    List.Forall₂ R (assign taken node).2.preorder (node.placed true) := by
  match node with
  | ⟨tag, name, attributes, styles, content, children⟩ =>
      have hnode := hown.own taken ⟨tag, name, attributes, styles, content, children⟩
      rw [MarkupNode.placed, Bool.true_and, Bool.true_and]
      cases hvoid : Markup.isVoid tag with
      | true =>
          rw [assign_of_void _ _ _ _ _ _ hvoid, preorder_ofParts]
          apply List.Forall₂.cons
          · exact hnode _
          · exact hown.plainList children
      | false =>
          rw [assign_of_not_void _ _ _ _ _ _ hvoid, preorder_ofParts]
          apply List.Forall₂.cons
          · exact hnode _
          · exact hown.assignList _ children

theorem RelatesOwn.assignList (hown : RelatesOwn R) (taken : List String)
    (nodes : List MarkupNode) :
    List.Forall₂ R (preorderList (assignList taken nodes).2)
      (MarkupNode.placedList true nodes) := by
  match nodes with
  | [] => exact List.Forall₂.nil
  | node :: rest =>
      rw [assignList_cons, preorderList, MarkupNode.placedList]
      exact List.rel_append (hown.assign taken node) (hown.assignList _ rest)

end

end Related

/-- A node stands for a placed one: it has the same declarations, and a class exactly if that one is
written and declares something. -/
structure StandsFor (node : StyledNode) (place : MarkupNode × Bool) : Prop where
  declarations : node.declarations = Markup.declarations place.1.styles
  isSome_className : node.className.isSome = true ↔
    place.2 = true ∧ Markup.declarations place.1.styles ≠ []
  isClassName : ∀ className, node.className = some className → IsClassName className

theorem isSome_classFor? (taken : List String) (tag name : String)
    (declarations : List (String × String)) :
    (classFor? taken tag name declarations).isSome = true ↔
      Markup.isTag tag = true ∧ declarations ≠ [] := by
  rw [classFor?]
  cases declarations <;> cases Markup.isTag tag <;> simp

/-- A class is a name for the base of a node that has a tag. -/
theorem eq_uniqueName_of_classFor? {taken : List String} {tag name : String}
    {declarations : List (String × String)} {className : String}
    (h : classFor? taken tag name declarations = some className) :
    Markup.isTag tag = true ∧ className = uniqueName (baseName name tag) taken := by
  rw [classFor?] at h
  split at h
  · rename_i htag
    rw [Bool.and_eq_true] at htag
    exact ⟨htag.1, (Option.some.inj h).symm⟩
  · cases h

theorem isClassName_classFor? {taken : List String} {tag name : String}
    {declarations : List (String × String)} {className : String}
    (h : classFor? taken tag name declarations = some className) : IsClassName className := by
  obtain ⟨-, rfl⟩ := eq_uniqueName_of_classFor? h
  exact isClassName_uniqueName (isClassName_baseName name tag) taken

theorem relatesOwn_standsFor : RelatesOwn StandsFor where
  unwritten node children := ⟨rfl, by simp [ofParts], by simp [ofParts]⟩
  own taken node children :=
    ⟨rfl, isSome_classFor? taken node.tag node.elementName _, fun _ => isClassName_classFor?⟩

theorem standsFor_plainList (nodes : List MarkupNode) :
    List.Forall₂ StandsFor (preorderList (plainList nodes))
      (MarkupNode.placedList false nodes) :=
  relatesOwn_standsFor.plainList nodes

/-- The nodes that are given classes stand for the nodes that these were given for, place by place.
-/
theorem standsFor_assign (taken : List String) (node : MarkupNode) :
    List.Forall₂ StandsFor (assign taken node).2.preorder (node.placed true) :=
  relatesOwn_standsFor.assign taken node

theorem standsFor_assignList (taken : List String) (nodes : List MarkupNode) :
    List.Forall₂ StandsFor (preorderList (assignList taken nodes).2)
      (MarkupNode.placedList true nodes) :=
  relatesOwn_standsFor.assignList taken nodes

/-- The classes in a list of nodes. -/
def classesIn (nodes : List StyledNode) : List String :=
  nodes.filterMap className

theorem filterMap_cons_eq {α β : Type} (f : α → Option β) (x : α) (xs : List α) :
    (x :: xs).filterMap f = (f x).toList ++ xs.filterMap f := by
  cases h : f x <;> simp [h]

theorem classesIn_cons (node : StyledNode) (rest : List StyledNode) :
    classesIn (node :: rest) = node.className.toList ++ classesIn rest :=
  filterMap_cons_eq className node rest

theorem classesIn_append (left right : List StyledNode) :
    classesIn (left ++ right) = classesIn left ++ classesIn right :=
  List.filterMap_append

theorem classesIn_of_not_written {nodes : List StyledNode} {places : List (MarkupNode × Bool)}
    (h : List.Forall₂ StandsFor nodes places) (hplaces : ∀ place ∈ places, place.2 = false) :
    classesIn nodes = [] := by
  induction h with
  | nil => rfl
  | cons hstands _ ih =>
      rw [List.forall_mem_cons] at hplaces
      have hnone := hstands.isSome_className
      rw [hplaces.1, Option.isSome_iff_ne_none] at hnone
      rw [classesIn_cons, ih hplaces.2]
      simpa using hnone

theorem classesIn_plainList (nodes : List MarkupNode) :
    classesIn (preorderList (plainList nodes)) = [] :=
  classesIn_of_not_written (standsFor_plainList nodes) (MarkupNode.not_written_placedList nodes)

-- The list of taken classes is the one that grows, so it carries the induction: what is read off
-- the nodes afterwards is what was put in front of it.
mutual

/-- The classes taken after a node are those given to it and below it, and those taken before. -/
theorem taken_assign (taken : List String) (node : MarkupNode) :
    (assign taken node).1 = (classesIn (assign taken node).2.preorder).reverse ++ taken := by
  match node with
  | ⟨tag, name, attributes, styles, content, children⟩ =>
      have hown : ∀ given : Option String, given.toList.reverse = given.toList := by
        intro given
        cases given <;> rfl
      cases hvoid : Markup.isVoid tag with
      | true =>
          rw [assign_of_void _ _ _ _ _ _ hvoid, preorder_ofParts, classesIn_cons,
            classesIn_plainList, List.append_nil, hown]
          rfl
      | false =>
          rw [assign_of_not_void _ _ _ _ _ _ hvoid, preorder_ofParts, classesIn_cons,
            List.reverse_append, hown, List.append_assoc]
          exact taken_assignList _ children

theorem taken_assignList (taken : List String) (nodes : List MarkupNode) :
    (assignList taken nodes).1 =
      (classesIn (preorderList (assignList taken nodes).2)).reverse ++ taken := by
  match nodes with
  | [] => rfl
  | node :: rest =>
      rw [assignList_cons, preorderList, classesIn_append, List.reverse_append, List.append_assoc,
        ← taken_assign taken node]
      exact taken_assignList _ rest

end

/-- A class that is given is not taken yet. -/
theorem nodup_classFor? {taken : List String} (h : taken.Nodup) (tag name : String)
    (declarations : List (String × String)) :
    ((classFor? taken tag name declarations).toList ++ taken).Nodup := by
  rw [classFor?]
  split
  · exact List.nodup_cons.mpr ⟨uniqueName_not_mem _ taken, h⟩
  · exact h

mutual

theorem nodup_assign {taken : List String} (h : taken.Nodup) (node : MarkupNode) :
    (assign taken node).1.Nodup := by
  match node with
  | ⟨tag, name, attributes, styles, content, children⟩ =>
      have hown := nodup_classFor? h tag name (Markup.declarations styles)
      cases hvoid : Markup.isVoid tag with
      | true =>
          rw [assign_of_void _ _ _ _ _ _ hvoid]
          exact hown
      | false =>
          rw [assign_of_not_void _ _ _ _ _ _ hvoid]
          exact nodup_assignList hown children

theorem nodup_assignList {taken : List String} (h : taken.Nodup) (nodes : List MarkupNode) :
    (assignList taken nodes).1.Nodup := by
  match nodes with
  | [] => exact h
  | node :: rest => exact nodup_assignList (nodup_assign h node) rest

end

/-- No class is given twice. -/
theorem nodup_classesIn_ofNodes (nodes : List MarkupNode) :
    (classesIn (preorderList (ofNodes nodes))).Nodup := by
  have hnodup := nodup_assignList List.nodup_nil nodes
  rw [taken_assignList, List.append_nil, List.nodup_reverse] at hnodup
  exact hnodup

end StyledNode

/-- A node of the input in its place: whether it is written, and the class that it is given. -/
structure Place where
  node : MarkupNode
  isWritten : Bool
  className : Option String

namespace Place

/-- The rule for a node that is given a class. -/
def rule? (place : Place) : Option StyleRule :=
  place.className.map (⟨·, Markup.declarations place.node.styles⟩)

/-- The tag and the attributes that a written node is opened with. -/
def opening (place : Place) : String × List (String × String) :=
  (place.node.tag, StyledNode.writtenAttributes place.className place.node.attributes)

/-- A node that was looked up among the placed ones, with its class. -/
def ofClass (placed : MarkupNode × Bool) (className : Option String) : Place :=
  ⟨placed.1, placed.2, className⟩

/-- The rules of places are for their classes. -/
theorem map_className_filterMap_rule? (places : List Place) :
    (places.filterMap rule?).map StyleRule.className = places.filterMap className := by
  rw [List.map_filterMap]
  apply List.filterMap_congr
  intro place _
  cases hclass : place.className <;> simp [rule?, hclass]

/-- Where no class is given twice, it is given to one place alone. -/
theorem filter_className_eq {places : List Place} (h : (places.filterMap className).Nodup)
    {place : Place} (hplace : place ∈ places) {name : String}
    (hname : place.className = some name) :
    places.filter (·.className = some name) = [place] := by
  induction places with
  | nil => cases hplace
  | cons first rest ih =>
      rcases List.mem_cons.mp hplace with rfl | hrest
      · rw [List.filterMap_cons_some hname, List.nodup_cons] at h
        rw [List.filter_cons_of_pos (by simpa using hname), List.filter_eq_nil_iff.mpr]
        intro other hother hsame
        apply h.1
        exact List.mem_filterMap.mpr ⟨other, hother, by simpa using hsame⟩
      · have hmem : name ∈ rest.filterMap className :=
          List.mem_filterMap.mpr ⟨place, hrest, hname⟩
        have hfirst : first.className ≠ some name := by
          intro hsame
          rw [List.filterMap_cons_some hsame, List.nodup_cons] at h
          exact h.1 hmem
        rw [List.filter_cons_of_neg (by simpa using hfirst)]
        apply ih _ hrest
        exact h.sublist ((List.sublist_cons_self first rest).filterMap className)

end Place

namespace StyledNode

/-- The places of nodes whose classes are those of the nodes that stand for them. -/
def placesBy (placed : List (MarkupNode × Bool)) (nodes : List StyledNode) : List Place :=
  List.zipWith Place.ofClass placed (nodes.map className)

theorem placesBy_cons (place : MarkupNode × Bool) (placed : List (MarkupNode × Bool))
    (node : StyledNode) (nodes : List StyledNode) :
    placesBy (place :: placed) (node :: nodes) =
      Place.ofClass place node.className :: placesBy placed nodes :=
  rfl

section Places

variable {nodes : List StyledNode} {placed : List (MarkupNode × Bool)}

theorem placesBy_append {nodes' : List StyledNode} {placed' : List (MarkupNode × Bool)}
    (h : placed.length = nodes.length) :
    placesBy (placed ++ placed') (nodes ++ nodes') =
      placesBy placed nodes ++ placesBy placed' nodes' := by
  rw [placesBy, List.map_append]
  apply List.zipWith_append
  rw [h, List.length_map]

theorem filter_placesBy_of_not_written (h : ∀ place ∈ placed, place.2 = false) :
    (placesBy placed nodes).filter Place.isWritten = [] := by
  rw [List.filter_eq_nil_iff]
  intro place hplace
  obtain ⟨i, hi, rfl⟩ := List.getElem_of_mem hplace
  simp only [placesBy, List.getElem_zipWith, Place.ofClass]
  rw [h _ (List.getElem_mem _)]
  exact Bool.false_ne_true

variable (h : List.Forall₂ StandsFor nodes placed)
include h

theorem map_node_placesBy : (placesBy placed nodes).map Place.node = placed.map Prod.fst := by
  induction h with
  | nil => rfl
  | cons _ _ ih => exact congrArg (_ :: ·) ih

theorem map_className_placesBy :
    (placesBy placed nodes).map Place.className = nodes.map className := by
  induction h with
  | nil => rfl
  | cons _ _ ih => exact congrArg (_ :: ·) ih

theorem filterMap_className_placesBy :
    (placesBy placed nodes).filterMap Place.className = classesIn nodes := by
  induction h with
  | nil => rfl
  | cons _ _ ih =>
      rw [classesIn, List.filterMap_cons, ← classesIn, ← ih]
      rfl

theorem filterMap_rule?_placesBy :
    (placesBy placed nodes).filterMap Place.rule? = nodes.filterMap StyledNode.rule? := by
  induction h with
  | nil => rfl
  | @cons node place _ _ hstands _ ih =>
      have hrule : (Place.ofClass place node.className).rule? = node.rule? := by
        rw [Place.rule?, StyledNode.rule?, hstands.declarations]
        rfl
      rw [List.filterMap_cons, ← hrule, ← ih]
      rfl

end Places

/-- What follows for each place from what relates the nodes holds of all places. -/
theorem forall_placesBy {R : StyledNode → MarkupNode × Bool → Prop} {nodes : List StyledNode}
    {placed : List (MarkupNode × Bool)} (h : List.Forall₂ R nodes placed) {p : Place → Prop}
    (hp : ∀ node place, R node place → p (Place.ofClass place node.className)) :
    ∀ place ∈ placesBy placed nodes, p place := by
  induction h with
  | nil =>
      intro place hplace
      cases hplace
  | cons hrelated _ ih =>
      intro place hplace
      rcases List.mem_cons.mp hplace with rfl | hrest
      · exact hp _ _ hrelated
      · exact ih place hrest

section Rendered

variable {tag name : String} {attributes : Properties} {styles : OrderedMap String String}
  {content className : Option String} {children : List StyledNode}

theorem rendered_ofParts_of_not_tag (h : Markup.isTag tag = false) :
    (ofParts tag name attributes styles content className children).rendered =
      renderedList children := by
  rw [ofParts, rendered, h]
  rfl

theorem rendered_ofParts_of_void (htag : Markup.isTag tag = true) (h : Markup.isVoid tag = true) :
    (ofParts tag name attributes styles content className children).rendered =
      [.empty tag (writtenAttributes className attributes)] := by
  rw [ofParts, rendered, htag, h]
  rfl

theorem openings_rendered_ofParts (htag : Markup.isTag tag = true) (h : Markup.isVoid tag = false) :
    HtmlElement.openingsOfList
        (ofParts tag name attributes styles content className children).rendered =
      (tag, writtenAttributes className attributes) ::
        HtmlElement.openingsOfList (renderedList children) := by
  rw [ofParts, rendered, htag, h]
  cases children with
  | nil => rfl
  | cons child rest => exact List.append_nil _

end Rendered

mutual

/-- The elements of a node are those of the written places below it. -/
theorem openings_rendered_assign (taken : List String) (node : MarkupNode) :
    HtmlElement.openingsOfList (assign taken node).2.rendered =
      ((placesBy (node.placed true) (assign taken node).2.preorder).filter Place.isWritten).map
        Place.opening := by
  match node with
  | ⟨tag, name, attributes, styles, content, children⟩ =>
      have hbelow := openings_renderedList_assignList (takenBelow tag name styles taken) children
      rw [MarkupNode.placed, Bool.true_and, Bool.true_and]
      cases hvoid : Markup.isVoid tag with
      | true =>
          have htag := Markup.isTag_of_isVoid hvoid
          rw [assign_of_void _ _ _ _ _ _ hvoid, preorder_ofParts, placesBy_cons,
            rendered_ofParts_of_void htag hvoid, htag, List.filter_cons_of_pos rfl, Bool.not_true,
            filter_placesBy_of_not_written (MarkupNode.not_written_placedList children)]
          rfl
      | false =>
          rw [assign_of_not_void _ _ _ _ _ _ hvoid, preorder_ofParts, placesBy_cons]
          cases htag : Markup.isTag tag with
          | false =>
              rw [rendered_ofParts_of_not_tag htag, List.filter_cons_of_neg Bool.false_ne_true]
              exact hbelow
          | true =>
              rw [openings_rendered_ofParts htag hvoid, hbelow, List.filter_cons_of_pos rfl]
              rfl

theorem openings_renderedList_assignList (taken : List String) (nodes : List MarkupNode) :
    HtmlElement.openingsOfList (renderedList (assignList taken nodes).2) =
      ((placesBy (MarkupNode.placedList true nodes)
        (preorderList (assignList taken nodes).2)).filter Place.isWritten).map Place.opening := by
  match nodes with
  | [] => rfl
  | node :: rest =>
      have hlength := (standsFor_assign taken node).length_eq.symm
      rw [assignList_cons, renderedList, HtmlElement.openingsOfList_append, preorderList,
        MarkupNode.placedList, placesBy_append hlength, List.filter_append, List.map_append,
        openings_rendered_assign taken node, openings_renderedList_assignList _ rest]

end

end StyledNode

theorem StyledNode.standsFor_ofNodes (nodes : List MarkupNode) :
    List.Forall₂ StyledNode.StandsFor (StyledNode.preorderList (StyledNode.ofNodes nodes))
      (MarkupNode.placedList true nodes) :=
  StyledNode.standsFor_assignList [] nodes

namespace MarkupNode

/-- All nodes in their places, parents first. -/
def places (nodes : List MarkupNode) : List Place :=
  List.zipWith Place.ofClass (placedList true nodes)
    (StyledNode.classNames (StyledNode.ofNodes nodes))

/-- The places of the nodes that are written, in the order of the markup. -/
def writtenPlaces (nodes : List MarkupNode) : List Place :=
  (places nodes).filter Place.isWritten

variable (nodes : List MarkupNode)

theorem places_eq :
    places nodes =
      StyledNode.placesBy (placedList true nodes)
        (StyledNode.preorderList (StyledNode.ofNodes nodes)) :=
  rfl

/-- Every node has one place. -/
theorem map_node_places : (places nodes).map Place.node = preorderList nodes := by
  rw [places_eq, StyledNode.map_node_placesBy (StyledNode.standsFor_ofNodes nodes),
    map_fst_placedList]

/-- A node has a class exactly if it is written and declares something. -/
theorem isSome_className_places : ∀ place ∈ places nodes,
    (place.className.isSome = true ↔
      place.isWritten = true ∧ Markup.declarations place.node.styles ≠ []) :=
  StyledNode.forall_placesBy (StyledNode.standsFor_ofNodes nodes) fun _ _ hstands =>
    hstands.isSome_className

theorem isClassName_places : ∀ place ∈ places nodes,
    ∀ className, place.className = some className → StyledNode.IsClassName className :=
  StyledNode.forall_placesBy (StyledNode.standsFor_ofNodes nodes) fun _ _ hstands =>
    hstands.isClassName

/-- What a node has only by its class is had by written nodes alone. -/
theorem filterMap_writtenPlaces {α : Type} (f : Place → Option α)
    (hf : ∀ place, place.className = none → f place = none) :
    (writtenPlaces nodes).filterMap f = (places nodes).filterMap f := by
  rw [writtenPlaces, List.filterMap_filter]
  apply List.filterMap_congr
  intro place hplace
  cases hwritten : place.isWritten with
  | true => rfl
  | false =>
      have hclass := isSome_className_places nodes place hplace
      rw [hwritten, Option.isSome_iff_ne_none] at hclass
      have hnone : place.className = none := by simpa using hclass
      exact (hf place hnone).symm

/-- The rules are those of the written nodes. -/
theorem filterMap_rule?_writtenPlaces :
    (writtenPlaces nodes).filterMap Place.rule? = StyledNode.rules (StyledNode.ofNodes nodes) := by
  rw [filterMap_writtenPlaces, places_eq,
    StyledNode.filterMap_rule?_placesBy (StyledNode.standsFor_ofNodes nodes), StyledNode.rules]
  intro place hnone
  rw [Place.rule?, hnone, Option.map_none]

/-- No class is given to two written nodes. -/
theorem nodup_filterMap_className_writtenPlaces :
    ((writtenPlaces nodes).filterMap Place.className).Nodup := by
  rw [filterMap_writtenPlaces, places_eq,
    StyledNode.filterMap_className_placesBy (StyledNode.standsFor_ofNodes nodes)]
  · exact StyledNode.nodup_classesIn_ofNodes nodes
  · intro place hnone
    exact hnone

end MarkupNode

/-- The elements that are read from the markup are those of the written nodes. -/
theorem GeneratedCode.openings_html (nodes : List MarkupNode) :
    (HtmlElement.read? (GeneratedCode.ofNodes nodes).html).map HtmlElement.openingsOfList =
      some ((MarkupNode.writtenPlaces nodes).map Place.opening) := by
  rw [GeneratedCode.ofNodes, StyledNode.read?_html, Option.map_some]
  exact congrArg some (StyledNode.openings_renderedList_assignList [] nodes)

end DesignMarkup
