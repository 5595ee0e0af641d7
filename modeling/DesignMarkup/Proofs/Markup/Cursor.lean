import DesignMarkup.Markup.Cursor
import DesignMarkup.Proofs.Markup.Classes

/-!
Walks that look classes up by position write the same code as nodes that hold their classes.  The
classes from a position on are those of the tree that is written there, and then those of what
follows.
-/

namespace DesignMarkup
namespace MarkupNode

open StyledNode (assign assignList plain plainList takenBelow assign_of_void assign_of_not_void)

mutual

theorem length_placed (isOpen : Bool) (node : MarkupNode) :
    (node.placed isOpen).length = node.size := by
  match node with
  | ⟨tag, name, attributes, styles, content, children⟩ =>
      rw [placed, size, List.length_cons, length_placedList]

theorem length_placedList (isOpen : Bool) (nodes : List MarkupNode) :
    (placedList isOpen nodes).length = sizeOfList nodes := by
  match nodes with
  | [] => rfl
  | node :: rest =>
      rw [placedList, sizeOfList, List.length_append, length_placed isOpen node,
        length_placedList isOpen rest]

end

/-- The classes of a tree that has been given them, one for each of its nodes. -/
def classesOf (taken : List String) (node : MarkupNode) : List (Option String) :=
  (assign taken node).2.preorder.map StyledNode.className

/-- The classes of a list of trees that have been given them. -/
def classesOfList (taken : List String) (nodes : List MarkupNode) : List (Option String) :=
  StyledNode.classNames (assignList taken nodes).2

theorem length_classesOf (taken : List String) (node : MarkupNode) :
    (classesOf taken node).length = node.size := by
  rw [classesOf, List.length_map, (StyledNode.standsFor_assign taken node).length_eq, length_placed]

theorem classNames_plainList (nodes : List MarkupNode) :
    StyledNode.classNames (plainList nodes) = List.replicate (sizeOfList nodes) none := by
  have hlength := (StyledNode.standsFor_plainList nodes).length_eq
  have hnone := StyledNode.classesIn_plainList nodes
  rw [StyledNode.classesIn, List.filterMap_eq_nil_iff] at hnone
  rw [List.eq_replicate_iff]
  constructor
  · rw [StyledNode.classNames, List.length_map, hlength, length_placedList]
  · intro given hgiven
    obtain ⟨node, hnode, rfl⟩ := List.mem_map.mp hgiven
    exact hnone node hnode

section Node

variable (taken : List String) {tag : String} (name : String) (attributes : Properties)
  (styles : OrderedMap String String) (content : Option String) (children : List MarkupNode)

theorem classesOf_of_void (h : Markup.isVoid tag = true) :
    classesOf taken ⟨tag, name, attributes, styles, content, children⟩ =
      StyledNode.ownClass? tag name styles taken
        :: List.replicate (sizeOfList children) none := by
  rw [classesOf, assign_of_void _ _ _ _ _ _ h, StyledNode.preorder_ofParts, List.map_cons,
    ← classNames_plainList]
  rfl

theorem classesOf_of_not_void (h : Markup.isVoid tag = false) :
    classesOf taken ⟨tag, name, attributes, styles, content, children⟩ =
      StyledNode.ownClass? tag name styles taken
        :: classesOfList (takenBelow tag name styles taken) children := by
  rw [classesOf, assign_of_not_void _ _ _ _ _ _ h, StyledNode.preorder_ofParts, List.map_cons]
  rfl

end Node

theorem classesOfList_cons (taken : List String) (node : MarkupNode) (rest : List MarkupNode) :
    classesOfList taken (node :: rest) =
      classesOf taken node ++ classesOfList (assign taken node).1 rest :=
  List.map_append

theorem nameClasses_of_not_void (taken : List String) {tag : String} (name : String)
    (attributes : Properties) (styles : OrderedMap String String) (content : Option String)
    (children : List MarkupNode) (h : Markup.isVoid tag = false) :
    nameClasses taken ⟨tag, name, attributes, styles, content, children⟩ =
      ((nameClassesOfList (takenBelow tag name styles taken) children).1,
        StyledNode.ownClass? tag name styles taken
          :: (nameClassesOfList (takenBelow tag name styles taken) children).2) := by
  rw [nameClasses, h, Bool.and_false]
  rfl

theorem nameClassesOfList_cons (taken : List String) (node : MarkupNode) (rest : List MarkupNode) :
    nameClassesOfList taken (node :: rest) =
      ((nameClassesOfList (nameClasses taken node).1 rest).1,
        (nameClasses taken node).2 ++ (nameClassesOfList (nameClasses taken node).1 rest).2) :=
  rfl

mutual

/-- The classes that are listed by position are those that the nodes hold. -/
theorem nameClasses_eq (taken : List String) (node : MarkupNode) :
    nameClasses taken node = ((assign taken node).1, classesOf taken node) := by
  match node with
  | ⟨tag, name, attributes, styles, content, children⟩ =>
      cases hvoid : Markup.isVoid tag with
      | true =>
          rw [nameClasses, classesOf_of_void _ _ _ _ _ _ hvoid, assign_of_void _ _ _ _ _ _ hvoid,
            Markup.isTag_of_isVoid hvoid, hvoid]
          rfl
      | false =>
          rw [nameClasses_of_not_void _ _ _ _ _ _ hvoid, nameClassesOfList_eq _ children,
            classesOf_of_not_void _ _ _ _ _ _ hvoid, assign_of_not_void _ _ _ _ _ _ hvoid]

theorem nameClassesOfList_eq (taken : List String) (nodes : List MarkupNode) :
    nameClassesOfList taken nodes = ((assignList taken nodes).1, classesOfList taken nodes) := by
  match nodes with
  | [] => rfl
  | node :: rest =>
      rw [nameClassesOfList_cons, nameClasses_eq taken node, nameClassesOfList_eq _ rest,
        classesOfList_cons]
      rfl

end

section Walks

variable {classes : List (Option String)}

theorem classAt?_of_drop {position : Nat} {own : Option String} {rest : List (Option String)}
    (h : classes.drop position = own :: rest) : classAt? classes position = own := by
  have hhead : classes[position]? = some own := by
    rw [← List.head?_drop, h, List.head?_cons]
  rw [classAt?, hhead, Option.getD_some]

theorem drop_of_drop {position count : Nat} {first rest : List (Option String)}
    (h : classes.drop position = first ++ rest) (hcount : first.length = count) :
    classes.drop (position + count) = rest := by
  rw [← List.drop_drop, h, ← hcount, List.drop_left]

theorem linesOfListFrom_cons (level position : Nat) (node : MarkupNode) (rest : List MarkupNode) :
    linesOfListFrom classes level position (node :: rest) =
      ((linesOfListFrom classes level (linesFrom classes level position node).1 rest).1,
        (linesFrom classes level position node).2
          ++ (linesOfListFrom classes level (linesFrom classes level position node).1 rest).2) :=
  rfl

theorem rulesOfListFrom_cons (position : Nat) (node : MarkupNode) (rest : List MarkupNode) :
    rulesOfListFrom classes position (node :: rest) =
      ((rulesOfListFrom classes (rulesFrom classes position node).1 rest).1,
        (rulesFrom classes position node).2
          ++ (rulesOfListFrom classes (rulesFrom classes position node).1 rest).2) :=
  rfl

mutual

/-- A tree is written the same if the classes from its position on begin with its own. -/
theorem linesFrom_eq (level : Nat) {position : Nat} {taken : List String} (node : MarkupNode)
    {rest : List (Option String)} (h : classes.drop position = classesOf taken node ++ rest) :
    linesFrom classes level position node =
      (position + node.size, (assign taken node).2.lines level) := by
  match node with
  | ⟨tag, name, attributes, styles, content, children⟩ =>
      have hsize : position + (sizeOfList children + 1) = position + 1 + sizeOfList children := by
        omega
      rw [size, hsize, linesFrom]
      cases hvoid : Markup.isVoid tag with
      | true =>
          rw [classesOf_of_void _ _ _ _ _ _ hvoid, List.cons_append] at h
          rw [assign_of_void _ _ _ _ _ _ hvoid, classAt?_of_drop h, StyledNode.ofParts,
            StyledNode.lines, Markup.isTag_of_isVoid hvoid, hvoid]
          rfl
      | false =>
          rw [classesOf_of_not_void _ _ _ _ _ _ hvoid, List.cons_append] at h
          have hbelow := drop_of_drop (h.trans List.singleton_append.symm) List.length_singleton
          rw [assign_of_not_void _ _ _ _ _ _ hvoid, classAt?_of_drop h, StyledNode.ofParts,
            StyledNode.lines, hvoid]
          cases Markup.isTag tag with
          | false => exact linesOfListFrom_eq level children hbelow
          | true =>
              cases children with
              | nil => rfl
              | cons child others =>
                  rw [linesOfListFrom_eq (level + 1) (child :: others) hbelow]
                  rfl

theorem linesOfListFrom_eq (level : Nat) {position : Nat} {taken : List String}
    (nodes : List MarkupNode) {rest : List (Option String)}
    (h : classes.drop position = classesOfList taken nodes ++ rest) :
    linesOfListFrom classes level position nodes =
      (position + sizeOfList nodes, StyledNode.linesOfList level (assignList taken nodes).2) := by
  match nodes with
  | [] => rfl
  | node :: others =>
      rw [classesOfList_cons, List.append_assoc] at h
      have hothers := drop_of_drop h (length_classesOf taken node)
      rw [linesOfListFrom_cons, linesFrom_eq level node h, linesOfListFrom_eq level others hothers,
        sizeOfList, ← Nat.add_assoc]
      rfl

end

-- The rules need no class to be the right one: whatever stands from the position on is paired with
-- the nodes in their order.
mutual

theorem rulesFrom_eq (isOpen : Bool) {position : Nat} (node : MarkupNode)
    {own rest : List (Option String)} (hdrop : classes.drop position = own ++ rest)
    (hown : own.length = node.size) :
    rulesFrom classes position node =
      (position + node.size,
        (List.zipWith Place.ofClass (node.placed isOpen) own).filterMap Place.rule?) := by
  match node with
  | ⟨tag, name, attributes, styles, content, children⟩ =>
      rw [size] at hown
      obtain ⟨first, below, rfl⟩ := List.exists_cons_of_length_eq_add_one hown
      have hbelow := drop_of_drop (hdrop.trans List.singleton_append.symm) List.length_singleton
      rw [rulesFrom, classAt?_of_drop hdrop,
        rulesOfListFrom_eq (isOpen && !Markup.isVoid tag) children hbelow (Nat.succ.inj hown),
        placed, List.zipWith_cons_cons, size, Nat.add_right_comm, Nat.add_assoc]
      cases first <;> rfl

theorem rulesOfListFrom_eq (isOpen : Bool) {position : Nat} (nodes : List MarkupNode)
    {own rest : List (Option String)} (hdrop : classes.drop position = own ++ rest)
    (hown : own.length = sizeOfList nodes) :
    rulesOfListFrom classes position nodes =
      (position + sizeOfList nodes,
        (List.zipWith Place.ofClass (placedList isOpen nodes) own).filterMap Place.rule?) := by
  match nodes with
  | [] => rfl
  | node :: others =>
      have hfirst : (own.take node.size).length = node.size := by
        rw [List.length_take, hown, sizeOfList, Nat.min_eq_left (Nat.le_add_right _ _)]
      have hothers : (own.drop node.size).length = sizeOfList others := by
        rw [List.length_drop, hown, sizeOfList, Nat.add_sub_cancel_left]
      rw [← List.take_append_drop node.size own, List.append_assoc] at hdrop
      have hrest := drop_of_drop hdrop hfirst
      rw [rulesOfListFrom_cons, rulesFrom_eq isOpen node hdrop hfirst,
        rulesOfListFrom_eq isOpen others hrest hothers, placedList, sizeOfList, ← Nat.add_assoc]
      conv => rhs; rw [← List.take_append_drop node.size own]
      rw [List.zipWith_append ((length_placed isOpen node).trans hfirst.symm),
        List.filterMap_append]

end

end Walks

end MarkupNode

/-- Code written by position is the code written for nodes with their classes. -/
theorem GeneratedCode.byPosition_eq (nodes : List MarkupNode) :
    GeneratedCode.byPosition nodes = GeneratedCode.ofNodes nodes := by
  have hstands := StyledNode.standsFor_assignList [] nodes
  have hlength : (MarkupNode.classesOfList [] nodes).length = MarkupNode.sizeOfList nodes := by
    rw [MarkupNode.classesOfList, StyledNode.classNames, List.length_map, hstands.length_eq,
      MarkupNode.length_placedList]
  have hdrop : (MarkupNode.classesOfList [] nodes).drop 0 =
      MarkupNode.classesOfList [] nodes ++ [] :=
    (List.append_nil _).symm
  rw [byPosition, MarkupNode.nameClassesOfList_eq, MarkupNode.linesOfListFrom_eq 0 nodes hdrop,
    MarkupNode.rulesOfListFrom_eq true nodes hdrop hlength]
  exact congrArg (fun rules => GeneratedCode.mk _ (StyleRule.sheet rules))
    (StyledNode.filterMap_rule?_placesBy hstands)

end DesignMarkup
