import DesignMarkup.Element.Id
import DesignMarkup.OrderedMap

/-!
Outlines: which elements stand at the top and which right below others.  An outline need not be a
tree; where it has no cycle, its traversals list an element once for each way to reach it.
-/

namespace DesignMarkup

/-- The elements at the top and, for those that have any, the elements right below them. -/
structure Outline where
  roots : List ElementId
  branches : OrderedMap ElementId (List ElementId)

namespace Outline

/-- The elements right below an element, in order. -/
def children (o : Outline) (id : ElementId) : List ElementId :=
  (o.branches.find? id).getD []

/-- The number of levels that a walk without repetition can have. -/
def height (o : Outline) : Nat :=
  o.branches.size + 1

/-- The largest number of elements right below one. -/
def breadth (o : Outline) : Nat :=
  (o.branches.values.map List.length).foldl max 0

/-- A bound on the number of elements that a traversal lists when there is no cycle. -/
def walkBound (o : Outline) : Nat :=
  Nat.pow (o.breadth + 1) (o.height + 1)

/-- Take elements off a stack, each replaced by those right below it, for a number of steps. -/
def walk (o : Outline) : (steps : Nat) → (stack : List ElementId) → List ElementId
  | 0, _ => []
  | _, [] => []
  | steps + 1, id :: stack => id :: o.walk steps (o.children id ++ stack)

/-- The elements below an element, each before those below it. -/
def descendants (o : Outline) (id : ElementId) : List ElementId :=
  o.walk o.walkBound (o.children id)

/-- The elements at the top, each followed by those below it. -/
def allElements (o : Outline) : List ElementId :=
  o.roots.flatMap fun root => root :: o.descendants root

end Outline
end DesignMarkup
