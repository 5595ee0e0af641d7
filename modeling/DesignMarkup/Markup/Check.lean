import DesignMarkup.Markup.Name
import DesignMarkup.Markup.Node
import DesignMarkup.Text.Quoted

/-!
Checking nodes for what generating markup would leave out.
-/

namespace DesignMarkup

/-- What is wrong with a node, which is named by its places from the top down. -/
inductive MarkupProblem where
  | invalidTag (path : List Nat) (elementName tag : String)
  | voidWithChildren (path : List Nat) (tag : String) (dropped : Nat)
deriving DecidableEq, Repr

namespace MarkupProblem

/-- A path as text, with a slash before each place. -/
def pathText (path : List Nat) : String :=
  String.ofList (path.flatMap fun place => '/' :: Nat.toDigits 10 place)

def message : MarkupProblem → String
  | invalidTag path name tag =>
      pathText path ++ ": " ++ Text.quoted name ++ " has invalid tag " ++ Text.quoted tag
        ++ " and will be skipped"
  | voidWithChildren path tag dropped =>
      pathText path ++ ": <" ++ tag ++ "> cannot have children; "
        ++ String.ofList (Nat.toDigits 10 dropped) ++ " will be dropped"

end MarkupProblem

namespace MarkupNode

/-- What is wrong with a node itself. -/
def problem? (path : List Nat) (node : MarkupNode) : Option MarkupProblem :=
  if !Markup.isTag node.tag then some (.invalidTag path node.elementName node.tag)
  else if Markup.isVoid node.tag && !node.children.isEmpty then
    some (.voidWithChildren path node.tag node.children.length)
  else none

mutual

/-- What is wrong with a node and those below it. -/
def problems (path : List Nat) : MarkupNode → List MarkupProblem
  | ⟨tag, name, attributes, styles, content, children⟩ =>
      (problem? path ⟨tag, name, attributes, styles, content, children⟩).toList
        ++ problemsFrom path 0 children

/-- What is wrong with the children of the node at a path, from a place on. -/
def problemsFrom (path : List Nat) (place : Nat) : List MarkupNode → List MarkupProblem
  | [] => []
  | node :: rest => node.problems (path ++ [place]) ++ problemsFrom path (place + 1) rest

end

/-- What is wrong with nodes. -/
def problemsOf (nodes : List MarkupNode) : List MarkupProblem :=
  problemsFrom [] 0 nodes

end MarkupNode
end DesignMarkup
