import DesignMarkup.Markup.Declaration
import DesignMarkup.Markup.Name
import DesignMarkup.Text.Slug

/-!
Styled nodes: markup nodes with their declarations and the class that ties these to the markup.
Classes are given out parents first, each one once.  A node that will not be written, because its
tag is none or because it lies below a void element, gets no class.
-/

namespace DesignMarkup

/-- A markup node with its declarations and class. -/
structure StyledNode where
  tag : String
  elementName : String
  attributes : Properties
  content : Option String
  declarations : List (String × String)
  className : Option String
  children : List StyledNode

namespace StyledNode

/-- A name with a number after it. -/
def numbered (base : String) (n : Nat) : String :=
  base ++ "-" ++ String.ofList (Nat.toDigits 10 n)

/-- The first name with a number from `n` on that is not taken, if it is found in time. -/
def firstFree (base : String) (taken : List String) : (tries n : Nat) → String
  | 0, n => numbered base n
  | tries + 1, n =>
      if numbered base n ∈ taken then firstFree base taken tries (n + 1) else numbered base n

/-- A name that is not taken: the given one, or else with the first number from 2 on that makes
it free. -/
def uniqueName (base : String) (taken : List String) : String :=
  if base ∈ taken then firstFree base taken taken.length 2 else base

/-- The name that a node's class is made from. -/
def baseName (elementName tag : String) : String :=
  let fromName := Text.slug elementName
  let fromTag := Text.slug tag
  if fromName ≠ "" then fromName else if fromTag ≠ "" then fromTag else "element"

mutual

/-- A node without classes. -/
def plain : MarkupNode → StyledNode
  | ⟨tag, name, attributes, styles, content, children⟩ =>
      { tag := tag
        elementName := name
        attributes := attributes
        content := content
        declarations := Markup.declarations styles
        className := none
        children := plainList children }

def plainList : List MarkupNode → List StyledNode
  | [] => []
  | node :: rest => plain node :: plainList rest

end

/-- The class of a node, given the classes that are taken. -/
def classFor? (taken : List String) (tag name : String) (declarations : List (String × String)) :
    Option String :=
  if Markup.isTag tag && !declarations.isEmpty then some (uniqueName (baseName name tag) taken)
  else none

mutual

/-- Give a node and those below it their classes.  The result holds the classes taken by then. -/
def assign (taken : List String) : MarkupNode → List String × StyledNode
  | ⟨tag, name, attributes, styles, content, children⟩ =>
      let declarations := Markup.declarations styles
      let className := classFor? taken tag name declarations
      let taken := className.toList ++ taken
      let (taken, children) :=
        if Markup.isVoid tag then (taken, plainList children) else assignList taken children
      (taken, ⟨tag, name, attributes, content, declarations, className, children⟩)

def assignList (taken : List String) : List MarkupNode → List String × List StyledNode
  | [] => (taken, [])
  | node :: rest =>
      let (taken, node) := assign taken node
      let (taken, rest) := assignList taken rest
      (taken, node :: rest)

end

/-- The nodes with their classes. -/
def ofNodes (nodes : List MarkupNode) : List StyledNode :=
  (assignList [] nodes).2

mutual

/-- The nodes of a tree, parents first. -/
def preorder : StyledNode → List StyledNode
  | ⟨tag, name, attributes, content, declarations, className, children⟩ =>
      ⟨tag, name, attributes, content, declarations, className, children⟩ :: preorderList children

def preorderList : List StyledNode → List StyledNode
  | [] => []
  | node :: rest => node.preorder ++ preorderList rest

end

/-- The class of each node, parents first. -/
def classNames (nodes : List StyledNode) : List (Option String) :=
  (preorderList nodes).map StyledNode.className

end StyledNode
end DesignMarkup
