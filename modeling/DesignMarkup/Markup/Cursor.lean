import DesignMarkup.Markup.Code

/-!
Code by position.  The classes of all nodes stand in one list, parents first.  The markup and the
style sheet are written in walks of their own, and each looks a class up at the count of nodes it
has passed.
-/

namespace DesignMarkup
namespace MarkupNode

mutual

/-- The number of nodes of a tree. -/
def size : MarkupNode → Nat
  | ⟨_, _, _, _, _, children⟩ => sizeOfList children + 1

def sizeOfList : List MarkupNode → Nat
  | [] => 0
  | node :: rest => node.size + sizeOfList rest

end

mutual

/-- The classes taken after a node, and the class of each node of its tree.  Below a void element a
place is kept for every node. -/
def nameClasses (taken : List String) : MarkupNode → List String × List (Option String)
  | ⟨tag, name, _, styles, _, children⟩ =>
      let own := StyledNode.classFor? taken tag name (Markup.declarations styles)
      let taken := own.toList ++ taken
      let (taken, below) :=
        if Markup.isTag tag && Markup.isVoid tag then
          (taken, List.replicate (sizeOfList children) none)
        else nameClassesOfList taken children
      (taken, own :: below)

def nameClassesOfList (taken : List String) :
    List MarkupNode → List String × List (Option String)
  | [] => (taken, [])
  | node :: rest =>
      let (taken, first) := node.nameClasses taken
      let (taken, others) := nameClassesOfList taken rest
      (taken, first ++ others)

end

section Walks

variable (classes : List (Option String))

/-- The class of the node at a position. -/
def classAt? (position : Nat) : Option String :=
  classes[position]?.getD none

mutual

/-- The position after the tree of a node, and the lines of its markup. -/
def linesFrom (level position : Nat) : MarkupNode → Nat × List (List Char)
  | ⟨tag, name, attributes, _, content, children⟩ =>
      let opening := StyledNode.indentation level
        ++ StyledNode.openTag tag (classAt? classes position) attributes
      if !Markup.isTag tag then linesOfListFrom level (position + 1) children
      else if Markup.isVoid tag then (position + 1 + sizeOfList children, [opening])
      else if children.isEmpty then
        (position + 1,
          [opening ++ Markup.escapeChars (StyledNode.ownText content name).toList
            ++ StyledNode.closeTag tag])
      else
        let (position, inner) := linesOfListFrom (level + 1) (position + 1) children
        (position,
          opening :: (inner ++ [StyledNode.indentation level ++ StyledNode.closeTag tag]))

def linesOfListFrom (level position : Nat) : List MarkupNode → Nat × List (List Char)
  | [] => (position, [])
  | node :: rest =>
      let (position, first) := node.linesFrom level position
      let (position, others) := linesOfListFrom level position rest
      (position, first ++ others)

end

mutual

/-- The position after the tree of a node, and the rules for its nodes. -/
def rulesFrom (position : Nat) : MarkupNode → Nat × List StyleRule
  | ⟨_, _, _, styles, _, children⟩ =>
      let own := (classAt? classes position).map (⟨·, Markup.declarations styles⟩)
      let (position, below) := rulesOfListFrom (position + 1) children
      (position, own.toList ++ below)

def rulesOfListFrom (position : Nat) : List MarkupNode → Nat × List StyleRule
  | [] => (position, [])
  | node :: rest =>
      let (position, first) := node.rulesFrom position
      let (position, others) := rulesOfListFrom position rest
      (position, first ++ others)

end

end Walks

end MarkupNode

/-- Markup and style sheet of nodes, each with the classes at the positions of its own walk. -/
def GeneratedCode.byPosition (nodes : List MarkupNode) : GeneratedCode :=
  let classes := (MarkupNode.nameClassesOfList [] nodes).2
  { html := String.ofList
      (List.intercalate ['\n'] (MarkupNode.linesOfListFrom classes 0 0 nodes).2)
    css := StyleRule.sheet (MarkupNode.rulesOfListFrom classes 0 nodes).2 }

end DesignMarkup
