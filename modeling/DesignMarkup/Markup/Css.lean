import DesignMarkup.Markup.Styled

/-!
Style sheets: a rule for each node that has a class, parents first.
-/

namespace DesignMarkup

/-- The declarations for one class. -/
structure StyleRule where
  className : String
  declarations : List (String × String)
deriving DecidableEq, Repr

namespace StyleRule

/-- A declaration on a line of its own. -/
def declarationChars (declaration : String × String) : List Char :=
  ' ' :: ' ' :: (declaration.1.toList ++ ':' :: ' ' :: (declaration.2.toList ++ [';', '\n']))

def chars (rule : StyleRule) : List Char :=
  '.' :: (rule.className.toList ++ ' ' :: '\x7b' :: '\n' ::
    (rule.declarations.flatMap declarationChars ++ ['\x7d']))

/-- Rules as one text, with an empty line between them. -/
def sheet (rules : List StyleRule) : String :=
  String.ofList (List.intercalate ['\n', '\n'] (rules.map chars))

end StyleRule

namespace StyledNode

/-- The rule of a node that has a class. -/
def rule? (node : StyledNode) : Option StyleRule :=
  node.className.map (⟨·, node.declarations⟩)

/-- The rules of nodes, parents first. -/
def rules (nodes : List StyledNode) : List StyleRule :=
  (preorderList nodes).filterMap rule?

/-- The style sheet of styled nodes. -/
def css (nodes : List StyledNode) : String :=
  StyleRule.sheet (rules nodes)

end StyledNode
end DesignMarkup
