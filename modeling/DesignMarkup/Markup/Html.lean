import DesignMarkup.Markup.Escape
import DesignMarkup.Markup.Styled

/-!
HTML.  An element without children takes one line, any other an opening and a closing line with
its children in between.  A node whose tag is none is left out and its children take its place.
-/

namespace DesignMarkup
namespace StyledNode

/-- The value of the class attribute: the given class, then what the node itself asks for. -/
def classValue (className : String) (attributes : Properties) : String :=
  let own := Text.trim ((attributes.find? "class").getD "")
  if own = "" then className else className ++ " " ++ own

/-- The attributes that are written for an element.  Those without a proper name are left out. -/
def writtenAttributes (className : Option String) (attributes : Properties) :
    List (String × String) :=
  match className with
  | some c =>
      ("class", classValue c attributes) :: attributes.entries.filter fun entry =>
        entry.1 ≠ "class" && Markup.isAttributeName entry.1
  | none => attributes.entries.filter fun entry => Markup.isAttributeName entry.1

/-- An attribute with the space before it. -/
def attributeChars (entry : String × String) : List Char :=
  ' ' :: (entry.1.toList ++ '=' :: '"' :: (Markup.escapeChars entry.2.toList ++ ['"']))

/-- The opening of an element. -/
def openTag (tag : String) (className : Option String) (attributes : Properties) : List Char :=
  '<' :: (tag.toList ++ (writtenAttributes className attributes).flatMap attributeChars ++ ['>'])

/-- The closing of an element. -/
def closeTag (tag : String) : List Char :=
  '<' :: '/' :: (tag.toList ++ ['>'])

/-- The text of an element without children: its content, or its name when that is blank. -/
def ownText (content : Option String) (elementName : String) : String :=
  Text.trim ((content.filter fun text => !Text.isBlankText text).getD elementName)

/-- The space at the front of a line. -/
def indentation (level : Nat) : List Char :=
  List.replicate (2 * level) ' '

mutual

/-- The lines of a node. -/
def lines (level : Nat) : StyledNode → List (List Char)
  | ⟨tag, name, attributes, content, _, className, children⟩ =>
      let opening := indentation level ++ openTag tag className attributes
      if !Markup.isTag tag then linesOfList level children
      else if Markup.isVoid tag then [opening]
      else if children.isEmpty then
        [opening ++ Markup.escapeChars (ownText content name).toList ++ closeTag tag]
      else
        opening :: (linesOfList (level + 1) children ++ [indentation level ++ closeTag tag])

def linesOfList (level : Nat) : List StyledNode → List (List Char)
  | [] => []
  | node :: rest => node.lines level ++ linesOfList level rest

end

/-- The markup of styled nodes. -/
def html (nodes : List StyledNode) : String :=
  String.ofList (List.intercalate ['\n'] (linesOfList 0 nodes))

end StyledNode
end DesignMarkup
