import DesignMarkup.Json.Number
import DesignMarkup.Json.Text

/-!
Writing JSON texts, without spaces or indented by two of them for each level.  A tree keeps its
order; an unreadable part, which has no text, is written as `null`.
-/

namespace DesignMarkup.Json

mutual

/-- The text of a tree without spaces. -/
def compactChars : Json → List Char
  | .null => ['n', 'u', 'l', 'l']
  | .bool true => ['t', 'r', 'u', 'e']
  | .bool false => ['f', 'a', 'l', 's', 'e']
  | .number n => n.chars
  | .string s => literal s
  | .array items => '[' :: (compactItems items ++ [']'])
  | .object members => '\x7b' :: (compactMembers members ++ ['\x7d'])
  | .unreadable => ['n', 'u', 'l', 'l']

def compactItems : List Json → List Char
  | [] => []
  | [item] => compactChars item
  | item :: rest => compactChars item ++ ',' :: compactItems rest

def compactMembers : List (String × Json) → List Char
  | [] => []
  | [(name, item)] => literal name ++ ':' :: compactChars item
  | (name, item) :: rest => literal name ++ ':' :: (compactChars item ++ ',' :: compactMembers rest)

end

/-- The text of a tree without spaces. -/
def compact (j : Json) : String :=
  String.ofList j.compactChars

/-- The start of a line at a level of nesting. -/
def newLine (level : Nat) : List Char :=
  '\n' :: List.replicate (2 * level) ' '

mutual

/-- The text of a tree with a line for each item and member. -/
def indentedChars (level : Nat) : Json → List Char
  | .null => ['n', 'u', 'l', 'l']
  | .bool true => ['t', 'r', 'u', 'e']
  | .bool false => ['f', 'a', 'l', 's', 'e']
  | .number n => n.chars
  | .string s => literal s
  | .array [] => ['[', ']']
  | .array (item :: items) =>
      '[' :: (indentedItems (level + 1) (item :: items) ++ newLine level ++ [']'])
  | .object [] => ['\x7b', '\x7d']
  | .object (member :: members) =>
      '\x7b' :: (indentedMembers (level + 1) (member :: members) ++ newLine level ++ ['\x7d'])
  | .unreadable => ['n', 'u', 'l', 'l']

def indentedItems (level : Nat) : List Json → List Char
  | [] => []
  | [item] => newLine level ++ indentedChars level item
  | item :: rest => newLine level ++ indentedChars level item ++ ',' :: indentedItems level rest

def indentedMembers (level : Nat) : List (String × Json) → List Char
  | [] => []
  | [(name, item)] => newLine level ++ literal name ++ ':' :: ' ' :: indentedChars level item
  | (name, item) :: rest =>
      newLine level ++ literal name ++ ':' :: ' ' :: (indentedChars level item
        ++ ',' :: indentedMembers level rest)

end

/-- The text of a tree with a line for each item and member. -/
def indented (j : Json) : String :=
  String.ofList (j.indentedChars 0)

end DesignMarkup.Json
