import DesignMarkup.Json.Number
import DesignMarkup.Json.Text

/-!
Reading JSON texts.  The reader follows the grammar at any depth; an array or object that lies
deeper than `Json.maxNesting` is checked for its form only and yields an unreadable part.
-/

namespace DesignMarkup.Json

/-- The four characters that may stand between the parts of a text. -/
def isSpace (c : Char) : Bool :=
  c = ' ' || c = '\n' || c = '\t' || c = '\r'

/-- A text without the spaces at its front. -/
def skipSpace (cs : List Char) : List Char :=
  cs.dropWhile isSpace

/-- An array or object inside `level` others. -/
def atLevel (level : Nat) (j : Json) : Json :=
  if level < maxNesting then j else .unreadable

/-- A text literal as a tree. -/
def ofLiteral : Option String → Json
  | some s => .string s
  | none => .unreadable

/-- Members as an object, if all of their names have a value. -/
def ofMembers (members : List (Option String × Json)) : Json :=
  match members.mapM fun member => member.1.map (·, member.2) with
  | some members => .object members
  | none => .unreadable

mutual

/-- A value at the front of a text, inside `level` arrays and objects, and what follows it. -/
def readValue : (fuel level : Nat) → List Char → Option (Json × List Char)
  | 0, _, _ => none
  | fuel + 1, level, cs =>
      match skipSpace cs with
      | 'n' :: 'u' :: 'l' :: 'l' :: rest => some (.null, rest)
      | 't' :: 'r' :: 'u' :: 'e' :: rest => some (.bool true, rest)
      | 'f' :: 'a' :: 'l' :: 's' :: 'e' :: rest => some (.bool false, rest)
      | '"' :: rest => (readLiteral rest).map fun (s, rest) => (ofLiteral s, rest)
      | '[' :: rest =>
          match skipSpace rest with
          | ']' :: rest => some (atLevel level (.array []), rest)
          | rest =>
              (readItems fuel (level + 1) rest).map fun (items, rest) =>
                (atLevel level (.array items), rest)
      | '\x7b' :: rest =>
          match skipSpace rest with
          | '\x7d' :: rest => some (atLevel level (.object []), rest)
          | rest =>
              (readMembers fuel (level + 1) rest).map fun (members, rest) =>
                (atLevel level (ofMembers members), rest)
      | rest =>
          (Number.readLiteral rest).map fun (l, rest) =>
            (match Number.ofLiteral? l with
              | some n => .number n
              | none => .unreadable, rest)

/-- The items of an array, of which there is at least one, up to its end. -/
def readItems : (fuel level : Nat) → List Char → Option (List Json × List Char)
  | 0, _, _ => none
  | fuel + 1, level, cs =>
      match readValue fuel level cs with
      | none => none
      | some (item, rest) =>
          match skipSpace rest with
          | ',' :: rest =>
              (readItems fuel level rest).map fun (items, rest) => (item :: items, rest)
          | ']' :: rest => some ([item], rest)
          | _ => none

/-- The members of an object, of which there is at least one, up to its end. -/
def readMembers :
    (fuel level : Nat) → List Char → Option (List (Option String × Json) × List Char)
  | 0, _, _ => none
  | fuel + 1, level, cs =>
      match skipSpace cs with
      | '"' :: rest =>
          match readLiteral rest with
          | none => none
          | some (name, rest) =>
              match skipSpace rest with
              | ':' :: rest =>
                  match readValue fuel level rest with
                  | none => none
                  | some (item, rest) =>
                      match skipSpace rest with
                      | ',' :: rest =>
                          (readMembers fuel level rest).map fun (members, rest) =>
                            ((name, item) :: members, rest)
                      | '\x7d' :: rest => some ([(name, item)], rest)
                      | _ => none
              | _ => none
      | _ => none

end

/-- The tree of a text that is one value with spaces around it. -/
def readChars? (cs : List Char) : Option Json :=
  match readValue (cs.length + 1) 0 cs with
  | some (j, rest) => if (skipSpace rest).isEmpty then some j else none
  | none => none

/-- The tree of a text that is one value with spaces around it. -/
def read? (s : String) : Option Json :=
  readChars? s.toList

/-- The plain value that a text denotes. -/
def readValue? (s : String) : Option Json :=
  (read? s).bind value?

end DesignMarkup.Json
