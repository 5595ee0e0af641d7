import DesignMarkup.Json.Basic

/-!
Paths into settings.  A path names a member and then members and items below it, as in
`export.version` or `list[0].name`.  Names count in lower case.  Setting a value along a path makes
the objects and arrays that it needs.
-/

namespace DesignMarkup
namespace Settings

/-- One step of a path: to a member, or to an item counted from the front or, when negative, from
the back. -/
inductive PathStep where
  | member (name : String)
  | item (index : Int)
deriving DecidableEq, Repr

/-- The characters of a name in a path. -/
def isNameChar (c : Char) : Bool :=
  c.isAlphanum || c == ' ' || c == '_' || c == '-'

/-- A name at the front of a text and what follows it. -/
def readName? (cs : List Char) : Option (String × List Char) :=
  match cs.span isNameChar with
  | ([], _) => none
  | (name, rest) => some (String.ofList name, rest)

/-- The characters that may stand around the index of an item. -/
def isIndexSpace (c : Char) : Bool :=
  c == ' ' || c == '\t'

/-- The index of an item up to its closing bracket. -/
def readIndex? (cs : List Char) : Option (Int × List Char) :=
  let cs := cs.dropWhile isIndexSpace
  let (negative, cs) : Bool × List Char :=
    match cs with
    | '-' :: rest => (true, rest)
    | rest => (false, rest)
  match cs.span Char.isDigit with
  | ([], _) => none
  | (digits, rest) =>
      let n : Int := Nat.ofDigitChars 10 digits 0
      let index := if negative then -n else n
      match rest.dropWhile isIndexSpace with
      | ']' :: rest =>
          if -(Nat.pow 2 63 : Int) ≤ index ∧ index < Nat.pow 2 63 then some (index, rest) else none
      | _ => none

/-- The steps after the first one, up to the end of the text. -/
def readSteps? : (fuel : Nat) → List Char → Option (List PathStep)
  | _, [] => some []
  | fuel + 1, '.' :: rest => do
      let (name, rest) ← readName? rest
      return .member name :: (← readSteps? fuel rest)
  | fuel + 1, '[' :: rest => do
      let (index, rest) ← readIndex? rest
      return .item index :: (← readSteps? fuel rest)
  | _, _ => none

/-- The steps of a path; a text that is no path is a name as a whole. -/
def pathSteps (s : String) : List PathStep :=
  let steps : Option (List PathStep) := do
    let (name, rest) ← readName? s.toList
    return .member name :: (← readSteps? rest.length rest)
  steps.getD [.member s]

/-- The members of an object; any other value is taken for one without members. -/
def membersOf : Json → List (String × Json)
  | .object members => members
  | _ => []

/-- The items of an array; any other value is taken for one without items. -/
def itemsOf : Json → List Json
  | .array items => items
  | _ => []

mutual

/-- Set a member of an object.  An object is merged into the one that is there, member by member;
any other value takes its place. -/
def mergeMember (name : String) (root : Json) : Json → Json
  | .object incoming =>
      let members := membersOf root
      let target := (OrderedMap.lookup name.toLower members).getD (.object [])
      .object (OrderedMap.put name.toLower (mergeMembers target incoming) members)
  | value => .object (OrderedMap.put name.toLower value (membersOf root))

def mergeMembers (root : Json) : List (String × Json) → Json
  | [] => root
  | (name, value) :: rest => mergeMembers (mergeMember name root value) rest

end

/-- Items filled up with `null` until an index stands for one of them: behind them for an index
that counts from the front, else before them. -/
def fillTo (index : Int) (items : List Json) : List Json :=
  if 0 ≤ index then items ++ List.replicate (index.toNat + 1 - items.length) .null
  else List.replicate (index.natAbs - items.length) .null ++ items

/-- The place in an array of a given length that an index stands for. -/
def itemPlace (index : Int) (length : Nat) : Nat :=
  if 0 ≤ index then index.toNat else length - index.natAbs

/-- Change the item at an index of an array, which is filled up if it is too short. -/
def changeItem (index : Int) (change : Json → Json) (root : Json) : Json :=
  let items := fillTo index (itemsOf root)
  .array (items.modify (itemPlace index items.length) change)

/-- Set the value at the end of a path. -/
def setPath (value : Json) : List PathStep → Json → Json
  | [], _ => value
  | [.member name], root => mergeMember name root value
  | .member name :: rest, root =>
      let members := membersOf root
      let target := (OrderedMap.lookup name.toLower members).getD .null
      .object (OrderedMap.put name.toLower (setPath value rest target) members)
  | .item index :: rest, root => changeItem index (setPath value rest) root

end Settings
end DesignMarkup
