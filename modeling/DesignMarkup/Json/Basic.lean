import DesignMarkup.Decimal.Double
import DesignMarkup.OrderedMap

/-!
JSON trees.  A tree holds what was written: the members of an object in order, repeated names
included, and a mark for each part that has the form of a value but denotes none.  A plain value,
obtained by `Json.value?`, has no such marks and no repeated names.
-/

namespace DesignMarkup

/-- A number: a whole number of the ranges `-2 ^ 63 ≤ n < 2 ^ 64`, or a binary one. -/
inductive Number where
  | integer (value : Int)
  | double (value : Double)
deriving DecidableEq, Repr, Inhabited

/-- A JSON tree.  `unreadable` stands for a part of the right form without a value: a text with a
lone surrogate, a number out of range, an object with such a name, or an array or object that lies
too deep. -/
inductive Json where
  | null
  | bool (value : Bool)
  | number (value : Number)
  | string (value : String)
  | array (items : List Json)
  | object (members : List (String × Json))
  | unreadable
deriving Inhabited

namespace Json

mutual

/-- The plain value of a tree.  A repeated name keeps its first place and its last value; a tree
with an unreadable part has none. -/
def value? : Json → Option Json
  | .null => some .null
  | .bool b => some (.bool b)
  | .number n => some (.number n)
  | .string s => some (.string s)
  | .array items => (itemValues? items).map .array
  | .object members =>
      (memberValues? members).map fun ms => .object (OrderedMap.ofList ms).entries
  | .unreadable => none

def itemValues? : List Json → Option (List Json)
  | [] => some []
  | item :: rest =>
      match value? item, itemValues? rest with
      | some v, some vs => some (v :: vs)
      | _, _ => none

def memberValues? : List (String × Json) → Option (List (String × Json))
  | [] => some []
  | (name, item) :: rest =>
      match value? item, memberValues? rest with
      | some v, some vs => some ((name, v) :: vs)
      | _, _ => none

end

/-- No part of the tree is unreadable. -/
def isReadable (j : Json) : Bool :=
  j.value?.isSome

mutual

/-- The number of arrays and objects around the deepest part, itself counted. -/
def nesting : Json → Nat
  | .array items => nestingItems items + 1
  | .object members => nestingMembers members + 1
  | _ => 0

def nestingItems : List Json → Nat
  | [] => 0
  | item :: rest => max (nesting item) (nestingItems rest)

def nestingMembers : List (String × Json) → Nat
  | [] => 0
  | (_, item) :: rest => max (nesting item) (nestingMembers rest)

end

/-- The deepest nesting of arrays and objects that a text may have. -/
def maxNesting : Nat :=
  127

/-- An object whose absent members are left out. -/
def ofFields (fields : List (String × Option Json)) : Json :=
  .object (fields.filterMap fun field => field.2.map (Prod.mk field.1))

/-- An object of texts. -/
def ofTexts (texts : OrderedMap String String) : Json :=
  .object (texts.entries.map fun entry => (entry.1, .string entry.2))

end Json
end DesignMarkup
