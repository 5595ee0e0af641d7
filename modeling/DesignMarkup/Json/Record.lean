import DesignMarkup.Json.Reader
import DesignMarkup.Json.Writer

/-!
Records in JSON trees.  A record is an object, of which only the members with the record's field
names matter and none of these may be repeated, or an array of the fields in their order, of which
the last ones may be missing.
-/

namespace DesignMarkup.Json

/-- The fields that were written for a record, and whether by position. -/
structure Record where
  fields : List (String × Json)
  positional : Bool

/-- The fields of a record with the given field names. -/
def record? (names : List String) : Json → Option Record
  | .object members =>
      let known := members.filter fun member => member.1 ∈ names
      if (known.map Prod.fst).Nodup then some ⟨known, false⟩ else none
  | .array items =>
      if items.length ≤ names.length then some ⟨names.zip items, true⟩ else none
  | _ => none

namespace Record

variable {α : Type}

/-- A field that must be there. -/
def required (r : Record) (name : String) (read : Json → Option α) : Option α :=
  (OrderedMap.lookup name r.fields).bind read

/-- A field with a value for its absence. -/
def withDefault (r : Record) (name : String) (default : α) (read : Json → Option α) : Option α :=
  match OrderedMap.lookup name r.fields with
  | none => some default
  | some j => read j

/-- A field that may be absent or `null`. -/
def optional (r : Record) (name : String) (read : Json → Option α) : Option (Option α) :=
  match OrderedMap.lookup name r.fields with
  | none => some none
  | some .null => some none
  | some j => (read j).map some

/-- A field that may be `null`, and absent unless fields are told apart by their position. -/
def nullable (r : Record) (name : String) (read : Json → Option α) : Option (Option α) :=
  if r.positional && (OrderedMap.lookup name r.fields).isNone then none else r.optional name read

end Record

/-- A text. -/
def text? : Json → Option String
  | .string s => some s
  | _ => none

def bool? : Json → Option Bool
  | .bool b => some b
  | _ => none

/-- A whole number of 64 bits with a sign. -/
def int64? : Json → Option Int64
  | .number (.integer n) =>
      if -(Nat.pow 2 63 : Int) ≤ n ∧ n < Nat.pow 2 63 then some (Int64.ofInt n) else none
  | _ => none

/-- A whole number of 64 bits without a sign. -/
def uint64? : Json → Option UInt64
  | .number (.integer n) => if 0 ≤ n ∧ n < Nat.pow 2 64 then some (UInt64.ofNat n.toNat) else none
  | _ => none

/-- An array of values of one kind. -/
def list? {α : Type} (read : Json → Option α) : Json → Option (List α)
  | .array items => items.mapM read
  | _ => none

/-- An object of texts; a repeated name keeps its first place and its last value. -/
def texts? : Json → Option (OrderedMap String String)
  | .object members =>
      (members.mapM fun member => (text? member.2).map (member.1, ·)).map OrderedMap.ofList
  | _ => none

def ofInt64 (n : Int64) : Json :=
  .number (.integer n.toInt)

def ofUInt64 (n : UInt64) : Json :=
  .number (.integer n.toNat)

/-- How the lack of a payload may be written: as `null` only, or also as an object without
members. -/
inductive NoPayload where
  | null
  | nullOrObject
deriving DecidableEq, Repr

/-- A tree is an accepted way to write that there is no payload. -/
def NoPayload.accepts : NoPayload → Json → Bool
  | _, .null => true
  | .nullOrObject, .object [] => true
  | _, _ => false

end DesignMarkup.Json
