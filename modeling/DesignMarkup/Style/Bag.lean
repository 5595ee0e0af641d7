import DesignMarkup.Json.Record
import DesignMarkup.Style.Schema

/-!
Bags of optional texts over a fixed list of keys.  The order of a bag is that of its keys, however
it was filled.
-/

namespace DesignMarkup

/-- An optional text for each of the given keys. -/
structure Bag (keys : List String) where
  values : List (Option String)
  length_values : values.length = keys.length
deriving DecidableEq

/-- The styles of an element. -/
abbrev StyleBag := Bag Style.keys

/-- The way a container arranges its children. -/
abbrev LayoutBag := Bag Style.layoutKeys

namespace Bag

variable {keys : List String}

/-- The bag whose text under each key is given by a function. -/
def ofFn (value : String → Option String) : Bag keys :=
  ⟨keys.map value, by simp⟩

/-- The bag without texts. -/
def empty : Bag keys :=
  ofFn fun _ => none

instance : Inhabited (Bag keys) :=
  ⟨empty⟩

/-- The text under a key; there is none outside the list of keys. -/
def get? (bag : Bag keys) (key : String) : Option String :=
  ((keys.zip bag.values).lookup key).join

/-- Set the text under a key of the list. -/
def set? (bag : Bag keys) (key value : String) : Option (Bag keys) :=
  (keys.idxOf? key).map fun i =>
    ⟨bag.values.set i (some value), by simp [bag.length_values]⟩

/-- The keys that have a text, with it, in the order of the list. -/
def entries (bag : Bag keys) : List (String × String) :=
  (keys.zip bag.values).filterMap fun slot => slot.2.map (slot.1, ·)

def isEmpty (bag : Bag keys) : Bool :=
  bag.entries.isEmpty

/-- The bag as an object of its entries. -/
def toJson (bag : Bag keys) : Json :=
  .object (bag.entries.map fun entry => (entry.1, .string entry.2))

/-- A bag is a record all of whose fields are optional texts. -/
def ofJson? (j : Json) : Option (Bag keys) := do
  let r ← j.record? keys
  if keys.all fun key => (r.optional key Json.text?).isSome then
    return ofFn fun key => (r.optional key Json.text?).join
  else none

end Bag
end DesignMarkup
