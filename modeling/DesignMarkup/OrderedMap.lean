/-!
Maps that keep the order in which their keys were first inserted.  The list of entries is the
view that the laws are about: inserting under a known key changes the value in its place, any
other insertion goes to the end.
-/

namespace DesignMarkup

universe u v

/-- A finite map whose entries keep the order of insertion. -/
structure OrderedMap (K : Type u) (V : Type v) where
  entries : List (K × V)
  keys_nodup : (entries.map Prod.fst).Nodup
deriving DecidableEq

namespace OrderedMap

variable {K : Type u} {V : Type v} [DecidableEq K]

/-- The first value listed under a key. -/
def lookup (key : K) : List (K × V) → Option V
  | [] => none
  | entry :: rest => if entry.1 = key then some entry.2 else lookup key rest

/-- Entries with a value set under a key: in its place if the key is listed, else at the end. -/
def put (key : K) (value : V) : List (K × V) → List (K × V)
  | [] => [(key, value)]
  | entry :: rest =>
      if entry.1 = key then (key, value) :: rest else entry :: put key value rest

theorem keys_put (key : K) (value : V) (entries : List (K × V)) :
    (put key value entries).map Prod.fst =
      if key ∈ entries.map Prod.fst then entries.map Prod.fst
      else entries.map Prod.fst ++ [key] := by
  induction entries with
  | nil => rfl
  | cons entry rest ih =>
      by_cases h : entry.1 = key
      · simp [put, h]
      · have h' : key ≠ entry.1 := fun e => h e.symm
        by_cases hr : key ∈ rest.map Prod.fst <;> simp_all [put]

theorem keys_nodup_put (key : K) (value : V) {entries : List (K × V)}
    (h : (entries.map Prod.fst).Nodup) : ((put key value entries).map Prod.fst).Nodup := by
  rw [keys_put]
  split
  · exact h
  · rename_i hkey
    rw [List.nodup_append]
    refine ⟨h, by simp, ?_⟩
    intro a ha b hb hab
    simp only [List.mem_singleton] at hb
    exact hkey (hb ▸ hab ▸ ha)

/-- The map without entries. -/
def empty : OrderedMap K V :=
  ⟨[], by simp⟩

instance : Inhabited (OrderedMap K V) :=
  ⟨empty⟩

/-- The keys in order. -/
def keys (m : OrderedMap K V) : List K :=
  m.entries.map Prod.fst

/-- The values in the order of their keys. -/
def values (m : OrderedMap K V) : List V :=
  m.entries.map Prod.snd

def size (m : OrderedMap K V) : Nat :=
  m.entries.length

def isEmpty (m : OrderedMap K V) : Bool :=
  m.entries.isEmpty

/-- The value under a key. -/
def find? (m : OrderedMap K V) (key : K) : Option V :=
  lookup key m.entries

def contains (m : OrderedMap K V) (key : K) : Bool :=
  (m.find? key).isSome

/-- Set the value under a key; a new key goes last. -/
def insert (m : OrderedMap K V) (key : K) (value : V) : OrderedMap K V :=
  ⟨put key value m.entries, keys_nodup_put key value m.keys_nodup⟩

/-- Set the value under a key that has none yet. -/
def insertIfNew (m : OrderedMap K V) (key : K) (value : V) : OrderedMap K V :=
  if m.contains key then m else m.insert key value

/-- Keep the entries that pass a test. -/
def filter (m : OrderedMap K V) (keep : K → V → Bool) : OrderedMap K V where
  entries := m.entries.filter fun entry => keep entry.1 entry.2
  keys_nodup := m.keys_nodup.sublist (List.filter_sublist.map Prod.fst)

/-- Drop the entry under a key; the others keep their order. -/
def erase (m : OrderedMap K V) (key : K) : OrderedMap K V :=
  m.filter fun k _ => k ≠ key

/-- Insert entries one after the other. -/
def insertAll (m : OrderedMap K V) (entries : List (K × V)) : OrderedMap K V :=
  entries.foldl (fun m entry => m.insert entry.1 entry.2) m

/-- The map built by inserting entries one after the other. -/
def ofList (entries : List (K × V)) : OrderedMap K V :=
  empty.insertAll entries

theorem keys_insert (m : OrderedMap K V) (key : K) (value : V) :
    (m.insert key value).keys = if key ∈ m.keys then m.keys else m.keys ++ [key] :=
  keys_put key value m.entries

theorem lookup_put (key other : K) (value : V) (entries : List (K × V)) :
    lookup other (put key value entries) =
      if key = other then some value else lookup other entries := by
  induction entries with
  | nil => rfl
  | cons entry rest ih =>
      by_cases h : entry.1 = key
      · subst h
        by_cases ho : entry.1 = other <;> simp [put, lookup, ho]
      · by_cases ho : entry.1 = other
        · subst ho
          have h' : key ≠ entry.1 := fun e => h e.symm
          simp [put, lookup, h, h']
        · simp [put, lookup, h, ho, ih]

@[simp] theorem find?_insert (m : OrderedMap K V) (key other : K) (value : V) :
    (m.insert key value).find? other = if key = other then some value else m.find? other :=
  lookup_put key other value m.entries

@[simp] theorem find?_empty (key : K) : (empty : OrderedMap K V).find? key = none :=
  rfl

end OrderedMap
end DesignMarkup
