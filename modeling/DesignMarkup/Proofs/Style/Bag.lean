import DesignMarkup.Proofs.Json.Fields
import DesignMarkup.Style.Bag

/-!
Bags as maps.  A bag is told by what it has under its keys; setting, listing, writing and reading
it are all said in these terms.
-/

namespace DesignMarkup

open OrderedMap (lookup)
open Json (present lookup_present keys_present_sublist)

namespace Style

theorem index?_getElem {place : Nat} (h : place < keys.length) : index? keys[place] = some place := by
  refine List.idxOf?_eq_some_iff.mpr ⟨h, rfl, fun earlier hlt heq => ?_⟩
  exact absurd ((keys_nodup.getElem_inj_iff).mp heq) (Nat.ne_of_lt hlt)

/-- The known keys stand in the order of their places. -/
theorem pairwise_index?_keys : keys.Pairwise fun key next => index? key < index? next := by
  rw [List.pairwise_iff_getElem]
  intro place later hplace hlater hlt
  rw [index?_getElem, index?_getElem]
  exact hlt

theorem isSome_index?_iff {key : String} : (index? key).isSome = true ↔ key ∈ keys := by
  rw [index?, List.isSome_idxOf?]

end Style

namespace Bag

variable {keys : List String}

/-- The keys of a bag with the text that each has, if any. -/
def slots (bag : Bag keys) : List (String × Option String) :=
  keys.zip bag.values

theorem map_fst_slots (bag : Bag keys) : bag.slots.map Prod.fst = keys :=
  List.map_fst_zip (Nat.le_of_eq bag.length_values.symm)

theorem entries_eq_present (bag : Bag keys) : bag.entries = present bag.slots :=
  rfl

theorem get?_eq_lookup (bag : Bag keys) (key : String) :
    bag.get? key = (lookup key bag.slots).join := by
  rw [OrderedMap.lookup_eq]
  rfl

theorem mem_keys_of_get? {bag : Bag keys} {key text : String} (h : bag.get? key = some text) :
    key ∈ keys := by
  rw [get?_eq_lookup, Option.join_eq_some_iff] at h
  have hslot := List.mem_map_of_mem (f := Prod.fst) (OrderedMap.mem_of_lookup h)
  rwa [map_fst_slots] at hslot

theorem get?_of_not_mem {key : String} (h : key ∉ keys) (bag : Bag keys) : bag.get? key = none := by
  rw [Option.eq_none_iff_forall_ne_some]
  intro text htext
  exact h (mem_keys_of_get? htext)

theorem lookup_map_mk (value : String → Option String) (key : String) :
    (lookup key (keys.map fun key => (key, value key))).join =
      if key ∈ keys then value key else none := by
  induction keys with
  | nil => rfl
  | cons first rest ih =>
      by_cases hkey : first = key
      · simp [lookup, hkey]
      · simp [lookup, hkey, Ne.symm hkey, ih]

theorem get?_ofFn (value : String → Option String) (key : String) :
    (ofFn value : Bag keys).get? key = if key ∈ keys then value key else none := by
  rw [get?_eq_lookup, ← lookup_map_mk, List.map_prod_left_eq_zip]
  rfl

@[simp] theorem get?_empty (key : String) : (empty : Bag keys).get? key = none := by
  rw [empty, get?_ofFn, ite_self]

theorem map_lookup_zip {values : List (Option String)} (hnodup : keys.Nodup)
    (hlength : values.length = keys.length) :
    keys.map (fun key => (lookup key (keys.zip values)).join) = values := by
  induction keys generalizing values with
  | nil => exact (List.length_eq_zero_iff.mp hlength).symm
  | cons key rest ih =>
      cases values with
      | nil => simp at hlength
      | cons value more =>
          rw [List.nodup_cons] at hnodup
          have hrest :
              rest.map (fun other => (lookup other ((key :: rest).zip (value :: more))).join) =
                rest.map fun other => (lookup other (rest.zip more)).join := by
            apply List.map_congr_left
            intro other hmem
            have hne : key ≠ other := by
              rintro rfl
              exact hnodup.1 hmem
            simp [lookup, hne]
          rw [List.map_cons, hrest, ih hnodup.2 (by simpa using hlength)]
          simp [lookup]

/-- The values of a bag are those under its keys. -/
theorem map_get? (hnodup : keys.Nodup) (bag : Bag keys) : keys.map bag.get? = bag.values := by
  rw [← map_lookup_zip hnodup bag.length_values]
  exact List.map_congr_left fun key _ => bag.get?_eq_lookup key

theorem ext_values {left right : Bag keys} (h : left.values = right.values) : left = right := by
  cases left
  cases right
  cases h
  rfl

/-- A bag is determined by the texts under its keys. -/
theorem ofFn_get? (hnodup : keys.Nodup) (bag : Bag keys) : ofFn bag.get? = bag :=
  ext_values (map_get? hnodup bag)

/-- Setting a text under a known key changes what is found there; other keys are refused. -/
theorem set?_eq (hnodup : keys.Nodup) (bag : Bag keys) (key value : String) :
    bag.set? key value =
      if key ∈ keys then
        some (ofFn fun other => if key = other then some value else bag.get? other)
      else none := by
  cases hindex : keys.idxOf? key with
  | none =>
      have hkey : key ∉ keys := by
        rwa [List.idxOf?_eq_none_iff] at hindex
      simp [set?, hindex, hkey]
  | some place =>
      obtain ⟨hplace, rfl, -⟩ := List.idxOf?_eq_some_iff.mp hindex
      rw [set?, hindex, Option.map_some, if_pos (List.getElem_mem hplace)]
      apply congrArg some
      apply ext_values
      apply List.ext_getElem
      · simp [ofFn, bag.length_values]
      · intro i hset hkeys
        have hi : i < keys.length := by simpa [ofFn] using hkeys
        have hvalue := List.getElem_of_eq (map_get? hnodup bag).symm (by simpa using hset)
        rw [List.getElem_map] at hvalue
        simp only [List.getElem_set, ofFn, List.getElem_map, hnodup.getElem_inj_iff, hvalue]

/-- The entries of a bag stand in the order of its keys. -/
theorem map_fst_entries_sublist (bag : Bag keys) : (bag.entries.map Prod.fst).Sublist keys := by
  have hslots := keys_present_sublist bag.slots
  rwa [map_fst_slots] at hslots

theorem nodup_keys_entries (hnodup : keys.Nodup) (bag : Bag keys) :
    (bag.entries.map Prod.fst).Nodup :=
  hnodup.sublist bag.map_fst_entries_sublist

theorem lookup_entries (hnodup : keys.Nodup) (bag : Bag keys) (key : String) :
    lookup key bag.entries = bag.get? key := by
  rw [entries_eq_present, lookup_present key (by rwa [map_fst_slots]), get?_eq_lookup]

/-- The entries of a bag are the texts that it has. -/
theorem mem_entries_iff (hnodup : keys.Nodup) {bag : Bag keys} {key text : String} :
    (key, text) ∈ bag.entries ↔ bag.get? key = some text := by
  rw [← lookup_entries hnodup]
  exact ⟨OrderedMap.lookup_of_mem (nodup_keys_entries hnodup bag), OrderedMap.mem_of_lookup⟩

theorem isEmpty_iff (hnodup : keys.Nodup) {bag : Bag keys} :
    bag.isEmpty = true ↔ ∀ key, bag.get? key = none := by
  rw [isEmpty, List.isEmpty_iff, List.eq_nil_iff_forall_not_mem]
  constructor
  · intro h key
    rw [Option.eq_none_iff_forall_ne_some]
    intro text htext
    exact h (key, text) ((mem_entries_iff hnodup).mpr htext)
  · rintro h ⟨key, text⟩ hmem
    rw [mem_entries_iff hnodup, h key] at hmem
    cases hmem

theorem ofJson?_toJson (hnodup : keys.Nodup) (bag : Bag keys) :
    (ofJson? bag.toJson : Option (Bag keys)) = some bag := by
  have hrecord : bag.toJson.record? keys =
      some ⟨bag.entries.map fun entry => (entry.1, .string entry.2), false⟩ := by
    apply Json.record?_object
    · simpa [Function.comp_def] using nodup_keys_entries hnodup bag
    · intro member hmem
      obtain ⟨entry, hentry, rfl⟩ := List.mem_map.mp hmem
      exact bag.map_fst_entries_sublist.subset (List.mem_map_of_mem hentry)
  have hfield : ∀ key, Json.Record.optional
      ⟨bag.entries.map fun entry => (entry.1, .string entry.2), false⟩ key Json.text? =
        some (bag.get? key) := by
    intro key
    simp only [Json.Record.optional]
    rw [OrderedMap.lookup_map_snd Json.string, lookup_entries hnodup]
    cases bag.get? key <;> rfl
  rw [ofJson?, hrecord]
  simp [hfield, ofFn_get? hnodup]

theorem isFlat_toJson (bag : Bag keys) : bag.toJson.IsFlat :=
  .inr ⟨bag.entries, rfl⟩

/-- The text of a bag holds the bag. -/
theorem read_compact (hnodup : keys.Nodup) (bag : Bag keys) :
    (Json.read? bag.toJson.compact).bind ofJson? = some bag := by
  have hflat := bag.isFlat_toJson
  have hnesting : bag.toJson.nesting ≤ Json.maxNesting :=
    Nat.le_trans hflat.nesting_le (by decide)
  rw [Json.bind_read?_compact hflat.isExact hnesting, ofJson?_toJson hnodup]

end Bag

@[simp] theorem StyleBag.ofJson?_toJson (bag : StyleBag) : Bag.ofJson? bag.toJson = some bag :=
  Bag.ofJson?_toJson Style.keys_nodup bag

@[simp] theorem LayoutBag.ofJson?_toJson (bag : LayoutBag) : Bag.ofJson? bag.toJson = some bag :=
  Bag.ofJson?_toJson Style.layoutKeys_nodup bag

end DesignMarkup
