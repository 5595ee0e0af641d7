import DesignMarkup.OrderedMap
import Mathlib.Data.List.Induction
import Mathlib.Data.List.Nodup

/-!
Laws of ordered maps.  A map is determined by its entries, and lookup sees exactly these.
-/

namespace DesignMarkup

/-- Entries without repetition stand in the order of their first occurrences. -/
theorem pairwise_idxOf_eraseDups {α : Type} [DecidableEq α] (l : List α) :
    l.eraseDups.Pairwise fun x y => l.idxOf x < l.idxOf y := by
  induction l using List.reverseRecOn with
  | nil => exact .nil
  | append_singleton init last ih =>
      have hplace : ∀ x ∈ init.eraseDups, (init ++ [last]).idxOf x = init.idxOf x :=
        fun x hx => List.idxOf_append_of_mem (List.mem_eraseDups.mp hx)
      have hinit : init.eraseDups.Pairwise fun x y =>
          (init ++ [last]).idxOf x < (init ++ [last]).idxOf y := by
        refine ih.imp_of_mem fun hx hy hlt => ?_
        rwa [hplace _ hx, hplace _ hy]
      rw [List.eraseDups_append]
      by_cases hlast : last ∈ init
      · simpa [List.removeAll, hlast] using hinit
      · have hfresh : ([last].removeAll init).eraseDups = [last] := by
          simp [List.removeAll, hlast, List.eraseDups_cons]
        rw [hfresh, List.pairwise_append]
        refine ⟨hinit, List.pairwise_singleton _ _, ?_⟩
        intro x hx y hy
        obtain rfl := List.mem_singleton.mp hy
        have hlt := List.idxOf_lt_length_of_mem (List.mem_eraseDups.mp hx)
        simpa [hplace x hx, List.idxOf_append_of_notMem hlast] using hlt

theorem nodup_eraseDups {α : Type} [DecidableEq α] (l : List α) : l.eraseDups.Nodup := by
  refine (pairwise_idxOf_eraseDups l).imp fun hlt heq => ?_
  exact absurd (congrArg l.idxOf heq) (Nat.ne_of_lt hlt)

end DesignMarkup

namespace DesignMarkup.OrderedMap

universe u v

variable {K : Type u} {V : Type v} [DecidableEq K]

omit [DecidableEq K] in
theorem ext_entries {left right : OrderedMap K V} (h : left.entries = right.entries) :
    left = right := by
  cases left
  cases right
  cases h
  rfl

omit [DecidableEq K] in
theorem eq_empty_of_isEmpty {m : OrderedMap K V} (h : m.isEmpty = true) : m = .empty :=
  ext_entries (List.isEmpty_iff.mp h)

theorem lookup_eq_none_iff {key : K} {entries : List (K × V)} :
    lookup key entries = none ↔ key ∉ entries.map Prod.fst := by
  induction entries with
  | nil => simp [lookup]
  | cons entry rest ih =>
      by_cases hkey : entry.1 = key
      · simp [lookup, hkey]
      · have hkey' : key ≠ entry.1 := Ne.symm hkey
        simpa [lookup, hkey, hkey'] using ih

theorem mem_of_lookup {key : K} {value : V} {entries : List (K × V)}
    (h : lookup key entries = some value) : (key, value) ∈ entries := by
  induction entries with
  | nil => simp [lookup] at h
  | cons entry rest ih =>
      by_cases hkey : entry.1 = key
      · simp only [lookup, hkey, ↓reduceIte, Option.some.injEq] at h
        rw [← hkey, ← h]
        exact List.mem_cons_self
      · simp only [lookup, hkey, ↓reduceIte] at h
        exact List.mem_cons_of_mem entry (ih h)

/-- Where no key is listed twice, every entry is found. -/
theorem lookup_of_mem {key : K} {value : V} {entries : List (K × V)}
    (hnodup : (entries.map Prod.fst).Nodup) (hmem : (key, value) ∈ entries) :
    lookup key entries = some value := by
  induction entries with
  | nil => simp at hmem
  | cons entry rest ih =>
      rw [List.map_cons, List.nodup_cons] at hnodup
      rcases List.mem_cons.mp hmem with rfl | hrest
      · simp [lookup]
      · have hkey : entry.1 ≠ key := by
          intro heq
          apply hnodup.1
          rw [heq]
          exact List.mem_map.mpr ⟨(key, value), hrest, rfl⟩
        simpa [lookup, hkey] using ih hnodup.2 hrest

theorem lookup_eq [BEq K] [LawfulBEq K] (key : K) (entries : List (K × V)) :
    lookup key entries = entries.lookup key := by
  induction entries with
  | nil => rfl
  | cons entry rest ih =>
      obtain ⟨other, value⟩ := entry
      by_cases hkey : other = key
      · simp [lookup, hkey]
      · have hkey' : (key == other) = false := beq_false_of_ne (Ne.symm hkey)
        simp [lookup, List.lookup_cons, hkey, hkey', ih]

theorem lookup_map_snd {W : Type v} (f : V → W) (key : K) (entries : List (K × V)) :
    lookup key (entries.map fun entry => (entry.1, f entry.2)) = (lookup key entries).map f := by
  induction entries with
  | nil => rfl
  | cons entry rest ih =>
      by_cases hkey : entry.1 = key
      · simp [lookup, hkey]
      · simp [lookup, hkey, ih]

theorem lookup_filter (keep : K → Bool) (key : K) (entries : List (K × V)) :
    lookup key (entries.filter fun entry => keep entry.1) =
      if keep key then lookup key entries else none := by
  induction entries with
  | nil => simp [lookup]
  | cons entry rest ih =>
      by_cases hkey : entry.1 = key
      · subst hkey
        by_cases hkeep : keep entry.1 = true
        · simp [lookup, hkeep]
        · simpa [hkeep] using ih
      · by_cases hkeep : keep entry.1 = true
        · simpa [lookup, hkeep, hkey] using ih
        · simpa [lookup, hkeep, hkey] using ih

theorem put_of_not_mem {key : K} (value : V) {entries : List (K × V)}
    (h : key ∉ entries.map Prod.fst) : put key value entries = entries ++ [(key, value)] := by
  induction entries with
  | nil => rfl
  | cons entry rest ih =>
      simp only [List.map_cons, List.mem_cons, not_or] at h
      have hkey : entry.1 ≠ key := Ne.symm h.1
      simp [put, hkey, ih h.2]

theorem put_of_lookup {key : K} {value : V} {entries : List (K × V)}
    (h : lookup key entries = some value) : put key value entries = entries := by
  induction entries with
  | nil => cases h
  | cons entry rest ih =>
      by_cases hkey : entry.1 = key
      · subst hkey
        simp only [lookup, ↓reduceIte, Option.some.injEq] at h
        simp [put, ← h]
      · rw [lookup, if_neg hkey] at h
        rw [put, if_neg hkey, ih h]

/-- Setting the value that is there already changes nothing. -/
theorem insert_of_find? {m : OrderedMap K V} {key : K} {value : V}
    (h : m.find? key = some value) : m.insert key value = m :=
  ext_entries (put_of_lookup h)

theorem put_put (key : K) (value other : V) (entries : List (K × V)) :
    put key other (put key value entries) = put key other entries := by
  induction entries with
  | nil => simp [put]
  | cons entry rest ih =>
      by_cases hkey : entry.1 = key
      · simp [put, hkey]
      · simp [put, hkey, ih]

/-- Of two values set under a key the second one counts. -/
theorem insert_insert (m : OrderedMap K V) (key : K) (value other : V) :
    (m.insert key value).insert key other = m.insert key other :=
  ext_entries (put_put key value other m.entries)

@[simp] theorem find?_erase (m : OrderedMap K V) (key other : K) :
    (m.erase key).find? other = if key = other then none else m.find? other := by
  have h := lookup_filter (fun k => decide (k ≠ key)) other m.entries
  by_cases hkey : key = other
  · simpa [find?, erase, filter, hkey] using h
  · simpa [find?, erase, filter, hkey, Ne.symm hkey] using h

theorem find?_eq_none_iff {m : OrderedMap K V} {key : K} :
    m.find? key = none ↔ key ∉ m.keys :=
  lookup_eq_none_iff

theorem contains_iff {m : OrderedMap K V} {key : K} : m.contains key = true ↔ key ∈ m.keys := by
  rw [contains, Option.isSome_iff_ne_none, ne_eq, find?_eq_none_iff, Decidable.not_not]

theorem mem_entries_iff {m : OrderedMap K V} {key : K} {value : V} :
    (key, value) ∈ m.entries ↔ m.find? key = some value :=
  ⟨lookup_of_mem m.keys_nodup, mem_of_lookup⟩

theorem entries_insert_of_not_contains {m : OrderedMap K V} {key : K}
    (h : ¬ m.contains key = true) (value : V) :
    (m.insert key value).entries = m.entries ++ [(key, value)] := by
  rw [contains_iff] at h
  exact put_of_not_mem value h

/-- What is found among the entries that pass a test is what was found and passes it. -/
theorem find?_filter (m : OrderedMap K V) (keep : K → V → Bool) (key : K) :
    (m.filter keep).find? key = (m.find? key).filter (keep key) := by
  apply Option.ext
  intro value
  rw [← mem_entries_iff, filter, List.mem_filter, mem_entries_iff, Option.filter_eq_some_iff]

/-- What is found does not depend on the order of the entries. -/
theorem find?_of_perm {left right : OrderedMap K V} (h : left.entries.Perm right.entries)
    (key : K) : left.find? key = right.find? key := by
  apply Option.ext
  intro value
  rw [← mem_entries_iff, ← mem_entries_iff, h.mem_iff]

theorem entries_eq_filterMap_keys (m : OrderedMap K V) :
    m.entries = m.keys.filterMap fun key => (m.find? key).map (key, ·) := by
  rw [keys, List.filterMap_map]
  refine (List.filterMap_some.symm).trans (List.filterMap_congr fun entry hmem => ?_)
  rw [Function.comp_apply, mem_entries_iff.mp hmem, Option.map_some]

/-- A map is told by its keys in their order and by what is found under them. -/
theorem ext_find? {left right : OrderedMap K V} (hkeys : left.keys = right.keys)
    (hfind : ∀ key, left.find? key = right.find? key) : left = right := by
  apply ext_entries
  rw [entries_eq_filterMap_keys left, entries_eq_filterMap_keys right, hkeys]
  simp only [hfind]

/-- Maps in which the same is found differ in the order of their entries only. -/
theorem perm_entries_of_find? {left right : OrderedMap K V}
    (hfind : ∀ key, left.find? key = right.find? key) : left.entries.Perm right.entries := by
  rw [List.perm_ext_iff_of_nodup (.of_map _ left.keys_nodup) (.of_map _ right.keys_nodup)]
  rintro ⟨key, value⟩
  rw [mem_entries_iff, mem_entries_iff, hfind]

/-- Dropping keys one after the other keeps the entries under the others. -/
theorem entries_foldl_erase (keys : List K) (m : OrderedMap K V) :
    (keys.foldl erase m).entries = m.entries.filter (·.1 ∉ keys) := by
  induction keys generalizing m with
  | nil =>
      apply (List.filter_eq_self.mpr _).symm
      intro entry _
      simp
  | cons key rest ih =>
      rw [List.foldl_cons, ih, erase, filter, List.filter_filter]
      apply List.filter_congr
      intro entry _
      simp [Bool.and_comm]

/-- Entries under new keys go to the end, in their order. -/
theorem entries_insertAll_of_nodup (m : OrderedMap K V) {entries : List (K × V)}
    (hnodup : ((m.entries ++ entries).map Prod.fst).Nodup) :
    (m.insertAll entries).entries = m.entries ++ entries := by
  induction entries generalizing m with
  | nil => simp [insertAll]
  | cons entry rest ih =>
      have hkey : entry.1 ∉ m.entries.map Prod.fst := by
        rw [List.map_append, List.map_cons, List.nodup_append] at hnodup
        intro hmem
        exact hnodup.2.2 _ hmem _ List.mem_cons_self rfl
      have hput : (m.insert entry.1 entry.2).entries = m.entries ++ [entry] :=
        put_of_not_mem entry.2 hkey
      have hrest := ih (m.insert entry.1 entry.2) (by simpa [hput] using hnodup)
      rw [hput] at hrest
      simpa [insertAll] using hrest

/-- New keys go to the end, in the order in which they first come. -/
theorem keys_insertAll (m : OrderedMap K V) (entries : List (K × V)) :
    (m.insertAll entries).keys =
      m.keys ++ ((entries.map Prod.fst).filter (· ∉ m.keys)).eraseDups := by
  induction entries generalizing m with
  | nil => simp [insertAll]
  | cons entry rest ih =>
      have hnext : (m.insertAll (entry :: rest)).keys =
          ((m.insert entry.1 entry.2).insertAll rest).keys := rfl
      rw [hnext, ih, keys_insert, List.map_cons]
      by_cases hkey : entry.1 ∈ m.keys
      · simp [hkey]
      · have hlater : ∀ key, decide (key ∉ m.keys ++ [entry.1]) =
            (!key == entry.1 && decide (key ∉ m.keys)) := by
          intro key
          by_cases hsame : key = entry.1 <;> simp [hsame]
        rw [if_neg hkey, List.filter_cons_of_pos (by simpa using hkey), List.eraseDups_cons,
          List.filter_filter, List.append_assoc, List.singleton_append]
        simp only [hlater]

/-- The keys of a map that is built from entries stand in the order in which they first come. -/
theorem keys_ofList (entries : List (K × V)) :
    (ofList entries).keys = (entries.map Prod.fst).eraseDups := by
  have hnone : (empty : OrderedMap K V).keys = [] := rfl
  simp [ofList, keys_insertAll, hnone]

/-- Of the values that are inserted under a key the last one counts. -/
theorem find?_insertAll (m : OrderedMap K V) (entries : List (K × V)) (key : K) :
    (m.insertAll entries).find? key =
      ((entries.filter (·.1 = key)).getLast?.map Prod.snd).or (m.find? key) := by
  induction entries generalizing m with
  | nil => rfl
  | cons entry rest ih =>
      have hnext : m.insertAll (entry :: rest) = (m.insert entry.1 entry.2).insertAll rest := rfl
      rw [hnext, ih, find?_insert]
      by_cases hkey : entry.1 = key
      · cases hlast : (rest.filter (·.1 = key)).getLast? <;>
          simp [hkey, hlast, List.getLast?_cons]
      · simp [hkey]

theorem find?_ofList (entries : List (K × V)) (key : K) :
    (ofList entries).find? key = (entries.filter (·.1 = key)).getLast?.map Prod.snd := by
  rw [ofList, find?_insertAll, find?_empty, Option.or_none]

/-- Building a map of entries without repeated keys keeps them as they are. -/
theorem entries_ofList {entries : List (K × V)} (hnodup : (entries.map Prod.fst).Nodup) :
    (ofList entries).entries = entries := by
  have hnodup' : (((empty : OrderedMap K V).entries ++ entries).map Prod.fst).Nodup := by
    simpa [empty] using hnodup
  have h := entries_insertAll_of_nodup empty hnodup'
  simpa [ofList, empty] using h

theorem mem_of_mem_put {key : K} {value : V} {entries : List (K × V)} {entry : K × V}
    (h : entry ∈ put key value entries) : entry = (key, value) ∨ entry ∈ entries := by
  induction entries with
  | nil => exact .inl (List.mem_singleton.mp h)
  | cons first rest ih =>
      rw [put] at h
      split at h
      · rcases List.mem_cons.mp h with rfl | hrest
        · exact .inl rfl
        · exact .inr (List.mem_cons_of_mem first hrest)
      · rcases List.mem_cons.mp h with rfl | hput
        · exact .inr List.mem_cons_self
        · exact (ih hput).imp_right (List.mem_cons_of_mem first)

theorem mem_of_mem_insertAll {m : OrderedMap K V} {entries : List (K × V)} {entry : K × V}
    (h : entry ∈ (m.insertAll entries).entries) : entry ∈ m.entries ∨ entry ∈ entries := by
  induction entries generalizing m with
  | nil => exact .inl h
  | cons first rest ih =>
      have hnext : entry ∈ ((m.insert first.1 first.2).insertAll rest).entries := h
      rcases ih hnext with hput | hrest
      · rcases mem_of_mem_put hput with rfl | hmem
        · exact .inr List.mem_cons_self
        · exact .inl hmem
      · exact .inr (List.mem_cons_of_mem first hrest)

/-- A map holds nothing but what it was built from. -/
theorem mem_of_mem_ofList {entries : List (K × V)} {entry : K × V}
    (h : entry ∈ (ofList entries).entries) : entry ∈ entries :=
  (mem_of_mem_insertAll h).resolve_left List.not_mem_nil

@[simp] theorem ofList_entries (m : OrderedMap K V) : ofList m.entries = m :=
  ext_entries (entries_ofList m.keys_nodup)

/-- What is there already counts before what is set where there is nothing. -/
theorem find?_insertIfNew (m : OrderedMap K V) (key other : K) (value : V) :
    (m.insertIfNew key value).find? other =
      (m.find? other).or (if key = other then some value else none) := by
  by_cases hkey : key = other
  · subst hkey
    cases hfind : m.find? key <;> simp [insertIfNew, contains, hfind]
  · by_cases hcontains : m.contains key = true <;> simp [insertIfNew, hcontains, hkey]

/-- A map whose values name their own keys is built from its values. -/
theorem ofList_values {key : V → K} {m : OrderedMap K V}
    (h : ∀ k value, m.find? k = some value → key value = k) :
    ofList (m.values.map fun value => (key value, value)) = m := by
  have hentries : m.values.map (fun value => (key value, value)) = m.entries := by
    rw [values, List.map_map]
    refine (List.map_congr_left fun entry hmem => ?_).trans (List.map_id m.entries)
    have hkey := h entry.1 entry.2 (mem_entries_iff.mp hmem)
    simp [hkey]
  rw [hentries, ofList_entries]

end DesignMarkup.OrderedMap
