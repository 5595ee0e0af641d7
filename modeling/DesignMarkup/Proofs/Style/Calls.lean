import DesignMarkup.Proofs.Style.Bag

/-!
Bags that are filled by calls.  Each call names a key and a text; a known key is set, any other is
refused.  Whatever the order of the calls, what is left under a key is the last text that was set
there, and the bag lists it at the place of the key.
-/

namespace DesignMarkup

/-- The last text that some calls have for a key. -/
def lastText? (calls : List (String × String)) (key : String) : Option String :=
  (calls.filter (·.1 = key)).getLast?.map Prod.snd

theorem lastText?_cons (call : String × String) (rest : List (String × String)) (key : String) :
    lastText? (call :: rest) key =
      (lastText? rest key).or (if call.1 = key then some call.2 else none) := by
  by_cases hkey : call.1 = key
  · cases hlast : (rest.filter (·.1 = key)).getLast? <;>
      simp [lastText?, hkey, hlast, List.getLast?_cons]
  · simp [lastText?, hkey]

theorem lastText?_eq_none_iff {calls : List (String × String)} {key : String} :
    lastText? calls key = none ↔ ∀ call ∈ calls, call.1 ≠ key := by
  simp [lastText?]

namespace Bag

variable {keys : List String}

/-- The bag after a call, and the answer whether the key is known. -/
def set (bag : Bag keys) (call : String × String) : Bag keys × Bool :=
  match bag.set? call.1 call.2 with
  | some changed => (changed, true)
  | none => (bag, false)

/-- The bag after some calls, and their answers. -/
def setAll (bag : Bag keys) : List (String × String) → Bag keys × List Bool
  | [] => (bag, [])
  | call :: rest =>
      let (changed, answer) := bag.set call
      let (last, answers) := changed.setAll rest
      (last, answer :: answers)

section Calls

variable (hnodup : keys.Nodup) (bag : Bag keys)

include hnodup

theorem set_answer (call : String × String) : (bag.set call).2 = decide (call.1 ∈ keys) := by
  by_cases hkey : call.1 ∈ keys <;> simp [set, set?_eq hnodup, hkey]

/-- A call that is refused changes nothing. -/
theorem set_of_not_mem {call : String × String} (h : call.1 ∉ keys) : bag.set call = (bag, false) := by
  rw [set, set?_eq hnodup, if_neg h]

theorem get?_set (call : String × String) (key : String) :
    (bag.set call).1.get? key =
      if key ∈ keys ∧ call.1 = key then some call.2 else bag.get? key := by
  by_cases hcall : call.1 ∈ keys
  · have hget : (bag.set call).1.get? key =
        if key ∈ keys then if call.1 = key then some call.2 else bag.get? key else none := by
      rw [set, set?_eq hnodup, if_pos hcall]
      exact get?_ofFn _ key
    by_cases hkey : key ∈ keys
    · simp [hget, hkey]
    · simp [hget, hkey, get?_of_not_mem]
  · rw [set_of_not_mem hnodup bag hcall, if_neg]
    rintro ⟨hkey, rfl⟩
    exact hcall hkey

theorem setAll_answers (calls : List (String × String)) :
    (bag.setAll calls).2 = calls.map fun call => decide (call.1 ∈ keys) := by
  induction calls generalizing bag with
  | nil => rfl
  | cons call rest ih =>
      rw [List.map_cons, ← set_answer hnodup bag call, ← ih (bag.set call).1]
      rfl

/-- What the last call sets under a known key counts before what was there. -/
theorem get?_setAll (calls : List (String × String)) (key : String) :
    (bag.setAll calls).1.get? key =
      if key ∈ keys then (lastText? calls key).or (bag.get? key) else none := by
  induction calls generalizing bag with
  | nil =>
      by_cases hkey : key ∈ keys
      · simp [setAll, lastText?, hkey]
      · simp [setAll, hkey, get?_of_not_mem]
  | cons call rest ih =>
      have hnext : (bag.setAll (call :: rest)).1 = ((bag.set call).1.setAll rest).1 := rfl
      -- The first call counts only where no later one has its key.
      rw [hnext, ih, get?_set hnodup, lastText?_cons]
      by_cases hkey : key ∈ keys
      · by_cases hcall : call.1 = key <;> simp [hkey, hcall]
      · simp [hkey]

end Calls

end Bag

/-- What calls on an empty bag come to: their answers and the bag that they leave. -/
structure IsSetBy (calls : List (String × String)) (bag : StyleBag) (answers : List Bool) :
    Prop where
  answers_eq : answers = calls.map fun call => decide (call.1 ∈ Style.keys)
  get?_eq : ∀ key, bag.get? key = if key ∈ Style.keys then lastText? calls key else none
  mem_entries_iff : ∀ key text,
    (key, text) ∈ bag.entries ↔ key ∈ Style.keys ∧ lastText? calls key = some text
  in_order : bag.entries.Pairwise fun entry next => Style.index? entry.1 < Style.index? next.1
  isEmpty_iff : bag.isEmpty = true ↔ true ∉ answers
  read_back : (Json.read? bag.toJson.compact).bind Bag.ofJson? = some bag

theorem isSetBy_setAll (calls : List (String × String)) :
    IsSetBy calls ((Bag.empty : StyleBag).setAll calls).1
      ((Bag.empty : StyleBag).setAll calls).2 := by
  have hanswers := (Bag.empty : StyleBag).setAll_answers Style.keys_nodup calls
  have hget : ∀ key, ((Bag.empty : StyleBag).setAll calls).1.get? key =
      if key ∈ Style.keys then lastText? calls key else none := by
    intro key
    rw [Bag.get?_setAll Style.keys_nodup, Bag.get?_empty, Option.or_none]
  constructor
  case answers_eq => exact hanswers
  case get?_eq => exact hget
  case mem_entries_iff =>
    intro key text
    rw [Bag.mem_entries_iff Style.keys_nodup, hget]
    by_cases hkey : key ∈ Style.keys <;> simp [hkey]
  case in_order =>
    rw [← List.pairwise_map (R := fun key next => Style.index? key < Style.index? next)]
    exact Style.pairwise_index?_keys.sublist (Bag.map_fst_entries_sublist _)
  case isEmpty_iff =>
    rw [Bag.isEmpty_iff Style.keys_nodup, hanswers, List.mem_map]
    constructor
    · rintro hempty ⟨call, hcall, hanswer⟩
      have hkey : call.1 ∈ Style.keys := of_decide_eq_true hanswer
      have hnone := hempty call.1
      rw [hget, if_pos hkey, lastText?_eq_none_iff] at hnone
      exact hnone call hcall rfl
    · intro hrefused key
      rw [hget, ite_eq_right_iff, lastText?_eq_none_iff]
      rintro hkey call hcall rfl
      exact hrefused ⟨call, hcall, decide_eq_true hkey⟩
  case read_back => exact Bag.read_compact Style.keys_nodup _

/-- A bag of styles is a map of its known keys, by every sequence of calls. -/
theorem styleBag_map_of_calls :
    (∀ calls, IsSetBy calls ((Bag.empty : StyleBag).setAll calls).1
        ((Bag.empty : StyleBag).setAll calls).2) ∧
      ∀ (bag : StyleBag) (call : String × String),
        ((bag.set call).2 = true ↔ call.1 ∈ Style.keys) ∧
          ((bag.set call).2 = true ∨ (bag.set call).1 = bag) := by
  refine ⟨isSetBy_setAll, fun bag call => ?_⟩
  have hanswer := Bag.set_answer Style.keys_nodup bag call
  by_cases hkey : call.1 ∈ Style.keys
  · simp [hanswer, hkey]
  · simp [Bag.set_of_not_mem Style.keys_nodup bag hkey, hkey]

example : ((Bag.empty : StyleBag).setAll
    [("color", "black"), ("width", "10px"), ("cursor", "pointer"), ("color", "red")]).1.entries =
      [("width", "10px"), ("color", "red")] := by
  decide

end DesignMarkup
