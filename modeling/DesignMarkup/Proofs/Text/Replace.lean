import Mathlib.Data.List.Basic

/-!
Replacing characters by texts.  Replacements that are made one after the other come to the same as
one pass over the text, provided that no replacement brings in a character that is replaced later.
-/

namespace DesignMarkup.Text

/-- What stands for a character after one pass, in which each character is replaced at most once. -/
def replaced : List (Char × String) → Char → List Char
  | [], c => [c]
  | (special, text) :: rest, c => if c = special then text.toList else replaced rest c

/-- Replace all occurrences of the characters, one character after the other. -/
def replaceInTurn (replacements : List (Char × String)) (s : String) : String :=
  replacements.foldl (fun text replacement => text.replace replacement.1 replacement.2) s

theorem replaced_of_not_mem {replacements : List (Char × String)} {c : Char}
    (h : c ∉ replacements.map Prod.fst) : replaced replacements c = [c] := by
  induction replacements with
  | nil => rfl
  | cons replacement rest ih =>
      rw [List.map_cons, List.mem_cons, not_or] at h
      rw [replaced, if_neg h.1, ih h.2]

theorem exists_replaced_eq {replacements : List (Char × String)} {c : Char}
    (h : c ∈ replacements.map Prod.fst) :
    ∃ text, (c, text) ∈ replacements ∧ replaced replacements c = text.toList := by
  induction replacements with
  | nil => exact absurd h List.not_mem_nil
  | cons replacement rest ih =>
      obtain ⟨special, text⟩ := replacement
      by_cases hc : c = special
      · exact ⟨text, hc ▸ List.mem_cons_self, if_pos hc⟩
      · obtain ⟨other, hother, heq⟩ := ih (List.mem_of_ne_of_mem hc h)
        exact ⟨other, List.mem_cons_of_mem _ hother, (if_neg hc).trans heq⟩

theorem flatMap_replaced_of_not_mem {replacements : List (Char × String)} {cs : List Char}
    (h : ∀ c ∈ cs, c ∉ replacements.map Prod.fst) : cs.flatMap (replaced replacements) = cs := by
  rw [List.flatMap_congr fun c hc => replaced_of_not_mem (h c hc)]
  exact List.flatMap_singleton' cs

section Search

open String.Slice String.Slice.Pattern.Model

/-- What a step of a search contributes when matches are replaced by a text. -/
def stepText {s : String.Slice} (text : String) : Pattern.SearchStep s → String
  | .matched _ _ => text
  | .rejected start stop => (s.slice! start stop).copy

theorem replace_eq_foldl (special : Char) (s text : String) :
    s.replace special text =
      (Pattern.ToForwardSearcher.toSearcher special s.toSlice).toList.foldl
        (fun sofar step => sofar ++ stepText text step) "" := by
  rw [Std.Iter.foldl_toList, String.replace, String.Slice.replace]
  congr 1
  funext sofar step
  cases step with
  | matched start stop =>
      refine String.appendSlice_eq.trans ?_
      simp [stepText, String.ToSlice.toSlice]
  | rejected start stop => exact String.appendSlice_eq

variable {s : String.Slice} {special : Char} {before after : String}

/-- A stretch in which the search finds no match does not have the character. -/
theorem not_mem_of_not_matchesAt {start stop : s.Pos} {stretch : String}
    (hstart : start.Splits before (stretch ++ after))
    (hstop : stop.Splits (before ++ stretch) after)
    (h : ∀ pos, start ≤ pos → pos < stop → ¬ MatchesAt special pos) :
    special ∉ stretch.toList := by
  intro hmem
  obtain ⟨front, back, hchars⟩ := List.append_of_mem hmem
  have hstretch : stretch =
      String.ofList front ++ (String.singleton special ++ String.ofList back) := by
    apply String.toList_injective
    simpa using hchars
  rw [hstretch, String.append_assoc] at hstart
  obtain ⟨pos, hpos⟩ : ∃ pos : s.Pos, pos.Splits (before ++ String.ofList front)
      (String.singleton special ++ String.ofList back ++ after) :=
    ⟨_, hstart.splits_rotateRight⟩
  have hle : start ≤ pos := (hstart.le_iff_exists_eq_append hpos).mpr ⟨_, rfl, rfl⟩
  have hlt : pos < stop := by
    refine (hpos.lt_iff_exists_eq_append hstop).mpr ⟨_, by simp, ?_, rfl⟩
    rw [hstretch, String.append_assoc]
  rw [String.append_assoc] at hpos
  exact h pos hle hlt (Char.matchesAt_iff_splits.mpr ⟨_, _, hpos⟩)

/-- The steps of a search from a place on yield what is behind the place with its matches
replaced. -/
theorem toList_foldl_stepText (text : String) {pos : s.Pos} {steps : List (Pattern.SearchStep s)}
    (h : IsValidSearchFrom special pos steps) (hpos : pos.Splits before after) (sofar : String) :
    (steps.foldl (fun sofar step => sofar ++ stepText text step) sofar).toList =
      sofar.toList ++ after.toList.flatMap (replaced [(special, text)]) := by
  induction h generalizing before after sofar with
  | endPos => simp [hpos.eq_endPos_iff.mp rfl]
  | matched hmatch _ ih =>
      obtain ⟨hend, rfl, hget⟩ := Char.isLongestMatchAt_iff.mp hmatch
      obtain ⟨rest, rfl⟩ := hpos.exists_eq_singleton_append hend
      rw [List.foldl_cons, ih hpos.next]
      simp [stepText, replaced, hget]
  | mismatched hlt hno _ ih =>
      -- The stretch that was passed over does not have the character, so it stays as it is.
      obtain ⟨front, back, hstart, hstop⟩ := copy_slice_eq_iff_splits.mp ⟨Std.le_of_lt hlt, rfl⟩
      obtain ⟨rfl, rfl⟩ := hpos.eq hstart
      have hspecial := not_mem_of_not_matchesAt hstart hstop hno
      have hfree : ∀ c ∈ (s.slice _ _ (Std.le_of_lt hlt)).copy.toList,
          c ∉ [(special, text)].map Prod.fst := by
        intro c hc hmem
        obtain rfl : c = special := List.mem_singleton.mp hmem
        exact hspecial hc
      rw [List.foldl_cons, ih hstop, String.toList_append, String.toList_append,
        List.flatMap_append, flatMap_replaced_of_not_mem hfree, stepText,
        ← String.Slice.slice_eq_slice!, List.append_assoc]

end Search

/-- Replacing a character is one pass over the text. -/
theorem toList_replace (s : String) (special : Char) (text : String) :
    (s.replace special text).toList = s.toList.flatMap (replaced [(special, text)]) := by
  have hsearch : String.Slice.Pattern.Model.IsValidSearchFrom special s.toSlice.startPos
      (String.Slice.Pattern.ToForwardSearcher.toSearcher special s.toSlice).toList :=
    String.Slice.Pattern.Model.LawfulToForwardSearcherModel.isValidSearchFrom_toList s.toSlice
  rw [replace_eq_foldl, toList_foldl_stepText text hsearch s.toSlice.splits_startPos,
    String.copy_toSlice, String.toList_empty, List.nil_append]

/-- No replacement brings in a character that is replaced after it. -/
def IsSettled (replacements : List (Char × String)) : Prop :=
  replacements.Pairwise fun replacement later => later.1 ∉ replacement.2.toList

instance (replacements : List (Char × String)) : Decidable (IsSettled replacements) :=
  inferInstanceAs (Decidable (List.Pairwise _ replacements))

/-- Where nothing is replaced that a replacement has brought in, one pass does for all. -/
theorem toList_replaceInTurn {replacements : List (Char × String)} (h : IsSettled replacements)
    (s : String) :
    (replaceInTurn replacements s).toList = s.toList.flatMap (replaced replacements) := by
  induction replacements generalizing s with
  | nil => exact (List.flatMap_singleton' s.toList).symm
  | cons replacement rest ih =>
      obtain ⟨special, text⟩ := replacement
      obtain ⟨hlater, hrest⟩ := List.pairwise_cons.mp h
      have hinserted : text.toList.flatMap (replaced rest) = text.toList := by
        apply flatMap_replaced_of_not_mem
        intro c hc hmem
        obtain ⟨later, hrest, rfl⟩ := List.mem_map.mp hmem
        exact hlater later hrest hc
      have hnext : replaceInTurn ((special, text) :: rest) s =
          replaceInTurn rest (s.replace special text) := rfl
      rw [hnext, ih hrest, toList_replace, List.flatMap_assoc]
      apply List.flatMap_congr
      intro c _
      by_cases hc : c = special <;> simp [replaced, hc, hinserted]

end DesignMarkup.Text
