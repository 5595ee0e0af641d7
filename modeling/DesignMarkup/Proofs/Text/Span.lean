import DesignMarkup.Text.Blank
import Mathlib.Data.List.TakeDrop

/-!
Runs of characters of one class.  A reader takes exactly the run that a writer put down when what
follows does not go on with the same class; a trimmed text begins with no blank.
-/

namespace DesignMarkup.Text

/-- What follows does not begin with a character of the class. -/
def Stops (inClass : Char → Bool) (rest : List Char) : Prop :=
  ∀ c ∈ rest.head?, inClass c = false

theorem stops_nil (inClass : Char → Bool) : Stops inClass [] := by
  simp [Stops]

theorem stops_cons {inClass : Char → Bool} {c : Char} {rest : List Char} :
    Stops inClass (c :: rest) ↔ inClass c = false := by
  simp [Stops]

theorem dropWhile_of_stops {inClass : Char → Bool} {rest : List Char}
    (h : Stops inClass rest) : rest.dropWhile inClass = rest := by
  cases rest with
  | nil => rfl
  | cons c cs =>
      rw [stops_cons] at h
      simp [h]

theorem takeWhile_of_stops {inClass : Char → Bool} {rest : List Char}
    (h : Stops inClass rest) : rest.takeWhile inClass = [] := by
  cases rest with
  | nil => rfl
  | cons c cs =>
      rw [stops_cons] at h
      simp [h]

theorem span_append {inClass : Char → Bool} {run rest : List Char}
    (hrun : ∀ c ∈ run, inClass c = true) (hstop : Stops inClass rest) :
    (run ++ rest).span inClass = (run, rest) := by
  rw [List.span_eq_takeWhile_dropWhile, List.takeWhile_append_of_pos hrun,
    List.dropWhile_append_of_pos hrun, takeWhile_of_stops hstop, dropWhile_of_stops hstop,
    List.append_nil]

theorem stops_dropWhile (inClass : Char → Bool) (cs : List Char) :
    Stops inClass (cs.dropWhile inClass) := by
  intro c hc
  have h := List.head?_dropWhile_not inClass cs
  rw [Option.mem_def] at hc
  rw [hc] at h
  simpa using h

/-- Cutting blanks off the end leaves the beginning as it was. -/
theorem trimEndChars_prefix (cs : List Char) : trimEndChars cs <+: cs := by
  rw [trimEndChars, ← List.reverse_suffix, List.reverse_reverse]
  exact List.dropWhile_suffix isBlank

theorem stops_trimChars (cs : List Char) : Stops isBlank (trimChars cs) := by
  intro c hc
  rw [trimChars] at hc
  obtain ⟨cut, hcut⟩ := trimEndChars_prefix (cs.dropWhile isBlank)
  apply stops_dropWhile isBlank cs c
  rw [← hcut, List.head?_append]
  rw [Option.mem_def] at hc ⊢
  rw [hc]
  rfl

theorem stops_trim (s : String) : Stops isBlank (trim s).toList := by
  rw [trim, String.toList_ofList]
  exact stops_trimChars s.toList

end DesignMarkup.Text
