import DesignMarkup.Markup.Escape
import DesignMarkup.Proofs.Text.Span

/-!
Escaped text read back.  Escaping leaves no character that could end a text or an attribute value,
and the entities stand for the characters they were written for.
-/

namespace DesignMarkup.Markup

/-- The text that an escaped text stands for.  An ampersand that begins none of the five entities
stands for itself. -/
def unescapeChars : List Char → List Char
  | '&' :: 'a' :: 'm' :: 'p' :: ';' :: rest => '&' :: unescapeChars rest
  | '&' :: 'l' :: 't' :: ';' :: rest => '<' :: unescapeChars rest
  | '&' :: 'g' :: 't' :: ';' :: rest => '>' :: unescapeChars rest
  | '&' :: 'q' :: 'u' :: 'o' :: 't' :: ';' :: rest => '"' :: unescapeChars rest
  | '&' :: '#' :: '3' :: '9' :: ';' :: rest => '\'' :: unescapeChars rest
  | c :: rest => c :: unescapeChars rest
  | [] => []

/-- The characters that are written as entities. -/
def specialChars : List Char :=
  ['&', '<', '>', '"', '\'']

theorem escapeChar_of_not_special {c : Char} (h : c ∉ specialChars) : escapeChar c = [c] := by
  simp only [specialChars, List.mem_cons, List.not_mem_nil, or_false, not_or] at h
  obtain ⟨hamp, hlt, hgt, hquote, happ⟩ := h
  simp [escapeChar]

theorem unescapeChars_cons {c : Char} (h : c ≠ '&') (rest : List Char) :
    unescapeChars (c :: rest) = c :: unescapeChars rest := by
  rw [unescapeChars]
  all_goals simp [h]

theorem unescapeChars_escapeChar (c : Char) (rest : List Char) :
    unescapeChars (escapeChar c ++ rest) = c :: unescapeChars rest := by
  by_cases hspecial : c ∈ specialChars
  · simp only [specialChars, List.mem_cons, List.not_mem_nil, or_false] at hspecial
    rcases hspecial with rfl | rfl | rfl | rfl | rfl <;> rfl
  · have hamp : c ≠ '&' := by
      rintro rfl
      exact hspecial List.mem_cons_self
    rw [escapeChar_of_not_special hspecial, List.singleton_append, unescapeChars_cons hamp]

@[simp] theorem unescapeChars_escapeChars (cs : List Char) :
    unescapeChars (escapeChars cs) = cs := by
  induction cs with
  | nil => rfl
  | cons c rest ih =>
      rw [escapeChars, List.flatMap_cons, ← escapeChars, unescapeChars_escapeChar, ih]

/-- Of the five characters only the ampersand is left in an escaped text. -/
theorem eq_amp_of_mem_escapeChars {cs : List Char} {c : Char} (hc : c ∈ escapeChars cs)
    (hspecial : c ∈ specialChars) : c = '&' := by
  obtain ⟨written, -, hmem⟩ := List.mem_flatMap.mp hc
  by_cases hwritten : written ∈ specialChars
  · have hall : (specialChars.all fun w =>
        (escapeChar w).all fun x => x ∉ specialChars || x = '&') = true := by decide
    have hx := List.all_eq_true.mp (List.all_eq_true.mp hall written hwritten) c hmem
    simpa [hspecial] using hx
  · rw [escapeChar_of_not_special hwritten, List.mem_singleton] at hmem
    exact absurd (hmem ▸ hspecial) hwritten

theorem lt_not_mem_escapeChars (cs : List Char) : '<' ∉ escapeChars cs := by
  intro hmem
  have h := eq_amp_of_mem_escapeChars hmem (by decide)
  exact absurd h (by decide)

theorem quote_not_mem_escapeChars (cs : List Char) : '"' ∉ escapeChars cs := by
  intro hmem
  have h := eq_amp_of_mem_escapeChars hmem (by decide)
  exact absurd h (by decide)

/-- An escaped text ends at the first special character behind it that is no ampersand. -/
theorem eq_and_eq_of_escapeChars_append {last : Char} (hspecial : last ∈ specialChars)
    (hamp : last ≠ '&') {cs cs' rest rest' : List Char}
    (h : escapeChars cs ++ last :: rest = escapeChars cs' ++ last :: rest') :
    cs = cs' ∧ rest = rest' := by
  have hspan : ∀ cs rest, (escapeChars cs ++ last :: rest).span (· ≠ last) =
      (escapeChars cs, last :: rest) := by
    intro cs rest
    apply Text.span_append
    · intro c hc
      apply decide_eq_true
      rintro rfl
      exact hamp (eq_amp_of_mem_escapeChars hc hspecial)
    · simp [Text.stops_cons]
  have heq := hspan cs rest
  rw [h, hspan, Prod.mk.injEq, List.cons.injEq] at heq
  constructor
  · have hread := congrArg unescapeChars heq.1
    rw [unescapeChars_escapeChars, unescapeChars_escapeChars] at hread
    exact hread.symm
  · exact heq.2.2.symm

/-- A text that begins with no blank is escaped to one that begins with none. -/
theorem stops_escapeChars {cs : List Char} (h : Text.Stops Text.isBlank cs) :
    Text.Stops Text.isBlank (escapeChars cs) := by
  cases cs with
  | nil => exact Text.stops_nil _
  | cons c rest =>
      rw [Text.stops_cons] at h
      rw [escapeChars, List.flatMap_cons]
      by_cases hspecial : c ∈ specialChars
      · simp only [specialChars, List.mem_cons, List.not_mem_nil, or_false] at hspecial
        rcases hspecial with rfl | rfl | rfl | rfl | rfl <;> exact Text.stops_cons.mpr rfl
      · rw [escapeChar_of_not_special hspecial]
        exact Text.stops_cons.mpr h

end DesignMarkup.Markup
