import DesignMarkup.Proofs.Text.Span

/-!
Trimming.  What is left of a text that is not blank has no blanks at its ends; a text that has none
is left as it is, and blanks that are put around a text make no difference.
-/

namespace DesignMarkup.Text

/-- A text that is not empty and has no blanks at its two ends. -/
structure IsTight (s : String) : Prop where
  ne_empty : s ≠ ""
  head_not_blank : ∀ c ∈ s.toList.head?, isBlank c = false
  last_not_blank : ∀ c ∈ s.toList.getLast?, isBlank c = false

/-- Trimming leaves no character that was not there. -/
theorem mem_of_mem_trim {s : String} {c : Char} (h : c ∈ (trim s).toList) : c ∈ s.toList := by
  rw [trim, String.toList_ofList] at h
  have hkept := trimEndChars_prefix (s.toList.dropWhile isBlank)
  exact (List.dropWhile_sublist isBlank).subset (hkept.subset h)

theorem last_not_blank_trimChars (cs : List Char) :
    ∀ c ∈ (trimChars cs).getLast?, isBlank c = false := by
  intro c hc
  rw [trimChars, trimEndChars, List.getLast?_reverse] at hc
  exact stops_dropWhile isBlank _ c hc

/-- Nothing is cut off a list of characters that has no blanks at its ends. -/
theorem trimChars_eq_self {cs : List Char} (hhead : Stops isBlank cs)
    (hlast : ∀ c ∈ cs.getLast?, isBlank c = false) : trimChars cs = cs := by
  have hend : Stops isBlank cs.reverse := by simpa [Stops] using hlast
  rw [trimChars, dropWhile_of_stops hhead, trimEndChars, dropWhile_of_stops hend,
    List.reverse_reverse]

theorem isTight_trim {s : String} (h : isBlankText s = false) : IsTight (trim s) where
  ne_empty := by
    rw [← Bool.not_eq_true, isBlankText_iff_trim_eq_empty] at h
    exact h
  head_not_blank := stops_trim s
  last_not_blank := by
    rw [trim, String.toList_ofList]
    exact last_not_blank_trimChars s.toList

theorem IsTight.trim_eq {s : String} (h : IsTight s) : trim s = s := by
  rw [trim, trimChars_eq_self h.head_not_blank h.last_not_blank, String.ofList_toList]

theorem isTight_iff {s : String} : IsTight s ↔ isBlankText s = false ∧ trim s = s := by
  constructor
  · intro h
    refine ⟨?_, h.trim_eq⟩
    rw [← Bool.not_eq_true, isBlankText_iff_trim_eq_empty, h.trim_eq]
    exact h.ne_empty
  · rintro ⟨hblank, htrim⟩
    rw [← htrim]
    exact isTight_trim hblank

theorem trimEndChars_append {after : List Char} (h : ∀ c ∈ after, isBlank c = true)
    (cs : List Char) : trimEndChars (cs ++ after) = trimEndChars cs := by
  have hafter : ∀ c ∈ after.reverse, isBlank c = true := by simpa using h
  rw [trimEndChars, List.reverse_append, List.dropWhile_append_of_pos hafter, trimEndChars]

theorem trimChars_padded {before after : List Char} (hbefore : ∀ c ∈ before, isBlank c = true)
    (hafter : ∀ c ∈ after, isBlank c = true) (cs : List Char) :
    trimChars (before ++ cs ++ after) = trimChars cs := by
  rw [trimChars, List.append_assoc, List.dropWhile_append_of_pos hbefore, List.dropWhile_append,
    trimChars]
  split
  · rename_i hblank
    rw [List.isEmpty_iff.mp hblank, (dropWhile_isBlank_eq_nil_iff after).mpr hafter]
  · exact trimEndChars_append hafter _

/-- Blanks to put around a text. -/
structure Padding where
  before : String
  after : String
  before_blank : isBlankText before = true
  after_blank : isBlankText after = true

namespace Padding

variable (p : Padding)

/-- A text with blanks put around it. -/
def around (s : String) : String :=
  p.before ++ s ++ p.after

theorem toList_around (s : String) :
    (p.around s).toList = p.before.toList ++ s.toList ++ p.after.toList := by
  rw [around, String.toList_append, String.toList_append]

/-- Blanks around a text are trimmed off. -/
@[simp] theorem trim_around (s : String) : trim (p.around s) = trim s := by
  rw [trim, toList_around, trimChars_padded (List.all_eq_true.mp p.before_blank)
    (List.all_eq_true.mp p.after_blank), trim]

@[simp] theorem isBlankText_around (s : String) : isBlankText (p.around s) = isBlankText s := by
  rw [Bool.eq_iff_iff, isBlankText_iff_trim_eq_empty, isBlankText_iff_trim_eq_empty, trim_around]

/-- Only blanks are added to a text. -/
theorem not_mem_around {c : Char} (hc : isBlank c = false) {s : String} (h : c ∉ s.toList) :
    c ∉ (p.around s).toList := by
  have hne : ∀ {side : String}, isBlankText side = true → c ∉ side.toList := by
    intro side hside hmem
    rw [List.all_eq_true.mp hside c hmem] at hc
    cases hc
  simp [toList_around, h, hne p.before_blank, hne p.after_blank]

end Padding

end DesignMarkup.Text
