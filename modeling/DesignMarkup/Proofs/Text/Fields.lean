import DesignMarkup.Proofs.Text.Span

/-!
The fields of a text: its parts between separators, without the empty ones.  How many separators
stand between two fields, and whether there are any at the ends, makes no difference.
-/

namespace DesignMarkup.Text

/-- The parts of a list of characters between separators that are not empty. -/
def fields (isSeparator : Char → Bool) (cs : List Char) : List (List Char) :=
  (cs.splitOnP isSeparator).filter fun field => !field.isEmpty

variable {isSeparator : Char → Bool}

@[simp] theorem fields_nil : fields isSeparator [] = [] := by
  rw [fields, List.splitOnP_nil]
  rfl

theorem fields_append_cons (left right : List Char) {separator : Char}
    (h : isSeparator separator = true) :
    fields isSeparator (left ++ separator :: right) =
      fields isSeparator left ++ fields isSeparator right := by
  rw [fields, List.splitOnP_append_cons left right h, List.filter_append, fields, fields]

theorem fields_cons_of_separator {separator : Char} (h : isSeparator separator = true)
    (right : List Char) : fields isSeparator (separator :: right) = fields isSeparator right :=
  fields_append_cons [] right h

theorem fields_of_no_separator {cs : List Char} (hne : cs ≠ [])
    (h : ∀ c ∈ cs, isSeparator c = false) : fields isSeparator cs = [cs] := by
  rw [fields, List.splitOnP_eq_singleton h, List.filter_cons_of_pos (by simpa using hne),
    List.filter_nil]

/-- Separators at the front make no difference. -/
theorem fields_separators_append {separators : List Char}
    (h : ∀ c ∈ separators, isSeparator c = true) (cs : List Char) :
    fields isSeparator (separators ++ cs) = fields isSeparator cs := by
  induction separators with
  | nil => rfl
  | cons c rest ih =>
      obtain ⟨hc, hrest⟩ := List.forall_mem_cons.mp h
      exact (fields_cons_of_separator hc (rest ++ cs)).trans (ih hrest)

theorem fields_of_separators {separators : List Char}
    (h : ∀ c ∈ separators, isSeparator c = true) : fields isSeparator separators = [] := by
  rw [← List.append_nil separators, fields_separators_append h, fields_nil]

/-- Separators divide a text into fields, however many they are. -/
theorem fields_append_separators_append {separators : List Char} (hne : separators ≠ [])
    (h : ∀ c ∈ separators, isSeparator c = true) (left right : List Char) :
    fields isSeparator (left ++ separators ++ right) =
      fields isSeparator left ++ fields isSeparator right := by
  obtain ⟨c, rest, rfl⟩ := List.exists_cons_of_ne_nil hne
  obtain ⟨hc, hrest⟩ := List.forall_mem_cons.mp h
  rw [List.append_assoc, List.cons_append, fields_append_cons left _ hc,
    fields_separators_append hrest]

/-- A part without separators that the text does not go on with is a field. -/
theorem fields_append_of_stops {field after : List Char} (hne : field ≠ [])
    (h : ∀ c ∈ field, isSeparator c = false) (hstop : Stops (!isSeparator ·) after) :
    fields isSeparator (field ++ after) = field :: fields isSeparator after := by
  cases after with
  | nil => rw [List.append_nil, fields_of_no_separator hne h, fields_nil]
  | cons c rest =>
      rw [stops_cons, Bool.not_eq_false'] at hstop
      rw [fields_append_cons field rest hstop, fields_of_no_separator hne h, List.singleton_append,
        fields_cons_of_separator hstop]

/-- Fields that are joined by separators are found again. -/
theorem fields_intercalate (isSeparator : Char → Bool) {separator : Char}
    (hseparator : isSeparator separator = true) {words : List (List Char)}
    (h : ∀ word ∈ words, word ≠ [] ∧ ∀ c ∈ word, isSeparator c = false) :
    fields isSeparator ([separator].intercalate words) = words := by
  induction words with
  | nil => rw [List.intercalate_nil, fields_nil]
  | cons word rest ih =>
      obtain ⟨⟨hne, hword⟩, hrest⟩ := List.forall_mem_cons.mp h
      cases rest with
      | nil => rw [List.intercalate_singleton, fields_of_no_separator hne hword]
      | cons next rest =>
          rw [List.intercalate_cons_cons, List.append_assoc, List.singleton_append,
            fields_append_cons word _ hseparator, fields_of_no_separator hne hword, ih hrest,
            List.singleton_append]

end DesignMarkup.Text
