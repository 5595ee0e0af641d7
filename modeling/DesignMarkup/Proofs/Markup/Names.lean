import DesignMarkup.Markup.Name

/-!
Names in markup, told of their characters: a tag can be read up to its end, and so can the name of an
attribute.
-/

namespace DesignMarkup.Markup

/-- A text that can be a tag: a letter, then letters, digits and a few marks. -/
def FitsTag (s : String) : Prop :=
  ∃ first rest, s.toList = first :: rest ∧ first.isAlpha = true ∧
    ∀ c ∈ rest, c.isAlphanum = true ∨ c ∈ ['-', '_', '.', ':']

/-- A text that can be the name of an attribute: it is not empty, and nothing in it ends a name. -/
def FitsAttributeName (s : String) : Prop :=
  s ≠ "" ∧ ∀ c ∈ s.toList,
    Text.isBlank c = false ∧ Text.isControl c = false ∧ c ∉ ['"', '\'', '<', '>', '/', '=']

theorem isTagChar_iff (c : Char) :
    isTagChar c = true ↔ c.isAlphanum = true ∨ c ∈ ['-', '_', '.', ':'] := by
  simp [isTagChar, or_assoc]

theorem isTag_iff (s : String) : isTag s = true ↔ FitsTag s := by
  rw [isTag, FitsTag]
  cases s.toList with
  | nil => simp
  | cons first rest =>
      simp only [Bool.and_eq_true, List.all_eq_true, isTagChar_iff]
      constructor
      · exact fun h => ⟨first, rest, rfl, h⟩
      · rintro ⟨_, _, heq, h⟩
        cases heq
        exact h

theorem isAttributeName_iff (s : String) : isAttributeName s = true ↔ FitsAttributeName s := by
  simp [isAttributeName, FitsAttributeName, isAttributeBreak, and_assoc]

instance (s : String) : Decidable (FitsTag s) :=
  decidable_of_iff _ (isTag_iff s)

instance (s : String) : Decidable (FitsAttributeName s) :=
  decidable_of_iff _ (isAttributeName_iff s)

end DesignMarkup.Markup
