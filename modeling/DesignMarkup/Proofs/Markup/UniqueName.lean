import DesignMarkup.Markup.Styled
import DesignMarkup.Proofs.Text.Slug
import Mathlib.Data.List.Nodup
import Mathlib.Data.List.Perm.Subperm

/-!
Unique names.  Numbers are tried in turn until a numbered name is free; as there are more numbers to
try than names that are taken, one of them is.
-/

namespace DesignMarkup.StyledNode

theorem numbered_injective (base : String) {m n : Nat} (h : numbered base m = numbered base n) :
    m = n := by
  have hchars := congrArg String.toList h
  simp only [numbered, String.toList_append, String.toList_ofList] at hchars
  have hdigits := congrArg (Nat.ofDigitChars 10 · 0) (List.append_cancel_left hchars)
  simpa using hdigits

/-- The number that is settled on: those before it are taken, and so can it be only if it is the
last one tried. -/
structure Settles (base : String) (taken : List String) (first last n : Nat) : Prop where
  first_le : first ≤ n
  le_last : n ≤ last
  taken_before : ∀ i, first ≤ i → i < n → numbered base i ∈ taken
  free : n < last → numbered base n ∉ taken

theorem exists_firstFree_eq (base : String) (taken : List String) (tries first : Nat) :
    ∃ n, firstFree base taken tries first = numbered base n ∧
      Settles base taken first (first + tries) n := by
  induction tries generalizing first with
  | zero =>
      refine ⟨first, rfl, Nat.le_refl _, Nat.le_refl _, ?_, ?_⟩
      · intro i hlow hhigh
        omega
      · intro hlt
        omega
  | succ tries ih =>
      rw [firstFree]
      split
      · rename_i hfirst
        obtain ⟨n, heq, hn⟩ := ih (first + 1)
        have hlow := hn.first_le
        have hhigh := hn.le_last
        refine ⟨n, heq, by omega, by omega, ?_, ?_⟩
        · intro i hi hin
          rcases Nat.eq_or_lt_of_le hi with rfl | hlt
          · exact hfirst
          · exact hn.taken_before i hlt hin
        · intro hlt
          exact hn.free (by omega)
      · rename_i hfirst
        refine ⟨first, rfl, Nat.le_refl _, by omega, ?_, fun _ => hfirst⟩
        intro i hi hin
        omega

/-- The names with the numbers of a range are different. -/
theorem nodup_numbered (base : String) (first count : Nat) :
    ((List.range' first count).map (numbered base)).Nodup := by
  apply List.Nodup.map
  · intro m n h
    exact numbered_injective base h
  · exact List.nodup_range'

/-- No list of names holds more numbered names than it has entries. -/
theorem exists_numbered_not_mem (base : String) (taken : List String) (first : Nat) :
    ∃ n, first ≤ n ∧ n ≤ first + taken.length ∧ numbered base n ∉ taken := by
  by_contra hnone
  push Not at hnone
  have hsubset : (List.range' first (taken.length + 1)).map (numbered base) ⊆ taken := by
    intro name hname
    obtain ⟨n, hn, rfl⟩ := List.mem_map.mp hname
    rw [List.mem_range'_1] at hn
    exact hnone n hn.1 (by omega)
  have hnodup := nodup_numbered base first (taken.length + 1)
  have hlength := (List.subperm_of_subset hnodup hsubset).length_le
  rw [List.length_map, List.length_range'] at hlength
  omega

/-- With as many tries as there are names that are taken, the name found is free. -/
theorem firstFree_not_mem (base : String) (taken : List String) (first : Nat) :
    firstFree base taken taken.length first ∉ taken := by
  obtain ⟨n, heq, hn⟩ := exists_firstFree_eq base taken taken.length first
  rw [heq]
  intro htaken
  have hlast : n = first + taken.length := by
    have hhigh := hn.le_last
    by_contra hne
    exact hn.free (by omega) htaken
  obtain ⟨m, hlow, hhigh, hfree⟩ := exists_numbered_not_mem base taken first
  rcases Nat.eq_or_lt_of_le hhigh with heq | hlt
  · rw [heq, ← hlast] at hfree
    exact hfree htaken
  · exact hfree (hn.taken_before m hlow (by omega))

theorem uniqueName_not_mem (base : String) (taken : List String) :
    uniqueName base taken ∉ taken := by
  rw [uniqueName]
  split
  · exact firstFree_not_mem base taken 2
  · assumption

/-- The texts that are given as classes: not empty, and made of the characters of slugs. -/
structure IsClassName (s : String) : Prop where
  ne_empty : s ≠ ""
  isSlugText : ∀ c ∈ s.toList, Text.isSlugText c = true

theorem isClassName_baseName (elementName tag : String) :
    IsClassName (baseName elementName tag) := by
  rw [baseName]
  split
  · rename_i hname
    exact ⟨hname, Text.isSlugText_slug elementName⟩
  · split
    · rename_i htag
      exact ⟨htag, Text.isSlugText_slug tag⟩
    · have hchars : "element".toList.all Text.isSlugText = true := by decide
      exact ⟨by decide, List.all_eq_true.mp hchars⟩

theorem isClassName_numbered {base : String} (h : IsClassName base) (n : Nat) :
    IsClassName (numbered base n) := by
  have hchars : (numbered base n).toList = base.toList ++ '-' :: Nat.toDigits 10 n := by
    simp [numbered]
  constructor
  · intro hempty
    rw [hempty] at hchars
    simp at hchars
  · rw [hchars, List.forall_mem_append, List.forall_mem_cons]
    refine ⟨h.isSlugText, by decide, ?_⟩
    intro c hc
    have hdigit := Nat.isDigit_of_mem_toDigits (by decide) (by decide) hc
    simp [Text.isSlugText, hdigit]

theorem isClassName_uniqueName {base : String} (h : IsClassName base) (taken : List String) :
    IsClassName (uniqueName base taken) := by
  rw [uniqueName]
  split
  · obtain ⟨n, heq, -⟩ := exists_firstFree_eq base taken taken.length 2
    rw [heq]
    exact isClassName_numbered h n
  · exact h

end DesignMarkup.StyledNode
