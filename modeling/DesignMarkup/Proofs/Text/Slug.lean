import DesignMarkup.Text.Blank
import DesignMarkup.Text.Slug

/-!
The characters of slugs: lower-case ASCII letters, digits and hyphens.  They are
ASCII characters, which can be gone through one by one; none of them is a blank.  The first one is
the first letter or digit of the name.
-/

namespace DesignMarkup.Text

/-- The characters that a slug is made of. -/
def isSlugText (c : Char) : Bool :=
  c.isLower || c.isDigit || c == '-'

/-- What holds of each ASCII character in turn holds of all of them. -/
theorem forall_ascii {p : Char → Prop} (h : ∀ n < 128, p (Char.ofNat n)) {c : Char}
    (hc : c.toNat < 128) : p c := by
  have hp := h c.toNat hc
  rw [Char.ofNat_toNat] at hp
  exact hp

theorem toNat_lt_of_isAlphanum {c : Char} (h : c.isAlphanum = true) : c.toNat < 128 := by
  delta Char.isAlphanum Char.isAlpha Char.isUpper Char.isLower Char.isDigit at h
  simp only [Bool.or_eq_true, Bool.and_eq_true, decide_eq_true_eq, UInt32.le_iff_toNat_le,
    ge_iff_le] at h
  change ((65 ≤ c.toNat ∧ c.toNat ≤ 90) ∨ (97 ≤ c.toNat ∧ c.toNat ≤ 122)) ∨
    (48 ≤ c.toNat ∧ c.toNat ≤ 57) at h
  omega

theorem toNat_lt_of_isSlugText {c : Char} (h : isSlugText c = true) : c.toNat < 128 := by
  simp only [isSlugText, Bool.or_eq_true, beq_iff_eq] at h
  rcases h with (hlower | hdigit) | rfl
  · apply toNat_lt_of_isAlphanum
    show (c.isUpper || c.isLower || c.isDigit) = true
    rw [hlower, Bool.or_true, Bool.true_or]
  · apply toNat_lt_of_isAlphanum
    simp [Char.isAlphanum, hdigit]
  · decide

theorem isSlugText_toLower {c : Char} (h : isSlugChar c = true) : isSlugText c.toLower = true :=
  forall_ascii (p := fun c => isSlugChar c = true → isSlugText c.toLower = true) (by decide)
    (toNat_lt_of_isAlphanum h) h

theorem isBlank_of_isSlugText {c : Char} (h : isSlugText c = true) : isBlank c = false :=
  forall_ascii (p := fun c => isSlugText c = true → isBlank c = false) (by decide)
    (toNat_lt_of_isSlugText h) h

theorem isSlugText_slugTail (gap : Bool) (cs : List Char) :
    ∀ c ∈ slugTail gap cs, isSlugText c = true := by
  induction cs generalizing gap with
  | nil =>
      intro c hc
      cases hc
  | cons first rest ih =>
      rw [slugTail]
      split
      · rename_i hfirst
        have hlower := isSlugText_toLower hfirst
        rw [List.forall_mem_append]
        constructor
        · cases gap with
          | true => simpa using ⟨rfl, hlower⟩
          | false => simpa using hlower
        · exact ih false
      · exact ih true

theorem isSlugText_slug (name : String) : ∀ c ∈ (slug name).toList, isSlugText c = true := by
  rw [slug, String.toList_ofList]
  exact isSlugText_slugTail false _

theorem head?_slugChars (cs : List Char) :
    (slugChars cs).head? = (cs.find? isSlugChar).map Char.toLower := by
  induction cs with
  | nil => rfl
  | cons c rest ih =>
      cases hc : isSlugChar c with
      | true =>
          rw [slugChars, List.dropWhile_cons_of_neg (by simp [hc]), slugTail, if_pos hc,
            List.find?_cons_of_pos hc]
          rfl
      | false =>
          rw [slugChars, List.dropWhile_cons_of_pos (by simp [hc]), ← slugChars, ih,
            List.find?_cons_of_neg (by simp [hc])]

/-- A slug begins with the first letter or digit of the name. -/
theorem head?_slug (name : String) :
    (slug name).toList.head? = (name.toList.find? isSlugChar).map Char.toLower := by
  rw [slug, String.toList_ofList, head?_slugChars]

/-- Only what has no letter and no digit has no slug. -/
theorem slug_eq_empty_iff (name : String) :
    slug name = "" ↔ name.toList.find? isSlugChar = none := by
  rw [← Option.map_eq_none_iff (f := Char.toLower), ← head?_slug, List.head?_eq_none_iff,
    String.toList_eq_nil_iff]

theorem isDigit_toLower {c : Char} (h : isSlugChar c = true) : c.toLower.isDigit = c.isDigit :=
  forall_ascii (p := fun c => isSlugChar c = true → c.toLower.isDigit = c.isDigit) (by decide)
    (toNat_lt_of_isAlphanum h) h

theorem isDigit_of_isAlpha {c : Char} (h : c.isAlpha = true) : c.isDigit = false := by
  have hascii : c.toNat < 128 := by
    apply toNat_lt_of_isAlphanum
    rw [Char.isAlphanum, h, Bool.true_or]
  exact forall_ascii (p := fun c => c.isAlpha = true → c.isDigit = false) (by decide) hascii h

theorem toLower_ne_hyphen {c : Char} (h : isSlugChar c = true) : c.toLower ≠ '-' :=
  forall_ascii (p := fun c => isSlugChar c = true → c.toLower ≠ '-') (by decide)
    (toNat_lt_of_isAlphanum h) h

end DesignMarkup.Text
