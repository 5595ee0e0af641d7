import DesignMarkup.Json.Number
import DesignMarkup.Proofs.Text.Span

/-!
Whole numbers of 64 bits are read back as written.
-/

namespace DesignMarkup.Number

open Text (Stops span_append stops_cons)

/-- The characters with which a number literal may go on. -/
def continues (c : Char) : Bool :=
  c.isDigit || c == '.' || c == 'e' || c == 'E'

/-- The whole numbers that a literal without point and exponent can mean. -/
def InRange (n : Int) : Prop :=
  -(Nat.pow 2 63 : Int) ≤ n ∧ n < Nat.pow 2 64

theorem isDigit_of_mem_toDigits {n : Nat} {c : Char} (h : c ∈ Nat.toDigits 10 n) :
    c.isDigit = true :=
  Nat.isDigit_of_mem_toDigits (by decide) (by decide) h

/-- Only zero itself begins with the digit zero. -/
theorem toDigits_eq_zero_cons {n : Nat} {cs : List Char} (h : Nat.toDigits 10 n = '0' :: cs) :
    cs = [] := by
  induction n using Nat.strongRecOn generalizing cs with
  | ind n ih =>
      rw [Nat.toDigits_eq_if (by decide)] at h
      split at h
      · exact (List.cons.inj h).2.symm
      · rename_i hlarge
        cases hinit : Nat.toDigits 10 (n / 10) with
        | nil => exact absurd hinit Nat.toDigits_ne_nil
        | cons d ds =>
            rw [hinit, List.cons_append] at h
            obtain ⟨rfl, _⟩ := List.cons.inj h
            have hds := ih (n / 10) (by omega) hinit
            have hzero := Nat.ofDigitChars_ten_toDigits (n := n / 10)
            rw [hinit, hds] at hzero
            simp [Nat.ofDigitChars_cons] at hzero
            omega

theorem stops_isDigit {rest : List Char} (h : Stops continues rest) :
    Stops Char.isDigit rest := by
  intro c hc
  have hcontinues := h c hc
  simp only [continues, Bool.or_eq_false_iff] at hcontinues
  exact hcontinues.1.1.1

theorem readWhole_toDigits (n : Nat) {rest : List Char} (h : Stops continues rest) :
    readWhole (Nat.toDigits 10 n ++ rest) = some (Nat.toDigits 10 n, rest) := by
  have hspan : spanDigits (Nat.toDigits 10 n ++ rest) = (Nat.toDigits 10 n, rest) :=
    span_append (fun _ => isDigit_of_mem_toDigits) (stops_isDigit h)
  rw [readWhole, hspan]
  split
  · rename_i heq
    exact absurd (congrArg Prod.fst heq) Nat.toDigits_ne_nil
  · rename_i heq
    have hcons := toDigits_eq_zero_cons (congrArg Prod.fst heq)
    simp at hcons
  · rename_i heq
    exact congrArg some heq.symm

theorem readFraction_of_stops {rest : List Char} (h : Stops continues rest) :
    readFraction rest = some (none, rest) := by
  rw [readFraction.eq_def]
  split
  · rename_i cs
    exact absurd (stops_cons.mp h) (by decide)
  · rfl

theorem readExponent_of_stops {rest : List Char} (h : Stops continues rest) :
    readExponent rest = some (none, rest) := by
  cases rest with
  | nil => rfl
  | cons c cs =>
      have hcontinues := stops_cons.mp h
      simp only [continues, Bool.or_eq_false_iff, beq_eq_false_iff_ne] at hcontinues
      simp [readExponent, hcontinues.1.2, hcontinues.2]

/-- The sign of a written whole number is read first, the digits of its size follow. -/
theorem readSign_integerText (n : Int) (rest : List Char) :
    readSign (integerText n ++ rest) = (decide (n < 0), Nat.toDigits 10 n.natAbs ++ rest) := by
  by_cases hneg : n < 0
  · simp [integerText, hneg, readSign]
  · simp only [integerText, hneg, ↓reduceIte, decide_false]
    cases hdigits : Nat.toDigits 10 n.natAbs with
    | nil => exact absurd hdigits Nat.toDigits_ne_nil
    | cons d ds =>
        have hdigit : d.isDigit = true :=
          isDigit_of_mem_toDigits (n := n.natAbs) (by simp [hdigits])
        rw [List.cons_append, readSign.eq_def]
        split
        · rename_i heq
          rw [(List.cons.inj heq).1] at hdigit
          exact absurd hdigit (by decide)
        · rfl

theorem readLiteral_integerText (n : Int) {rest : List Char} (h : Stops continues rest) :
    readLiteral (integerText n ++ rest) =
      some (⟨decide (n < 0), Nat.toDigits 10 n.natAbs, none, none⟩, rest) := by
  simp [readLiteral, readSign_integerText, readWhole_toDigits _ h, readFraction_of_stops h,
    readExponent_of_stops h]

/-- Digits are taken up to the last one as long as their number fits 64 bits. -/
theorem accumulate_of_lt {n : Nat} {cs : List Char} (h : Nat.ofDigitChars 10 cs n < Nat.pow 2 64) :
    accumulate n cs = (Nat.ofDigitChars 10 cs n, []) := by
  induction cs generalizing n with
  | nil => rfl
  | cons c cs ih =>
      rw [Nat.ofDigitChars_cons] at h ⊢
      have hle : 10 * n + (c.toNat - '0'.toNat) ≤
          Nat.ofDigitChars 10 cs (10 * n + (c.toNat - '0'.toNat)) := by
        rw [Nat.ofDigitChars_eq_ofDigitChars_zero]
        have hpow : 0 < 10 ^ cs.length := Nat.pow_pos (by decide)
        exact Nat.le_trans (Nat.le_mul_of_pos_left _ hpow) (Nat.le_add_right _ _)
      have hnext : n * 10 + (c.toNat - '0'.toNat) = 10 * n + (c.toNat - '0'.toNat) := by
        rw [Nat.mul_comm]
      simp only [accumulate, hnext]
      rw [if_pos (by omega)]
      exact ih h

theorem accumulate_toDigits {n : Nat} (h : n < Nat.pow 2 64) :
    accumulate 0 (Nat.toDigits 10 n) = (n, []) := by
  rw [accumulate_of_lt (by rwa [Nat.ofDigitChars_ten_toDigits]), Nat.ofDigitChars_ten_toDigits]

theorem ofLiteral?_integer {n : Int} (h : InRange n) :
    ofLiteral? ⟨decide (n < 0), Nat.toDigits 10 n.natAbs, none, none⟩ = some (.integer n) := by
  obtain ⟨hlow, hhigh⟩ := h
  simp only [Nat.pow_eq] at hlow hhigh
  have hbound : n.natAbs < Nat.pow 2 64 := by
    rw [Nat.pow_eq]
    omega
  have hread := accumulate_toDigits hbound
  by_cases hneg : n < 0
  · have habs : 0 < n.natAbs ∧ n.natAbs ≤ Nat.pow 2 63 := by
      rw [Nat.pow_eq]
      omega
    have hvalue : -(n.natAbs : Int) = n := by omega
    simp only [ofLiteral?, hneg, decide_true, hread]
    rw [if_neg (by decide), if_pos habs, hvalue]
  · have hvalue : (n.natAbs : Int) = n := by omega
    simp only [ofLiteral?, hneg, decide_false, hread]
    rw [if_pos (by decide), hvalue]

end DesignMarkup.Number
