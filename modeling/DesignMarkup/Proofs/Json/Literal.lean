import DesignMarkup.Json.Text

/-!
String literals are read back as written, whatever the text and whatever follows the closing quote.
-/

namespace DesignMarkup.Json

/-- The control characters that are written with a letter. -/
def letterEscaped : List Char :=
  ['\x08', '\t', '\n', '\x0c', '\r']

/-- The piece that reading makes of a written character. -/
def Piece.ofChar (c : Char) : Piece :=
  if c.toNat < 0x20 ∧ c ∉ letterEscaped then .unit c.toNat else .char c

theorem hexValue?_hexDigit : ∀ n < 16, hexValue? (hexDigit n) = some n := by
  decide

/-- A control character is written as a unit of two digits below `0x20`. -/
theorem unit?_hexDigit {n : Nat} (h : n < 0x20) :
    unit? '0' '0' (hexDigit (n / 16)) (hexDigit (n % 16)) = some n := by
  have hhigh := hexValue?_hexDigit (n / 16) (by omega)
  have hlow := hexValue?_hexDigit (n % 16) (by omega)
  have hzero : hexValue? '0' = some 0 := by decide
  simp only [unit?, hhigh, hlow, hzero, Option.bind_eq_bind, Option.bind_some, Option.pure_def]
  congr 1
  omega

theorem readPieces_cons_of_plain {c : Char} (cs : List Char) (hquote : c ≠ '"')
    (hslash : c ≠ '\\') (hcontrol : ¬ c.toNat < 0x20) :
    readPieces (c :: cs) = (readPieces cs).map fun (pieces, rest) => (.char c :: pieces, rest) := by
  rw [readPieces, if_neg hcontrol]
  · exact hquote
  · intro _ _ _ _ _ heq _
    exact hslash heq
  · intro _ _ heq _
    exact hslash heq

/-- One written character is read as one piece. -/
theorem readPieces_escapeChar (c : Char) (cs : List Char) :
    readPieces (escapeChar c ++ cs) =
      (readPieces cs).map fun (pieces, rest) => (Piece.ofChar c :: pieces, rest) := by
  by_cases hnamed : c = '"' ∨ c = '\\' ∨ c ∈ letterEscaped
  · have hofChar : Piece.ofChar c = .char c := by
      rcases hnamed with rfl | rfl | hmem
      · decide
      · decide
      · simp [Piece.ofChar, hmem]
    rw [hofChar]
    simp only [letterEscaped, List.mem_cons, List.not_mem_nil, or_false] at hnamed
    rcases hnamed with rfl | rfl | rfl | rfl | rfl | rfl | rfl <;>
      cases hread : readPieces cs <;> simp [escapeChar, readPieces, unescape?, hread]
  · simp only [not_or] at hnamed
    obtain ⟨hquote, hslash, hletter⟩ := hnamed
    have hletters := hletter
    simp only [letterEscaped, List.mem_cons, List.not_mem_nil, or_false, not_or] at hletters
    obtain ⟨hb, ht, hn, hf, hr⟩ := hletters
    by_cases hcontrol : c.toNat < 0x20
    · have hwritten : escapeChar c =
          ['\\', 'u', '0', '0', hexDigit (c.toNat / 16), hexDigit (c.toNat % 16)] := by
        simp [escapeChar, hquote, hslash, hb, ht, hn, hf, hr, hcontrol]
      cases hread : readPieces cs <;>
        simp [hwritten, readPieces, unit?_hexDigit hcontrol, Piece.ofChar, hcontrol, hletter, hread]
    · have hwritten : escapeChar c = [c] := by
        simp [escapeChar, hquote, hslash, hb, ht, hn, hf, hr, hcontrol]
      rw [hwritten, List.singleton_append, readPieces_cons_of_plain cs hquote hslash hcontrol]
      simp [Piece.ofChar, hcontrol]

theorem readPieces_flatMap_escapeChar (cs rest : List Char) :
    readPieces (cs.flatMap escapeChar ++ '"' :: rest) = some (cs.map Piece.ofChar, rest) := by
  induction cs with
  | nil => simp [readPieces]
  | cons c cs ih =>
      rw [List.flatMap_cons, List.append_assoc, readPieces_escapeChar, ih]
      simp

theorem joinPieces_unit {n : Nat} {pieces : List Piece} (hhigh : isHighSurrogate n = false)
    (hlow : isLowSurrogate n = false) :
    joinPieces (.unit n :: pieces) = (joinPieces pieces).map (Char.ofNat n :: ·) := by
  rw [joinPieces.eq_def]
  split <;> simp_all

/-- None of the units that writing makes is a surrogate. -/
theorem joinPieces_map_ofChar (cs : List Char) :
    joinPieces (cs.map Piece.ofChar) = some cs := by
  induction cs with
  | nil => rfl
  | cons c cs ih =>
      rw [List.map_cons, Piece.ofChar]
      split
      · rename_i hunit
        have hhigh : isHighSurrogate c.toNat = false := by
          simp only [isHighSurrogate, Bool.and_eq_false_iff, decide_eq_false_iff_not]
          omega
        have hlow : isLowSurrogate c.toNat = false := by
          simp only [isLowSurrogate, Bool.and_eq_false_iff, decide_eq_false_iff_not]
          omega
        rw [joinPieces_unit hhigh hlow, ih]
        simp
      · simp [joinPieces, ih]

/-- A written literal is read back, and what follows it is left alone. -/
theorem readLiteral_escape (s : String) (rest : List Char) :
    readLiteral (s.toList.flatMap escapeChar ++ '"' :: rest) = some (some s, rest) := by
  simp [readLiteral, readPieces_flatMap_escapeChar, joinPieces_map_ofChar]

end DesignMarkup.Json
