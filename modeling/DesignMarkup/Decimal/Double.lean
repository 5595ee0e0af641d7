/-!
Finite numbers of the 64-bit binary format, held as their words.  A number is its sign and
`significand · 2 ^ power` for two integers read off the word.
-/

namespace DesignMarkup

/-- A finite number of the 64-bit binary format. -/
structure Double where
  bits : UInt64
deriving DecidableEq, Repr, Inhabited

namespace Double

/-- The word of a machine number. -/
def ofFloat (x : Float) : Double :=
  ⟨x.toBits⟩

/-- The sign bit; a zero can carry it too. -/
def isNegative (x : Double) : Bool :=
  Nat.pow 2 63 ≤ x.bits.toNat

/-- The 52 stored bits of the significand. -/
def fractionField (x : Double) : Nat :=
  x.bits.toNat % Nat.pow 2 52

/-- The 11 bits of the biased exponent. -/
def exponentField (x : Double) : Nat :=
  x.bits.toNat / Nat.pow 2 52 % Nat.pow 2 11

/-- The integer whose multiple by a power of two is the number's magnitude. -/
def significand (x : Double) : Nat :=
  if x.exponentField = 0 then x.fractionField else Nat.pow 2 52 + x.fractionField

/-- The power of two that multiplies the significand. -/
def power (x : Double) : Int :=
  if x.exponentField = 0 then -1074 else (x.exponentField : Int) - 1075

/-- The number below is half as far as the number above: so it is at the first number of each
range of exponents but the lowest. -/
def isRangeStart (x : Double) : Bool :=
  x.fractionField = 0 && 1 < x.exponentField

end Double
end DesignMarkup
