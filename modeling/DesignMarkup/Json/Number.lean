import DesignMarkup.Decimal.Shortest
import DesignMarkup.Json.Basic

/-!
Number literals.  Whole numbers of 64 bits are kept exactly.  Every other literal is read as a
binary number: as many of its digits as fit 64 bits are scaled by one power of ten, the others
only count as places.  Binary numbers are written with the fewest digits.
-/

namespace DesignMarkup
namespace Number

/-- The parts of a number literal, digits as characters.  The exponent comes with its sign. -/
structure Literal where
  negative : Bool
  whole : List Char
  fraction : Option (List Char)
  exponent : Option (Bool × List Char)
deriving DecidableEq, Repr

/-- The digits at the front of a text and what follows them. -/
def spanDigits (cs : List Char) : List Char × List Char :=
  cs.span Char.isDigit

/-- A digit sequence that must not be empty. -/
def readDigits (cs : List Char) : Option (List Char × List Char) :=
  match spanDigits cs with
  | ([], _) => none
  | (digits, rest) => some (digits, rest)

def readSign : List Char → Bool × List Char
  | '-' :: rest => (true, rest)
  | rest => (false, rest)

/-- The digits before the point, without a needless leading zero. -/
def readWhole (cs : List Char) : Option (List Char × List Char) :=
  match spanDigits cs with
  | ([], _) => none
  | ('0' :: _ :: _, _) => none
  | (digits, rest) => some (digits, rest)

def readFraction : List Char → Option (Option (List Char) × List Char)
  | '.' :: rest => (readDigits rest).map fun (digits, rest) => (some digits, rest)
  | rest => some (none, rest)

/-- The sign of an exponent and what follows it. -/
def readExponentSign : List Char → Bool × List Char
  | '+' :: rest => (false, rest)
  | '-' :: rest => (true, rest)
  | rest => (false, rest)

def readExponent : List Char → Option (Option (Bool × List Char) × List Char)
  | c :: rest =>
      if c = 'e' ∨ c = 'E' then
        let (negative, rest) := readExponentSign rest
        (readDigits rest).map fun (digits, rest) => (some (negative, digits), rest)
      else some (none, c :: rest)
  | [] => some (none, [])

/-- A number literal at the front of a text and what follows it. -/
def readLiteral (cs : List Char) : Option (Literal × List Char) := do
  let (negative, cs) := readSign cs
  let (whole, cs) ← readWhole cs
  let (fraction, cs) ← readFraction cs
  let (exponent, cs) ← readExponent cs
  return (⟨negative, whole, fraction, exponent⟩, cs)

/-- Append digits to a number as long as it stays below `2 ^ 64`; the digits from the first one
that does not fit are left over. -/
def accumulate : Nat → List Char → Nat × List Char
  | n, [] => (n, [])
  | n, c :: cs =>
      let next := n * 10 + (c.toNat - '0'.toNat)
      if next < Nat.pow 2 64 then accumulate next cs else (n, c :: cs)

/-- Ten to a power of at most 308, as a binary number. -/
def powerOfTen (k : Nat) : Float :=
  Float.ofScientific 1 false k

/-- Divide by a power of ten, in steps of at most 308 places. -/
def scaleDown (x : Float) (places : Nat) : Float :=
  if h : places ≤ 308 then x / powerOfTen places
  else if x == 0.0 then x
  else scaleDown (x / powerOfTen 308) (places - 308)
termination_by places
decreasing_by omega

/-- Multiply by a power of ten; there is no result beyond the finite numbers. -/
def scaleUp? (x : Float) (places : Nat) : Option Float :=
  if places ≤ 308 then
    let y := x * powerOfTen places
    if y.isInf then none else some y
  else if x == 0.0 then some x
  else none

/-- `significand · 10 ^ power` as a binary number with a sign. -/
def scaled? (negative : Bool) (significand : Nat) (power : Int) : Option Number :=
  let x := significand.toUInt64.toFloat
  let y := if 0 ≤ power then scaleUp? x power.toNat else some (scaleDown x (-power).toNat)
  y.map fun y => .double (.ofFloat (if negative then -y else y))

/-- The least and greatest exponents that are told apart. -/
def exponentLimit : Nat :=
  Nat.pow 2 31 - 1

/-- The number of a literal, if it is within range. -/
def ofLiteral? (l : Literal) : Option Number :=
  let (significand, extra) := accumulate 0 l.whole
  let (significand', left) := accumulate significand (l.fraction.getD [])
  let places : Int := extra.length - ((l.fraction.getD []).length - left.length : Nat)
  match l.fraction, l.exponent, extra with
  | none, none, [] =>
      if !l.negative then some (.integer significand)
      else if 0 < significand ∧ significand ≤ Nat.pow 2 63 then some (.integer (-significand))
      else scaled? true significand 0
  | _, none, _ => scaled? l.negative significand' places
  | _, some (negative, digits), _ =>
      let n := Nat.ofDigitChars 10 digits 0
      if exponentLimit < n then
        if significand' ≠ 0 ∧ !negative then none else scaled? l.negative 0 0
      else
        scaled? l.negative significand' (if negative then places - n else places + n)

/-- The text of a whole number. -/
def integerText (n : Int) : List Char :=
  if n < 0 then '-' :: Nat.toDigits 10 n.natAbs else Nat.toDigits 10 n.natAbs

/-- The least and greatest power of ten of a leading digit that is written without an exponent. -/
def positionalPowers : Int × Int :=
  (-5, 15)

/-- The text of a decimal: positional with at least one digit after the point, or, for large and
small ones, with one digit before the point and a signed exponent. -/
def decimalText (d : Decimal) : List Char :=
  let e := d.leadingPower
  if positionalPowers.1 ≤ e ∧ e ≤ positionalPowers.2 then
    let (whole, fraction) := d.positional
    whole ++ '.' :: (if fraction.isEmpty then ['0'] else fraction)
  else
    let fraction := d.digits.drop 1
    d.digits.take 1 ++ (if fraction.isEmpty then [] else '.' :: fraction)
      ++ 'e' :: (if e < 0 then '-' else '+') :: Nat.toDigits 10 e.natAbs

/-- The text of a binary number: that of its shortest decimal. -/
def doubleText (x : Double) : List Char :=
  (if x.isNegative then ['-'] else []) ++ decimalText x.shortest

/-- The text of a number. -/
def chars : Number → List Char
  | .integer n => integerText n
  | .double x => doubleText x

/-- The text of a number. -/
def text (n : Number) : String :=
  String.ofList n.chars

end Number
end DesignMarkup
