import SolidScript.Number.Decimal

/-!
# Shortest decimal digits

`Number.shortest` gives the fewest decimal digits that read back as a finite number, and of those
the ones nearest to it.  A candidate is taken only after it has been read back, and when no grid of
up to seventeen digits holds one, all digits of the exact value are given, so that what is
returned always reads back.
-/

namespace SolidScript

/-- A decimal magnitude `digits * 10 ^ exponent`. -/
structure Scientific where
  digits : Nat
  exponent : Int
  deriving DecidableEq, Repr

/-- Which of two equally near decimal magnitudes is taken. -/
inductive TieRule where
  | toEven
  | away
  deriving DecidableEq, Repr

namespace Number

/-- `floor (log10 v)` or one less for a magnitude `v` of `amount` units, `amount` being positive. -/
def decimalExponentBelow (amount : Nat) : Int :=
  (((amount.log2 : Int) - 1074) * 30103) / 100000

/-- The magnitude of `amount` units over `10 ^ exponent`, as a quotient of natural numbers. -/
def overPower (amount : Nat) (exponent : Int) : Nat × Nat :=
  match exponent with
  | .ofNat e => (amount, unitsPerOne * Nat.pow 10 e)
  | .negSucc e => (amount * Nat.pow 10 (e + 1), unitsPerOne)

/-- `floor (log10 v)` for a magnitude `v` of `amount` units, `amount` being positive. -/
def decimalExponent (amount : Nat) : Int :=
  let e := decimalExponentBelow amount
  let (num, den) := overPower amount (e + 1)
  if den ≤ num then e + 1 else e

/-- Does `digits * 10 ^ exponent` read as the magnitude with this code? -/
def readsBack (code : Fin magnitudeCount) (digits : Nat) (exponent : Int) : Bool :=
  ofScientific false digits exponent == finite false code

/-- The nearer of the two neighbours of the magnitude on the grid of multiples of `10 ^ exponent`
that read back. -/
def onGrid? (tie : TieRule) (code : Fin magnitudeCount) (exponent : Int) : Option Nat :=
  let (num, den) := overPower (units code) exponent
  let low := num / den
  let rest := 2 * (num % den)
  let lowReads := readsBack code low exponent
  let highReads := readsBack code (low + 1) exponent
  let preferHigh := den < rest ∨ (rest = den ∧ (tie = .away ∨ low % 2 = 1))
  if lowReads && highReads then some (if preferHigh then low + 1 else low)
  else if lowReads then some low
  else if highReads then some (low + 1)
  else none

/-- The first of `count` ever finer grids that holds a decimal which reads back. -/
def firstGrid? (tie : TieRule) (code : Fin magnitudeCount) : Nat → Int → Option Scientific
  | 0, _ => none
  | count + 1, exponent =>
    match onGrid? tie code exponent with
    | some digits => some ⟨digits, exponent⟩
    | none => firstGrid? tie code count (exponent - 1)

/-- The same magnitude without trailing zeros in its digits; `fuel` bounds their number. -/
def dropTrailingZeros : Nat → Nat → Int → Scientific
  | 0, digits, exponent => ⟨digits, exponent⟩
  | fuel + 1, digits, exponent =>
    if digits ≠ 0 ∧ digits % 10 = 0 then dropTrailingZeros fuel (digits / 10) (exponent + 1)
    else ⟨digits, exponent⟩

/-- All digits of a magnitude: it has at most 1074 places after the point. -/
def exactDigits (code : Fin magnitudeCount) : Scientific :=
  ⟨units code * Nat.pow 5 1074, -1074⟩

/-- The fewest digits that read back as the magnitude, and of those the nearest. -/
def shortest (tie : TieRule) (code : Fin magnitudeCount) : Scientific :=
  if code.val = 0 then ⟨0, 0⟩
  else
    match firstGrid? tie code 17 (decimalExponent (units code)) with
    | some s => dropTrailingZeros 20 s.digits s.exponent
    | none => exactDigits code

end Number

/-- How the digits of a finite number are laid out: the decimal exponents, of the form `d.ddd`,
that are written without a power of ten, and the rule for two equally near decimals. -/
structure FloatStyle where
  /-- Is this decimal exponent written without a power of ten? -/
  plain : Int → Bool
  tie : TieRule

namespace FloatStyle

/-- `n` zeros. -/
def zeros (n : Nat) : String := String.ofList (List.replicate n '0')

/-- Digits without a power of ten, always with a digit on both sides of the point. -/
def positional (s : Scientific) : String :=
  let ds := Nat.toDigits 10 s.digits
  match s.exponent with
  | .ofNat e => String.ofList ds ++ zeros e ++ ".0"
  | .negSucc e =>
    let places := e + 1
    if places < ds.length then
      String.ofList (ds.take (ds.length - places)) ++ "." ++
        String.ofList (ds.drop (ds.length - places))
    else "0." ++ zeros (places - ds.length) ++ String.ofList ds

/-- One digit, the other digits after a point if there are any, and a signed power of ten. -/
def scientific (s : Scientific) (exponent : Int) : String :=
  let ds := Nat.toDigits 10 s.digits
  let tail := ds.drop 1
  let sign := if exponent < 0 then "-" else "+"
  String.ofList (ds.take 1) ++ (if tail.isEmpty then "" else "." ++ String.ofList tail) ++
    "e" ++ sign ++ toString exponent.natAbs

/-- The text of a finite number. -/
def write (style : FloatStyle) (negative : Bool) (code : Fin magnitudeCount) : String :=
  let s := Number.shortest style.tie code
  let exponent := s.exponent + (Nat.toDigits 10 s.digits).length - 1
  (if negative then "-" else "") ++
    (if style.plain exponent then positional s else scientific s exponent)

end FloatStyle
end SolidScript
