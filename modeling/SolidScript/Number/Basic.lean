/-!
# Binary numbers

The numbers of a model are the binary64 numbers: a not-a-number, two infinities and the finite
numbers with their sign.  A finite magnitude is its *code*, the position of the magnitude in the
increasing list of all finite magnitudes, so that `0` is zero and the least positive magnitude,
`2 ^ -1074`, has code `1`.  Every finite magnitude is a whole number of units of `2 ^ -1074`
(`Number.units`), so that all arithmetic here is exact arithmetic on natural numbers followed by
one rounding (`Number.ofRatio`).

Powers are written with `Nat.pow`, which is the same function whatever else is imported.
-/

namespace SolidScript

/-- The integer nearest to `num / den`; a half goes to the even neighbour. -/
def nearest (num den : Nat) : Nat :=
  let q := num / den
  let r := num % den
  if 2 * r < den then q
  else if 2 * r = den then q + q % 2
  else q + 1

/-- The number of finite magnitudes. -/
def magnitudeCount : Nat := 2047 * Nat.pow 2 52

/-- A binary64 number.  All not-a-numbers count as one. -/
inductive Number where
  | nan
  | infinity (negative : Bool)
  | finite (negative : Bool) (code : Fin magnitudeCount)
  deriving DecidableEq, Repr

namespace Number

instance : Inhabited Number := ⟨nan⟩

/-- How many units `2 ^ -1074` there are in one whole. -/
def unitsPerOne : Nat := Nat.pow 2 1074

/-- The magnitude of a code, in units of `2 ^ -1074`.  Above the first `2 ^ 52` codes each run of
`2 ^ 52` codes has the same spacing, twice that of the run before it from the third run on. -/
def units (code : Nat) : Nat :=
  if code < Nat.pow 2 52 then code
  else (Nat.pow 2 52 + code % Nat.pow 2 52) * Nat.pow 2 (code / Nat.pow 2 52 - 1)

/-- The multiple of a power of two nearest to `num / den` that has at most `precision` binary
digits, as its digits and the power; a half goes to even digits. -/
def roundToPrecision (precision num den : Nat) : Nat × Nat :=
  let shift := (num / den).log2 - (precision - 1)
  (nearest num (den * Nat.pow 2 shift), shift)

/-- The code of the magnitude nearest to `num / den`.  It is `magnitudeCount` or more when the
quotient is too large for a finite magnitude. -/
def nearestCode (num den : Nat) : Nat :=
  let (digits, shift) := roundToPrecision 53 (num * unitsPerOne) den
  shift * Nat.pow 2 52 + digits

/-- The number of the given sign and code, infinite when the code is out of range. -/
def ofCode (negative : Bool) (code : Nat) : Number :=
  if h : code < magnitudeCount then finite negative ⟨code, h⟩ else infinity negative

/-- The number nearest to `num / den`, with the given sign. -/
def ofRatio (negative : Bool) (num den : Nat) : Number :=
  ofCode negative (nearestCode num den)

/-- The number nearest to `num / den` among the binary32 numbers. -/
def ofRatioSingle (negative : Bool) (num den : Nat) : Number :=
  let (digits, shift) := roundToPrecision 24 (num * Nat.pow 2 149) den
  let amount := digits * Nat.pow 2 shift
  if amount < Nat.pow 2 277 then ofRatio negative amount (Nat.pow 2 149) else infinity negative

/-- Zero of the given sign. -/
def zero (negative : Bool) : Number := ofCode negative 0

/-- The number nearest to a natural number. -/
def ofNat (n : Nat) : Number := ofRatio false n 1

/-- The number nearest to an integer.  The integer `0` gives the positive zero. -/
def ofInt (n : Int) : Number := ofRatio (decide (n < 0)) n.natAbs 1

def isFinite : Number → Bool
  | finite _ _ => true
  | _ => false

/-- The other number of the same magnitude. -/
def neg : Number → Number
  | nan => nan
  | infinity negative => infinity (!negative)
  | finite negative code => finite (!negative) code

/-- Numeric equality: a not-a-number equals nothing and the two zeros are equal. -/
def equal : Number → Number → Bool
  | infinity a, infinity b => a == b
  | finite a c, finite b d => c == d && (a == b || c.val == 0)
  | _, _ => false

/-- The product of two finite magnitudes, rounded once. -/
def mulMagnitude (a b : Nat) : Number :=
  ofRatio false (units a * units b) (unitsPerOne * unitsPerOne)

/-- The quotient of two finite magnitudes, rounded once; the divisor is not zero. -/
def divMagnitude (a b : Nat) : Number :=
  ofRatio false (units a) (units b)

/-- The interchange bits: the sign in bit 63 and the code, or the place after the last code for an
infinity, below it. -/
def toBits : Number → Nat
  | nan => magnitudeCount + Nat.pow 2 51
  | infinity negative => (if negative then Nat.pow 2 63 else 0) + magnitudeCount
  | finite negative code => (if negative then Nat.pow 2 63 else 0) + code

/-- The number with the given interchange bits. -/
def ofBits (bits : Nat) : Number :=
  let negative := decide (Nat.pow 2 63 ≤ bits)
  let code := bits % Nat.pow 2 63
  if magnitudeCount < code then nan else ofCode negative code

/-- The name of a number in a message: digits are only for finite numbers, so these three names
serve all others. -/
def nonFiniteName : Number → String
  | nan => "NaN"
  | infinity true => "-inf"
  | infinity false => "inf"
  | finite _ _ => ""

end Number
end SolidScript
