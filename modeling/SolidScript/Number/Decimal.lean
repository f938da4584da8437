import SolidScript.Number.Basic

/-!
# Reading decimal text

A decimal text is an optional sign followed by `inf`, `infinity` or `nan` in any letter case, or by
digits with an optional point and an optional power of ten.  `Decimal.parse?` reads the text
exactly, and `Decimal.toNumber` and `Decimal.toSingle` round what was read once.
-/

namespace SolidScript

/-- What a decimal text denotes, before any rounding. -/
inductive Decimal where
  | nan
  | infinity (negative : Bool)
  | finite (negative : Bool) (digits : Nat) (exponent : Int)
  deriving DecidableEq, Repr

/-- The value of a decimal digit. -/
def digitValue? (c : Char) : Option Nat :=
  if '0' ≤ c ∧ c ≤ '9' then some (c.toNat - '0'.toNat) else none

def isDecimalDigit (c : Char) : Bool := (digitValue? c).isSome

/-- The number written by a run of digits; other characters are passed over. -/
def digitsValue (cs : List Char) : Nat :=
  cs.foldl (fun n c => match digitValue? c with
    | some d => 10 * n + d
    | none => n) 0

/-- The run of digits at the front, and what follows it. -/
def spanDigits (cs : List Char) : List Char × List Char :=
  (cs.takeWhile isDecimalDigit, cs.dropWhile isDecimalDigit)

/-- The sign at the front, if there is one, and what follows it. -/
def takeSign : List Char → Bool × List Char
  | '+' :: rest => (false, rest)
  | '-' :: rest => (true, rest)
  | cs => (false, cs)

namespace Number

/-- The number nearest to `digits * 10 ^ exponent`.  Exponents that decide the result on their own
are answered without computing the power. -/
def ofScientificWith (round : Bool → Nat → Nat → Number) (negative : Bool) (digits : Nat)
    (exponent : Int) : Number :=
  match exponent with
  | .ofNat e =>
    if digits = 0 then zero negative
    else if 400 < e then infinity negative
    else round negative (digits * Nat.pow 10 e) 1
  | .negSucc e =>
    if digits = 0 ∨ digits.log2 + 400 < e then zero negative
    else round negative digits (Nat.pow 10 (e + 1))

/-- The number nearest to `digits * 10 ^ exponent`. -/
def ofScientific (negative : Bool) (digits : Nat) (exponent : Int) : Number :=
  ofScientificWith ofRatio negative digits exponent

end Number

namespace Decimal

/-- The power of ten at the end of a decimal text: nothing, or a marker, a sign and digits. -/
def parseExponent? : List Char → Option Int
  | [] => some 0
  | c :: rest =>
    if c = 'e' ∨ c = 'E' then
      let (negative, body) := takeSign rest
      if body.isEmpty || !body.all isDecimalDigit then none
      else if negative then some (-(digitsValue body : Int))
      else some (digitsValue body)
    else none

/-- Digits with an optional point: the digits as one number, how many stand after the point, and
what follows.  At least one digit is needed on either side. -/
def parseDigits? (cs : List Char) : Option (Nat × Nat × List Char) :=
  let (whole, rest) := spanDigits cs
  let (part, rest) := match rest with
    | '.' :: tail => spanDigits tail
    | _ => ([], rest)
  if whole.isEmpty && part.isEmpty then none
  else some (digitsValue (whole ++ part), part.length, rest)

/-- Reads a decimal text; nothing may stand before or after it. -/
def parse? (text : String) : Option Decimal :=
  let (negative, body) := takeSign text.toList
  let word := body.map Char.toLower
  if word = "nan".toList then some nan
  else if word = "inf".toList ∨ word = "infinity".toList then some (infinity negative)
  else match parseDigits? body with
    | none => none
    | some (digits, places, rest) =>
      match parseExponent? rest with
      | none => none
      | some exponent => some (finite negative digits (exponent - places))

/-- The nearest number. -/
def toNumber : Decimal → Number
  | nan => .nan
  | infinity negative => .infinity negative
  | finite negative digits exponent => .ofScientific negative digits exponent

/-- The nearest number of single precision. -/
def toSingle : Decimal → Number
  | nan => .nan
  | infinity negative => .infinity negative
  | finite negative digits exponent =>
    .ofScientificWith .ofRatioSingle negative digits exponent

end Decimal

/-- The number nearest to a decimal text. -/
def Number.parse? (text : String) : Option Number :=
  (Decimal.parse? text).map Decimal.toNumber

/-- A whole number below `bound`, with an optional plus sign. -/
def parseNatural? (bound : Nat) (text : String) : Option Nat :=
  let digits := match text.toList with
    | '+' :: rest => rest
    | cs => cs
  if digits.isEmpty || !digits.all isDecimalDigit then none
  else
    let n := digitsValue digits
    if n < bound then some n else none

end SolidScript
