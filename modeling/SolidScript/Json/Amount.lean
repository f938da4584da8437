import SolidScript.Number.Decimal
import SolidScript.Number.Shortest

/-!
# Numbers in JSON

How a JSON number is read and written.  Whole numbers of 64 bits are kept exactly.  Any other number
is read from its leading digits, as many as fit into 64 bits, with one multiplication or division by
a power of ten; that is close to the written number but not always nearest to it.  A number is
written with the fewest digits that denote it, and with a power of ten only when its first digit
stands further than sixteen places before the point or five places after it.
-/

namespace SolidScript
namespace Json

/-- A number as JSON keeps it. -/
inductive Amount where
  /-- A whole number that is not negative. -/
  | natural (n : Nat)
  /-- A whole number below zero, by its magnitude. -/
  | negative (n : Nat)
  | float (x : Number)
  deriving DecidableEq, Repr

namespace Amount

/-- The nearest binary number. -/
def toNumber : Amount → Number
  | natural n => Number.ofNat n
  | negative n => Number.ofRatio true n 1
  | float x => x

end Amount

/-- The parts of a written number: its sign, the digits before the point, the digits after it, and
the sign and digits of its power of ten, if there are such parts. -/
structure Numeral where
  negative : Bool
  whole : List Char
  part : Option (List Char)
  power : Option (Bool × List Char)
  deriving DecidableEq, Repr

namespace Numeral

/-- Significands stay below this bound. -/
def significandBound : Nat := Nat.pow 2 64

/-- Powers of ten are written with numbers below this bound. -/
def powerBound : Nat := Nat.pow 2 31

/-- Takes digits into a significand while it stays below its bound; the digits left over are
returned too. -/
def takeDigits (significand : Nat) : List Char → Nat × List Char
  | [] => (significand, [])
  | c :: rest =>
    let next := 10 * significand + (digitValue? c).getD 0
    if next < significandBound then takeDigits next rest else (significand, c :: rest)

/-- A magnitude divided by `10 ^ 308`, `count` times. -/
def divideOften : Nat → Number → Number
  | count + 1, .finite _ code =>
    divideOften count (Number.divMagnitude code (Number.nearestCode (Nat.pow 10 308) 1))
  | _, x => x

/-- A finite number times `10 ^ exponent`, computed with one operation unless the exponent is below
`-308`.  There is no result when it is too large. -/
def scaleNumber (x : Number) (exponent : Int) : Option Number :=
  match x with
  | .finite _ code =>
    match exponent with
    | .ofNat e =>
      if e ≤ 308 then
        match Number.mulMagnitude code (Number.nearestCode (Nat.pow 10 e) 1) with
        | .finite negative result => some (.finite negative result)
        | _ => none
      else if code.val = 0 then some (Number.zero false)
      else none
    | .negSucc e =>
      let places := e + 1
      if 308 * 4 < places then some (Number.zero false)
      else
        match divideOften ((places - 1) / 308) (.finite false code) with
        | .finite _ reduced =>
          some (Number.divMagnitude reduced
            (Number.nearestCode (Nat.pow 10 (places - (places - 1) / 308 * 308)) 1))
        | _ => none
  | _ => none

/-- A significand times `10 ^ exponent`, both rounded first. -/
def scale (significand : Nat) (exponent : Int) : Option Number :=
  scaleNumber (Number.ofNat significand) exponent

/-- A number with the given sign. -/
def signed (negative : Bool) (x : Number) : Number := if negative then x.neg else x

/-- Keeps an exponent within the numbers of 32 bits. -/
def clampPower (exponent : Int) : Int :=
  if exponent < -Int.pow 2 31 then -Int.pow 2 31
  else if Int.pow 2 31 - 1 < exponent then Int.pow 2 31 - 1
  else exponent

/-- The number with a significand and an exponent, both read from the digits, and the written power
of ten. -/
def assemble (negative : Bool) (significand : Nat) (exponent : Int)
    (power : Option (Bool × List Char)) : Option Amount :=
  match power with
  | none => (scale significand exponent).map fun x => .float (signed negative x)
  | some (down, digits) =>
    let written := digitsValue digits
    if written < powerBound then
      let total := clampPower (if down then exponent - written else exponent + written)
      (scale significand total).map fun x => .float (signed negative x)
    else if significand ≠ 0 ∧ down = false then none
    else some (.float (Number.zero negative))

/-- A whole number that fits. -/
def wholeAmount (negative : Bool) (significand : Nat) : Amount :=
  if negative then
    if significand = 0 ∨ Nat.pow 2 63 < significand then
      .float (signed true (Number.ofNat significand))
    else .negative significand
  else .natural significand

/-- The number that is meant, if it is not too large. -/
def amount (numeral : Numeral) : Option Amount :=
  let (significand, extra) := takeDigits 0 numeral.whole
  match numeral.part with
  | some digits =>
    let (significand', left) := takeDigits significand digits
    assemble numeral.negative significand' ((extra.length : Int) - (digits.length - left.length))
      numeral.power
  | none =>
    match numeral.power, extra with
    | none, [] => some (wholeAmount numeral.negative significand)
    | power, _ => assemble numeral.negative significand extra.length power

/-- The parts of the characters of a number. -/
def ofChars (cs : List Char) : Numeral :=
  let (negative, body) := takeSign cs
  let (whole, rest) := spanDigits body
  let (part, rest) := match rest with
    | '.' :: tail => (some (spanDigits tail).1, (spanDigits tail).2)
    | _ => (none, rest)
  let power := match rest with
    | _ :: tail => some (takeSign tail)
    | [] => none
  ⟨negative, whole, part, power⟩

end Numeral

/-- How a finite number is written. -/
def floatStyle : FloatStyle := ⟨fun exponent => -5 ≤ exponent && exponent ≤ 15, .toEven⟩

namespace Amount

/-- The text of a number, if it has one. -/
def write : Amount → Option String
  | natural n => some (toString n)
  | negative n => some ("-" ++ toString n)
  | float (.finite sign code) => some (floatStyle.write sign code)
  | float _ => none

end Amount
end Json
end SolidScript
