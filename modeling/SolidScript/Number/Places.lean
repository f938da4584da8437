import SolidScript.Number.Basic

/-!
# Fixed decimal places

A finite number is written with a fixed number of places after the point: the exact value is
rounded to the nearest multiple of `10 ^ -places`, a half going to the even multiple.  `fixed` keeps
all places; `trimmed` drops trailing zeros, and then the point when nothing follows it.
-/

namespace SolidScript
namespace Number

/-- The magnitude with this code, in multiples of `10 ^ -places`. -/
def scaled (places code : Nat) : Nat := nearest (units code * Nat.pow 10 places) unitsPerOne

/-- The digits of `n`, zeros being put in front until there are `width` of them. -/
def padded (width n : Nat) : List Char :=
  let ds := Nat.toDigits 10 n
  List.replicate (width - ds.length) '0' ++ ds

/-- The digits after the point without the zeros at their end. -/
def trimZeros (ds : List Char) : List Char := (ds.reverse.dropWhile (· == '0')).reverse

/-- `k * 10 ^ -places` with all places. -/
def fixedDigits (places k : Nat) : List Char :=
  Nat.toDigits 10 (k / Nat.pow 10 places) ++ '.' :: padded places (k % Nat.pow 10 places)

/-- `k * 10 ^ -places` with as few places as it needs. -/
def trimmedDigits (places k : Nat) : List Char :=
  let part := trimZeros (padded places (k % Nat.pow 10 places))
  Nat.toDigits 10 (k / Nat.pow 10 places) ++ (if part.isEmpty then [] else '.' :: part)

/-- The magnitude with this code, written with all of the given places. -/
def fixed (places code : Nat) : String := String.ofList (fixedDigits places (scaled places code))

/-- A finite number with as few of the given places as it needs.  What rounds to zero has no
sign. -/
def trimmed (places : Nat) (negative : Bool) (code : Nat) : String :=
  let k := scaled places code
  (if negative && k != 0 then "-" else "") ++ String.ofList (trimmedDigits places k)

end Number
end SolidScript
