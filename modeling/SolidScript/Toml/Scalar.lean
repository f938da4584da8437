import SolidScript.Toml.Text
import SolidScript.Toml.Value

/-!
# Numbers, dates and truth values in TOML
-/

namespace SolidScript
namespace Toml

/-- The first of two readings that succeeds. -/
def orElse {α : Type} (first second : Reader α) : Reader α := fun cs =>
  match first cs with
  | some r => some r
  | none => second cs

/-- Digits, a single underscore being allowed between two of them.  `fuel` bounds their number. -/
def moreDigits (isDigit : Char → Bool) : Nat → List Char → List Char × List Char
  | 0, cs => ([], cs)
  | fuel + 1, cs =>
    match cs with
    | '_' :: c :: rest =>
      if isDigit c then
        let (ds, after) := moreDigits isDigit fuel rest
        (c :: ds, after)
      else ([], cs)
    | c :: rest =>
      if isDigit c then
        let (ds, after) := moreDigits isDigit fuel rest
        (c :: ds, after)
      else ([], cs)
    | [] => ([], [])

/-- A run of digits that begins with a digit; underscores are left out. -/
def digitRun (isDigit : Char → Bool) : Reader (List Char)
  | c :: rest =>
    if isDigit c then
      let (ds, after) := moreDigits isDigit rest.length rest
      some (c :: ds, after)
    else none
  | [] => none

/-- The digits of a decimal whole number, which begins with a zero only when it is zero. -/
def wholeDigits : Reader (List Char)
  | '0' :: rest => some (['0'], rest)
  | cs => digitRun isDecimalDigit cs

/-- Whole numbers of 64 bits. -/
def boundedInteger (n : Int) : Option Value :=
  if -Int.pow 2 63 ≤ n ∧ n < Int.pow 2 63 then some (.integer n) else none

/-- A whole number in another base than ten. -/
def basedInteger (base : Nat) (cs : List Char) : Option (Value × List Char) :=
  let isDigit (c : Char) := (hexValue? c).any (· < base)
  match digitRun isDigit cs with
  | none => none
  | some (ds, rest) =>
    (boundedInteger (ds.foldl (fun n c => base * n + (hexValue? c).getD 0) 0 : Nat)).map (·, rest)

/-- A whole number. -/
def integer : Reader Value
  | '0' :: 'x' :: rest => basedInteger 16 rest
  | '0' :: 'o' :: rest => basedInteger 8 rest
  | '0' :: 'b' :: rest => basedInteger 2 rest
  | cs =>
    let (negative, body) := takeSign cs
    match wholeDigits body with
    | none => none
    | some (ds, rest) =>
      let n : Int := digitsValue ds
      (boundedInteger (if negative then -n else n)).map (·, rest)

/-- The digits of a power of ten, with its sign. -/
def power : Reader Int
  | c :: rest =>
    if c = 'e' ∨ c = 'E' then
      let (negative, body) := takeSign rest
      (digitRun isDecimalDigit body).map fun (ds, after) =>
        ((if negative then -(digitsValue ds : Int) else digitsValue ds), after)
    else none
  | [] => none

/-- A finite float.  A positive one that is too large is refused. -/
def nearestFloat (negative : Bool) (ds part : List Char) (exponent : Int) : Option Value :=
  match Number.ofScientific negative (digitsValue (ds ++ part)) (exponent - part.length) with
  | .infinity false => none
  | x => some (.float x)

/-- A number with a point or a power of ten. -/
def finiteFloat (cs : List Char) : Option (Value × List Char) :=
  let (negative, body) := takeSign cs
  match wholeDigits body with
  | none => none
  | some (ds, '.' :: rest) =>
    match digitRun isDecimalDigit rest with
    | none => none
    | some (part, after) =>
      match power after with
      | some (exponent, after') => (nearestFloat negative ds part exponent).map (·, after')
      | none => (nearestFloat negative ds part 0).map (·, after)
  | some (ds, rest) =>
    match power rest with
    | some (exponent, after) => (nearestFloat negative ds [] exponent).map (·, after)
    | none => none

/-- Infinity and not-a-number, with an optional sign. -/
def specialFloat (cs : List Char) : Option (Value × List Char) :=
  let (negative, body) := takeSign cs
  match body with
  | 'i' :: 'n' :: 'f' :: rest => some (.float (.infinity negative), rest)
  | 'n' :: 'a' :: 'n' :: rest => some (.float .nan, rest)
  | _ => none

/-- Exactly `count` digits of a number between two bounds. -/
def fixedNumber (count low high : Nat) (cs : List Char) : Option (Nat × List Char) :=
  let ds := cs.take count
  let n := digitsValue ds
  if ds.length = count ∧ ds.all isDecimalDigit ∧ low ≤ n ∧ n ≤ high then some (n, cs.drop count)
  else none

/-- How many days a month has. -/
def daysOf (year month : Nat) : Nat :=
  if month = 2 then
    if year % 4 = 0 ∧ (year % 100 ≠ 0 ∨ year % 400 = 0) then 29 else 28
  else if month = 4 ∨ month = 6 ∨ month = 9 ∨ month = 11 then 30
  else 31

/-- Passes over a date. -/
def date? (cs : List Char) : Option (List Char) := do
  let (year, cs) ← fixedNumber 4 0 9999 cs
  let cs ← take ['-'] cs
  let (month, cs) ← fixedNumber 2 1 12 cs
  let cs ← take ['-'] cs
  let (_, cs) ← fixedNumber 2 1 (daysOf year month) cs
  some cs

/-- Passes over a time of day; a second may be a leap second and have a fraction. -/
def time? (cs : List Char) : Option (List Char) := do
  let (_, cs) ← fixedNumber 2 0 23 cs
  let cs ← take [':'] cs
  let (_, cs) ← fixedNumber 2 0 59 cs
  let cs ← take [':'] cs
  let (_, cs) ← fixedNumber 2 0 60 cs
  match cs with
  | '.' :: c :: rest =>
    if isDecimalDigit c then some (rest.dropWhile isDecimalDigit) else some cs
  | _ => some cs

/-- Passes over an offset from universal time, if there is one. -/
def offset? (cs : List Char) : Option (List Char) :=
  match cs with
  | 'Z' :: rest => some rest
  | 'z' :: rest => some rest
  | c :: rest =>
    if c = '+' ∨ c = '-' then do
      let (_, rest) ← fixedNumber 2 0 23 rest
      let rest ← take [':'] rest
      let (_, rest) ← fixedNumber 2 0 59 rest
      some rest
    else some cs
  | [] => some cs

/-- A date, a time, or a date with a time. -/
def moment (cs : List Char) : Option (Value × List Char) :=
  match date? cs with
  | some rest =>
    match rest with
    | c :: tail =>
      if c = 'T' ∨ c = 't' ∨ c = ' ' then
        match time? tail with
        | some after => (offset? after).map (Value.moment, ·)
        | none => some (.moment, rest)
      else some (.moment, rest)
    | [] => some (.moment, rest)
  | none => (time? cs).map (Value.moment, ·)

/-- A truth value. -/
def boolean : Reader Value
  | 't' :: 'r' :: 'u' :: 'e' :: rest => some (.boolean true, rest)
  | 'f' :: 'a' :: 'l' :: 's' :: 'e' :: rest => some (.boolean false, rest)
  | _ => none

/-- A string as a value. -/
def textValue (cs : List Char) : Option (Value × List Char) :=
  (string cs).map fun (s, rest) => (.text s, rest)

/-- A value that holds no other values. -/
def scalar : Reader Value :=
  orElse textValue (orElse boolean (orElse moment (orElse finiteFloat
    (orElse specialFloat integer))))

end Toml
end SolidScript
