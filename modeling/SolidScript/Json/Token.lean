import SolidScript.Json.Amount

/-!
# Tokens of JSON

A text is cut into tokens by a machine that looks at one character at a time.  It stops at the first
character that no token can hold there (`Token.bad`).  Two tokens are well formed and yet mean
nothing: a number that is too large, and a string in which half of a surrogate pair is escaped; a
reader that passes over them does not mind.
-/

namespace SolidScript
namespace Json

/-- A token. -/
inductive Token where
  | openArray | closeArray | openObject | closeObject | comma | colon
  | null
  | bool (b : Bool)
  /-- A number, or nothing when it is too large. -/
  | number (amount : Option Amount)
  /-- A string, or nothing when an escape in it is no character. -/
  | text (s : Option String)
  /-- Something that is no token. -/
  | bad
  deriving DecidableEq, Repr

/-- How far a number has been read. -/
inductive NumberPlace where
  | sign | zero | whole | point | part | mark | powerSign | power
  deriving DecidableEq, Repr

namespace NumberPlace

/-- The place after one more character, or nothing when the character does not belong here. -/
def next? (place : NumberPlace) (c : Char) : Option NumberPlace :=
  let isMark := c == 'e' || c == 'E'
  match place with
  | sign => if c = '0' then some zero else if isDecimalDigit c then some whole else none
  | zero => if c = '.' then some point else if isMark then some mark else none
  | whole =>
    if isDecimalDigit c then some whole
    else if c = '.' then some point
    else if isMark then some mark
    else none
  | point => if isDecimalDigit c then some part else none
  | part => if isDecimalDigit c then some part else if isMark then some mark else none
  | mark =>
    if isDecimalDigit c then some power
    else if c = '+' ∨ c = '-' then some powerSign
    else none
  | powerSign => if isDecimalDigit c then some power else none
  | power => if isDecimalDigit c then some power else none

/-- May a number end before this character?  A zero at the front takes no further digit. -/
def endsBefore (place : NumberPlace) (c : Option Char) : Bool :=
  match place with
  | zero => !(c.any isDecimalDigit)
  | whole => true
  | part => true
  | power => true
  | _ => false

end NumberPlace

/-- What has been read of a string: its characters, last one first; the first half of a surrogate
pair, if it waits for the second; and whether every escape so far was a character. -/
structure TextRead where
  seen : List Char := []
  half : Option Nat := none
  whole : Bool := true
  deriving DecidableEq, Repr

namespace TextRead

/-- One more character. -/
def push (r : TextRead) (c : Char) : TextRead :=
  { seen := c :: r.seen, half := none, whole := r.whole && r.half.isNone }

/-- One more escaped UTF-16 unit. -/
def pushUnit (r : TextRead) (unit : Nat) : TextRead :=
  if 0xd800 ≤ unit ∧ unit < 0xdc00 then
    { r with half := some unit, whole := r.whole && r.half.isNone }
  else if 0xdc00 ≤ unit ∧ unit < 0xe000 then
    match r.half with
    | some first =>
      let point := 0x10000 + (first - 0xd800) * 0x400 + (unit - 0xdc00)
      { seen := Char.ofNat point :: r.seen, half := none, whole := r.whole }
    | none => { r with whole := false }
  else r.push (Char.ofNat unit)

/-- The string, if it is one. -/
def finish (r : TextRead) : Option String :=
  if r.whole && r.half.isNone then some (String.ofList r.seen.reverse) else none

end TextRead

/-- What a token in progress waits for. -/
inductive Mode where
  | between
  /-- The letters of a word still to come, and the token it makes. -/
  | word (letters : List Char) (token : Token)
  /-- A number, its characters last one first. -/
  | number (place : NumberPlace) (seen : List Char)
  | text (r : TextRead)
  | escape (r : TextRead)
  /-- A code in hexadecimal: how many digits are still to come and the value so far. -/
  | code (r : TextRead) (left : Nat) (value : Nat)
  deriving DecidableEq, Repr

/-- The value of a hexadecimal digit. -/
def hexValue? (c : Char) : Option Nat :=
  if '0' ≤ c ∧ c ≤ '9' then some (c.toNat - '0'.toNat)
  else if 'a' ≤ c ∧ c ≤ 'f' then some (c.toNat - 'a'.toNat + 10)
  else if 'A' ≤ c ∧ c ≤ 'F' then some (c.toNat - 'A'.toNat + 10)
  else none

/-- The character that a one-letter escape denotes. -/
def escaped? (c : Char) : Option Char :=
  if c = '"' ∨ c = '\\' ∨ c = '/' then some c
  else if c = 'b' then some '\x08'
  else if c = 'f' then some '\x0c'
  else if c = 'n' then some '\n'
  else if c = 'r' then some '\r'
  else if c = 't' then some '\t'
  else none

/-- Starts a token: what is complete at once, and the mode after the character. -/
def start (c : Char) : Option (List Token × Mode) :=
  if c = ' ' ∨ c = '\n' ∨ c = '\t' ∨ c = '\r' then some ([], .between)
  else if c = '[' then some ([.openArray], .between)
  else if c = ']' then some ([.closeArray], .between)
  else if c = '\x7b' then some ([.openObject], .between)
  else if c = '\x7d' then some ([.closeObject], .between)
  else if c = ',' then some ([.comma], .between)
  else if c = ':' then some ([.colon], .between)
  else if c = '"' then some ([], .text {})
  else if c = '-' then some ([], .number .sign [c])
  else if c = '0' then some ([], .number .zero [c])
  else if isDecimalDigit c then some ([], .number .whole [c])
  else if c = 'n' then some ([], .word ['u', 'l', 'l'] .null)
  else if c = 't' then some ([], .word ['r', 'u', 'e'] (.bool true))
  else if c = 'f' then some ([], .word ['a', 'l', 's', 'e'] (.bool false))
  else none

/-- The token of a number. -/
def numberToken (seen : List Char) : Token := .number (Numeral.ofChars seen.reverse).amount

/-- One character: what is complete, and the mode after it; nothing when no token can go on so. -/
def step (mode : Mode) (c : Char) : Option (List Token × Mode) :=
  match mode with
  | .between => start c
  | .word [] _ => none
  | .word [letter] token => if c = letter then some ([token], .between) else none
  | .word (letter :: letters) token => if c = letter then some ([], .word letters token) else none
  | .number place seen =>
    match place.next? c with
    | some place' => some ([], .number place' (c :: seen))
    | none =>
      if place.endsBefore (some c) then
        (start c).map fun (tokens, mode) => (numberToken seen :: tokens, mode)
      else none
  | .text r =>
    if c = '"' then some ([.text r.finish], .between)
    else if c = '\\' then some ([], .escape r)
    else if c.toNat < 0x20 then none
    else some ([], .text (r.push c))
  | .escape r =>
    if c = 'u' then some ([], .code r 4 0)
    else (escaped? c).map fun d => ([], .text (r.push d))
  | .code r left value =>
    match hexValue? c with
    | none => none
    | some d =>
      if left ≤ 1 then some ([], .text (r.pushUnit (16 * value + d)))
      else some ([], .code r (left - 1) (16 * value + d))

/-- A text in the course of being cut: the mode, unless something bad has been met, and the tokens
so far, last one first. -/
structure Scan where
  mode : Option Mode
  found : List Token
  deriving DecidableEq, Repr

namespace Scan

/-- The tokens that the end of the text, or a character that cannot go on, makes of a mode. -/
def close (mode : Mode) (next : Option Char) : List Token :=
  match mode, next with
  | .between, none => []
  | .number place seen, c => if place.endsBefore c then [numberToken seen] else [.bad]
  | _, _ => [.bad]

/-- Adds tokens in order. -/
def add (found new : List Token) : List Token := new.reverse ++ found

/-- One character. -/
def advance (s : Scan) (c : Char) : Scan :=
  match s.mode with
  | none => s
  | some mode =>
    match step mode c with
    | some (new, mode') => ⟨some mode', add s.found new⟩
    | none => ⟨none, .bad :: add s.found (close mode (some c))⟩

/-- All tokens, the text being at its end. -/
def finish (s : Scan) : List Token :=
  match s.mode with
  | none => s.found.reverse
  | some mode => (add s.found (close mode none)).reverse

end Scan

/-- The tokens of a text.  The first bad one ends them. -/
def tokens (text : String) : List Token :=
  (text.toList.foldl Scan.advance ⟨some .between, []⟩).finish

end Json
end SolidScript
