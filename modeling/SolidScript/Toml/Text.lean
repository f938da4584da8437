import SolidScript.Number.Decimal

/-!
# Blanks, strings and names in TOML

Readers take the characters from where they stand and give back what they read and the characters
after it.
-/

namespace SolidScript
namespace Toml

/-- A reader. -/
abbrev Reader (α : Type) := List Char → Option (α × List Char)

/-- Takes the given characters. -/
def take : List Char → List Char → Option (List Char)
  | [], cs => some cs
  | _ :: _, [] => none
  | expected :: rest, c :: cs => if c = expected then take rest cs else none

/-- Passes over spaces and tabs. -/
def skipSpaces (cs : List Char) : List Char := cs.dropWhile fun c => c == ' ' || c == '\t'

/-- May the character stand in a comment or, quotes and backslashes apart, in a string? -/
def isPlain (c : Char) : Bool := c == '\t' || (0x20 ≤ c.toNat && c.toNat != 0x7f)

/-- Passes over the end of a line. -/
def newline? : List Char → Option (List Char)
  | '\n' :: rest => some rest
  | '\r' :: '\n' :: rest => some rest
  | _ => none

/-- Passes over a comment, if there is one. -/
def skipComment : List Char → List Char
  | '#' :: rest => rest.dropWhile isPlain
  | cs => cs

/-- Passes over what may follow a statement on its line, and the end of the line or of the text. -/
def endOfLine? (cs : List Char) : Option (List Char) :=
  match skipComment (skipSpaces cs) with
  | [] => some []
  | rest => newline? rest

/-- Passes over spaces, comments and ends of lines.  `fuel` bounds the number of lines. -/
def skipLines : Nat → List Char → List Char
  | 0, cs => cs
  | fuel + 1, cs =>
    let rest := skipComment (skipSpaces cs)
    match newline? rest with
    | some after => skipLines fuel after
    | none => rest

/-- The value of a hexadecimal digit. -/
def hexValue? (c : Char) : Option Nat :=
  if '0' ≤ c ∧ c ≤ '9' then some (c.toNat - '0'.toNat)
  else if 'a' ≤ c ∧ c ≤ 'f' then some (c.toNat - 'a'.toNat + 10)
  else if 'A' ≤ c ∧ c ≤ 'F' then some (c.toNat - 'A'.toNat + 10)
  else none

/-- A character by `count` hexadecimal digits of its code point. -/
def codePoint (count : Nat) (value : Nat) : Reader Char := fun cs =>
  match count, cs with
  | 0, _ => if h : value.isValidChar then some (Char.ofNatAux value h, cs) else none
  | _ + 1, [] => none
  | left + 1, c :: rest =>
    match hexValue? c with
    | some d => codePoint left (16 * value + d) rest
    | none => none

/-- What a backslash and the characters after it denote. -/
def escape : Reader Char
  | 'b' :: rest => some ('\x08', rest)
  | 't' :: rest => some ('\t', rest)
  | 'n' :: rest => some ('\n', rest)
  | 'f' :: rest => some ('\x0c', rest)
  | 'r' :: rest => some ('\r', rest)
  | '"' :: rest => some ('"', rest)
  | '\\' :: rest => some ('\\', rest)
  | 'u' :: rest => codePoint 4 0 rest
  | 'U' :: rest => codePoint 8 0 rest
  | _ => none

/-- Passes over spaces, tabs and ends of lines. -/
def skipBlanks : List Char → List Char
  | ' ' :: rest => skipBlanks rest
  | '\t' :: rest => skipBlanks rest
  | '\n' :: rest => skipBlanks rest
  | '\r' :: '\n' :: rest => skipBlanks rest
  | cs => cs

/-- Passes over the end of a line that a backslash hides, and over all blanks and ends of lines
after it. -/
def joinLine? (cs : List Char) : Option (List Char) :=
  (newline? (skipSpaces cs)).map skipBlanks

/-- The kinds of strings: with or without escapes, on one line or on several. -/
structure Quotation where
  quote : Char
  escapes : Bool
  manyLines : Bool

/-- The end of a string on several lines: three quotes and up to two more, which belong to it. -/
def closing? (quote : Char) (cs : List Char) : Option (List Char × List Char) :=
  match take [quote, quote, quote] cs with
  | none => none
  | some rest =>
    let extra := (rest.take 2).takeWhile (· == quote)
    some (extra, rest.drop extra.length)

/-- The rest of a string after its opening quotes, with what has been read of it in reverse.  `fuel`
bounds the number of characters. -/
def stringRest (kind : Quotation) : Nat → List Char → Reader String
  | 0, _, _ => none
  | _ + 1, _, [] => none
  | fuel + 1, seen, c :: rest =>
    if c = kind.quote then
      if kind.manyLines then
        match closing? kind.quote (c :: rest) with
        | some (extra, after) => some (String.ofList (seen.reverse ++ extra), after)
        | none => stringRest kind fuel (c :: seen) rest
      else some (String.ofList seen.reverse, rest)
    else if kind.escapes && c == '\\' then
      match escape rest with
      | some (d, after) => stringRest kind fuel (d :: seen) after
      | none =>
        if kind.manyLines then
          match joinLine? rest with
          | some after => stringRest kind fuel seen after
          | none => none
        else none
    else if isPlain c then stringRest kind fuel (c :: seen) rest
    else if kind.manyLines then
      match newline? (c :: rest) with
      | some after => stringRest kind fuel ('\n' :: seen) after
      | none => none
    else none

/-- A string on one line. -/
def lineString : Reader String
  | '"' :: rest => stringRest ⟨'"', true, false⟩ (rest.length + 1) [] rest
  | '\x27' :: rest => stringRest ⟨'\x27', false, false⟩ (rest.length + 1) [] rest
  | _ => none

/-- A string on one or several lines; the first line may be empty. -/
def string (cs : List Char) : Option (String × List Char) :=
  let many (quote : Char) (escapes : Bool) (rest : List Char) :=
    let body := (newline? rest).getD rest
    stringRest ⟨quote, escapes, true⟩ (body.length + 1) [] body
  match cs with
  | '"' :: '"' :: '"' :: rest => many '"' true rest
  | '\x27' :: '\x27' :: '\x27' :: rest => many '\x27' false rest
  | _ => lineString cs

/-- May the character stand in a name without quotes? -/
def isBare (c : Char) : Bool := c.isAlphanum || c == '_' || c == '-'

/-- One name. -/
def simpleName (cs : List Char) : Option (String × List Char) :=
  match cs with
  | '"' :: _ => lineString cs
  | '\x27' :: _ => lineString cs
  | _ =>
    let bare := cs.takeWhile isBare
    if bare.isEmpty then none else some (String.ofList bare, cs.dropWhile isBare)

/-- How many names may be joined by dots, and how deep arrays and braces may nest: less than
this. -/
def nestingLimit : Nat := 80

/-- Names joined by dots, with spaces around them.  `fuel` bounds their number. -/
def names : Nat → Reader (List String)
  | 0, _ => none
  | fuel + 1, cs =>
    match simpleName (skipSpaces cs) with
    | none => none
    | some (name, rest) =>
      match skipSpaces rest with
      | '.' :: more => (names fuel more).map fun (others, after) => (name :: others, after)
      | after => some ([name], after)

/-- The names of a statement: fewer than the limit. -/
def dottedName (cs : List Char) : Option (List String × List Char) := names (nestingLimit - 1) cs

end Toml
end SolidScript
