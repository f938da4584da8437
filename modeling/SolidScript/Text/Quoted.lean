import SolidScript.Text.Printable

/-!
# Quoted text

Two ways of writing a text between double quotes: the string literal of a script (`quote`), which
escapes only what would end or break it, and the literal of a message to a person (`display`),
which also shows every character without a visible form by its code point.
-/

namespace SolidScript
namespace Text

/-- A character inside a string literal of a script. -/
def quoteChar (c : Char) : List Char :=
  if c = '"' then ['\\', '"']
  else if c = '\\' then ['\\', '\\']
  else if c = '\n' then ['\\', 'n']
  else if c = '\r' then ['\\', 'r']
  else if c = '\t' then ['\\', 't']
  else [c]

/-- The string literal of a text, as characters. -/
def quoteChars (cs : List Char) : List Char := '"' :: (cs.flatMap quoteChar ++ ['"'])

/-- The string literal of a text. -/
def quote (text : String) : String := String.ofList (quoteChars text.toList)

/-- A character by its code point. -/
def codePoint (c : Char) : List Char :=
  ['\\', 'u', '\x7b'] ++ Nat.toDigits 16 c.toNat ++ ['\x7d']

/-- A character inside a literal that is shown to a person. -/
def displayChar (c : Char) : List Char :=
  if c = '\x00' then ['\\', '0']
  else if c = '"' ∨ c = '\\' ∨ c = '\n' ∨ c = '\r' ∨ c = '\t' then quoteChar c
  else if isCombining c || isUnprintable c then codePoint c
  else [c]

/-- The literal by which a text is shown to a person. -/
def display (text : String) : String :=
  String.ofList ('"' :: (text.toList.flatMap displayChar ++ ['"']))

end Text
end SolidScript
