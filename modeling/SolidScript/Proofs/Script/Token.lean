import Mathlib
import SolidScript.Proofs.Number.Numeral
import SolidScript.Proofs.Text.Literal

/-!
# Tokens of a script

The first stage of reading a script: its characters are cut into tokens.  Blanks separate tokens and
are dropped, except inside string literals, between angle brackets and in comments, which run to the
end of their line.
-/

namespace SolidScript
namespace Reading

inductive Bracket where
  | round | square | curly
  deriving DecidableEq, Repr

/-- A token that is not a bracket. -/
inductive Atom where
  | word (name : String)
  | number (value : ℚ)
  | text (content : String)
  /-- What stands between angle brackets. -/
  | path (content : String)
  | comment (content : String)
  | comma
  | semicolon
  | equals
  deriving DecidableEq, Repr

inductive Token where
  | atom (a : Atom)
  | opening (b : Bracket)
  | closing (b : Bracket)
  deriving DecidableEq, Repr

def isSpace (c : Char) : Bool := c == ' ' || c == '\t' || c == '\n' || c == '\r'

/-- A word is read as far as it goes, and it has to be well formed. -/
def takeWord? (c : Char) (cs : List Char) : Option (Token × List Char) :=
  let name := c :: cs.takeWhile Identifier.isTail
  if Identifier.wellFormed name then
    some (.atom (.word (String.ofList name)), cs.dropWhile Identifier.isTail)
  else none

/-- A path runs to the first closing angle bracket. -/
def takePath? (cs : List Char) : Option (Token × List Char) :=
  match cs.dropWhile (· != '>') with
  | [] => none
  | _ :: rest => some (.atom (.path (String.ofList (cs.takeWhile (· != '>')))), rest)

/-- The text of a comment, given the rest of its line: a space before it is not part of it. -/
def commentContent : List Char → List Char
  | ' ' :: rest => rest
  | line => line

/-- A comment starts with two slashes, the first of which has been read, and ends with its line. -/
def takeComment? : List Char → Option (Token × List Char)
  | '/' :: cs =>
    some (.atom (.comment (String.ofList (commentContent (cs.takeWhile (· != '\n'))))),
      cs.dropWhile (· != '\n'))
  | _ => none

/-- Reads the token that starts with the given character. -/
def takeToken? (c : Char) (cs : List Char) : Option (Token × List Char) :=
  if c == '$' || Identifier.isHead c then takeWord? c cs
  else if c == '-' || c.isDigit then
    (takeNumeral? (c :: cs)).map fun (value, rest) => (.atom (.number value), rest)
  else
    match c with
    | '"' =>
      (Text.takeLiteral? cs).map fun (text, rest) => (.atom (.text (String.ofList text)), rest)
    | '<' => takePath? cs
    | '/' => takeComment? cs
    | '(' => some (.opening .round, cs)
    | ')' => some (.closing .round, cs)
    | '[' => some (.opening .square, cs)
    | ']' => some (.closing .square, cs)
    | '\x7b' => some (.opening .curly, cs)
    | '\x7d' => some (.closing .curly, cs)
    | ',' => some (.atom .comma, cs)
    | ';' => some (.atom .semicolon, cs)
    | '=' => some (.atom .equals, cs)
    | _ => none

theorem length_lt_of_takeUnsigned? {cs rest : List Char} {value : ℚ}
    (h : takeUnsigned? cs = some (value, rest)) : rest.length < cs.length := by
  have hwhole : cs.takeWhile Char.isDigit ≠ [] := by
    intro hnil
    simp [takeUnsigned?, hnil] at h
  have hlength :=
    congrArg List.length (List.takeWhile_append_dropWhile (p := Char.isDigit) (l := cs))
  rw [List.length_append] at hlength
  have hpos := List.length_pos_iff.mpr hwhole
  unfold takeUnsigned? at h
  rw [if_neg hwhole] at h
  split at h
  · rename_i tail htail
    rw [htail, List.length_cons] at hlength
    have hle := List.length_dropWhile_le Char.isDigit tail
    dsimp only at h
    split_ifs at h
    cases h
    omega
  · cases h
    omega

theorem length_lt_of_takeNumeral? {cs rest : List Char} {value : ℚ}
    (h : takeNumeral? cs = some (value, rest)) : rest.length < cs.length := by
  unfold takeNumeral? at h
  split at h
  · obtain ⟨⟨_, _⟩, hunsigned, heq⟩ := Option.map_eq_some_iff.mp h
    cases heq
    exact Nat.lt_succ_of_lt (length_lt_of_takeUnsigned? hunsigned)
  · exact length_lt_of_takeUnsigned? h

/-- A token takes at least the character it starts with. -/
theorem length_le_of_takeToken? {c : Char} {cs rest : List Char} {token : Token}
    (h : takeToken? c cs = some (token, rest)) : rest.length ≤ cs.length := by
  unfold takeToken? at h
  split_ifs at h with hword hnumber
  · -- a word
    unfold takeWord? at h
    dsimp only at h
    split_ifs at h
    cases h
    exact List.length_dropWhile_le _ _
  · -- a number, which may begin with the character itself
    obtain ⟨⟨_, _⟩, hnumeral, heq⟩ := Option.map_eq_some_iff.mp h
    cases heq
    exact Nat.le_of_lt_succ (length_lt_of_takeNumeral? hnumeral)
  · split at h
    · obtain ⟨⟨_, _⟩, hliteral, heq⟩ := Option.map_eq_some_iff.mp h
      cases heq
      exact Text.length_le_of_takeLiteral? hliteral
    · unfold takePath? at h
      split at h
      · cases h
      · rename_i heq
        cases h
        have hle := List.length_dropWhile_le (· != '>') cs
        rw [heq, List.length_cons] at hle
        omega
    · unfold takeComment? at h
      split at h
      · cases h
        exact Nat.le_succ_of_le (List.length_dropWhile_le _ _)
      · cases h
    all_goals first
      | exact (Prod.mk.inj (Option.some.inj h)).2 ▸ le_rfl
      | cases h

/-- Cuts a text into its tokens. -/
def tokens : List Char → Option (List Token)
  | [] => some []
  | c :: cs =>
    if isSpace c then tokens cs
    else
      match _h : takeToken? c cs with
      | none => none
      | some (token, rest) => (tokens rest).map (token :: ·)
termination_by cs => cs.length
decreasing_by
  · exact Nat.lt_succ_self _
  · exact Nat.lt_succ_of_le (length_le_of_takeToken? ‹_›)

end Reading
end SolidScript
