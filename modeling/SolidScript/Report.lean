import SolidScript.Config.Environment
import SolidScript.Config.Toml
import SolidScript.Number.Places

/-!
# Reports

What a person is told about a run: a summary, a configuration, an error, a warning or a success.
Colours are switched on or off for a report as a whole; without them the text is the same but for
the control sequences.
-/

namespace SolidScript
namespace Report

/-- The variables that decide about colours. -/
def colorVariables : List String := ["CLICOLOR_FORCE", "NO_COLOR", "CLICOLOR"]

/-- Are colours wanted?  They can be forced; else they can be ruled out; else they are for
terminals, unless they are switched off there too. -/
def wantsColor (env : Environment) (terminal : Bool) : Bool :=
  if (env.get? "CLICOLOR_FORCE").any (· != "0") then true
  else if (env.get? "NO_COLOR").isSome then false
  else (env.get? "CLICOLOR").all (· != "0") && terminal

/-- A way to set text apart on a terminal. -/
inductive Ink where
  | bold
  | grey
  | cyan
  | green
  | yellow
  | boldRed
  | boldYellow
  deriving DecidableEq, Repr

/-- The numbers that select an ink on a terminal. -/
def Ink.codes : Ink → String
  | bold => "1"
  | grey => "90"
  | cyan => "36"
  | green => "32"
  | yellow => "33"
  | boldRed => "1;31"
  | boldYellow => "1;33"

/-- The control sequence after which text has this ink. -/
def Ink.start (ink : Ink) : String := "\x1b[" ++ ink.codes ++ "m"

/-- The control sequence after which text has no ink. -/
def plain : String := "\x1b[0m"

/-- A text in which something is started again wherever the text ends all inks. -/
def startAgain (start : List Char) : List Char → List Char
  | '\x1b' :: '[' :: '0' :: 'm' :: rest => plain.toList ++ start ++ startAgain start rest
  | c :: rest => c :: startAgain start rest
  | [] => []

/-- The text in an ink.  Where the text itself ends all inks, this one is started again. -/
def paint (color : Bool) (ink : Ink) (text : String) : String :=
  if color then
    ink.start ++ String.ofList (startAgain ink.start.toList text.toList) ++ plain
  else text

/-- The code of `n / unit`, `n` being rounded to a number before it is divided. -/
def quotientCode (n unit : Nat) : Nat :=
  Number.nearestCode (Number.units (Number.nearestCode n 1)) (unit * Number.unitsPerOne)

/-- A duration in microseconds, in the largest unit of which it is at least one. -/
def duration (micros : Nat) : String :=
  if micros < 1000 then toString micros ++ "µs"
  else if micros < 1000000 then Number.fixed 2 (quotientCode micros 1000) ++ "ms"
  else Number.fixed 2 (quotientCode micros 1000000) ++ "s"

/-- The figures of a script that has been delivered. -/
structure Summary where
  nodes : Nat
  references : Nat
  bytes : Nat
  micros : Nat
  deriving DecidableEq, Repr

/-- A line across the terminal. -/
def rule (color : Bool) : String :=
  paint color .grey (String.ofList (List.replicate 60 '━')) ++ "\n"

/-- A line of the summary. -/
def figure (color : Bool) (label : String) (ink : Ink) (text : String) : String :=
  "  " ++ paint color .grey label ++ " " ++ paint color ink text ++ "\n"

/-- The report of a delivered script. -/
def emitted (color : Bool) (input output : String) (summary : Summary) : String :=
  "\n" ++ rule color ++
    paint color .bold "Emitted:" ++ " " ++ paint color .cyan input ++ " " ++
      paint color .grey "→" ++ " " ++ paint color .cyan output ++ "\n" ++
    rule color ++
    figure color "Nodes:" .cyan (toString summary.nodes) ++
    figure color "References:" .cyan (toString summary.references) ++
    figure color "Bytes:" .cyan (toString summary.bytes) ++
    figure color "Time:" .yellow (duration summary.micros) ++
    rule color

/-- The heading above a configuration, which says where it comes from. -/
def configHeading (color : Bool) (source : String) : String :=
  paint color .bold "# Configuration:" ++ " " ++ paint color .cyan source ++ "\n"

def error (color : Bool) (message : String) : String :=
  "\n" ++ paint color .boldRed "❌ Error:" ++ " " ++ message ++ "\n"

def warning (color : Bool) (message : String) : String :=
  "\n" ++ paint color .boldYellow "⚠️  Warning:" ++ " " ++ message ++ "\n"

def success (color : Bool) (message : String) : String :=
  paint color .green "✅" ++ " " ++ paint color .green message ++ "\n"

end Report
end SolidScript
