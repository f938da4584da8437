import SolidScript.Number.Decimal

/-!
# Switches

How the arguments of a command are read.  A command has switches, each with a long name and perhaps
a short one, and a number of words that stand in fixed places.  A switch that takes a value has it
in the same argument (`--name=value`, `-nvalue`, `-n=value`) or in the next one, which must not look
like a switch itself.  Nothing can be given twice, and after `--` all arguments are words.
-/

namespace SolidScript
namespace CommandLine

/-- What a switch takes. -/
inductive SwitchKind where
  /-- Nothing, and it ends the reading. -/
  | help
  | flag
  | path
  | number
  deriving DecidableEq, Repr

/-- A switch. -/
structure Switch where
  long : String
  short : Option Char := none
  kind : SwitchKind
  deriving DecidableEq, Repr

/-- Does a switch of this kind take a value? -/
def SwitchKind.takesValue : SwitchKind → Bool
  | help => false
  | flag => false
  | path => true
  | number => true

/-- Can a switch of this kind have this value? -/
def SwitchKind.accepts : SwitchKind → String → Bool
  | help, _ => false
  | flag, _ => false
  | path, text => text != ""
  | number, text => (Number.parse? text).isSome

/-- The switch that every command has. -/
def helpSwitch : Switch := ⟨"help", some 'h', .help⟩

/-- What a command takes. -/
structure Grammar where
  switches : List Switch
  /-- The names of the words. -/
  words : List String := []

/-- Why arguments lead to no run. -/
inductive Refusal where
  | helpWanted
  | misused
  deriving DecidableEq, Repr

/-- What has been read so far. -/
structure Reading where
  /-- The names of the switches and words that were given, with their values. -/
  given : List (String × String) := []
  /-- The switch that waits for a value. -/
  awaiting : Option Switch := none
  /-- Are all further arguments words? -/
  closed : Bool := false

namespace Reading

/-- The value of a switch or word. -/
def get? (r : Reading) (name : String) : Option String :=
  (r.given.find? (·.1 == name)).map Prod.snd

/-- Was the switch given? -/
def has (r : Reading) (name : String) : Bool := (r.get? name).isSome

/-- Takes a value for a name that has none yet. -/
def give (r : Reading) (name value : String) : Except Refusal Reading :=
  if r.has name then .error .misused
  else .ok { r with given := r.given ++ [(name, value)], awaiting := none }

/-- Takes a value for a switch. -/
def giveValue (r : Reading) (switch : Switch) (value : String) : Except Refusal Reading :=
  if switch.kind.accepts value then r.give switch.long value else .error .misused

/-- Takes a switch that stands without a value. -/
def giveBare (r : Reading) (switch : Switch) : Except Refusal Reading :=
  if switch.kind = .help then .error .helpWanted else r.give switch.long ""

/-- Takes a word. -/
def giveWord (r : Reading) (grammar : Grammar) (text : String) : Except Refusal Reading :=
  match grammar.words.find? (!r.has ·) with
  | some name => if text = "" then .error .misused else r.give name text
  | none => .error .misused

/-- Takes an argument that begins with two hyphens, which are left out here. -/
def readLong (r : Reading) (grammar : Grammar) (cs : List Char) : Except Refusal Reading :=
  let name := String.ofList (cs.takeWhile (· != '='))
  match grammar.switches.find? (·.long == name), cs.dropWhile (· != '=') with
  | none, _ => .error .misused
  | some switch, [] =>
    if switch.kind.takesValue then .ok { r with awaiting := some switch } else r.giveBare switch
  | some switch, _ :: value => r.giveValue switch (String.ofList value)

/-- A value in the same argument as the short name of its switch. -/
def attached : List Char → List Char
  | '=' :: value => value
  | value => value

/-- Takes an argument that begins with one hyphen, which is left out here: short names one after the
other, the last of which may have a value. -/
def readShort (r : Reading) (grammar : Grammar) : List Char → Except Refusal Reading
  | [] => .ok r
  | c :: rest =>
    match grammar.switches.find? (·.short == some c) with
    | none => .error .misused
    | some switch =>
      if switch.kind.takesValue then
        if rest.isEmpty then .ok { r with awaiting := some switch }
        else r.giveValue switch (String.ofList (attached rest))
      else
        match r.giveBare switch with
        | .error refusal => .error refusal
        | .ok next => readShort next grammar rest

/-- Takes an argument. -/
def read (grammar : Grammar) (r : Reading) (arg : String) : Except Refusal Reading :=
  if r.closed then r.giveWord grammar arg
  else
    match r.awaiting, arg.toList with
    | some _, '-' :: _ :: _ => .error .misused
    | some switch, _ => r.giveValue switch arg
    | none, ['-', '-'] => .ok { r with closed := true }
    | none, '-' :: '-' :: cs => r.readLong grammar cs
    | none, '-' :: c :: cs => r.readShort grammar (c :: cs)
    | none, _ => r.giveWord grammar arg

/-- Reads all arguments of a command. -/
def readAll (grammar : Grammar) (args : List String) : Except Refusal Reading := do
  let r ← args.foldlM (read grammar) {}
  if r.awaiting.isSome then .error .misused else .ok r

end Reading
end CommandLine
end SolidScript
