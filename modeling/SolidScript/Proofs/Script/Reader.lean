import SolidScript.Proofs.Script.Grouping
import SolidScript.Tree.Node

/-!
# Reading a script

The reader of the language in which scripts are written.  A script is a list of references, then a
list of assignments of the three resolution variables, then a list of items: comments, and calls
with or without a body.  The body of a call is a block of items in braces, or without braces a
single call.
-/

namespace SolidScript
namespace Reading

/-- The value of an argument; numbers are exact. -/
inductive Value where
  | undef
  | bool (b : Bool)
  | number (value : ℚ)
  | text (content : String)
  | vector (items : List Value)

/-- A comment or a call. -/
inductive Item where
  | comment (content : String)
  | call (name : String) (arguments : List (String × Value)) (body : Option (List Item))

/-- What a script says. -/
structure Contents where
  references : List Reference
  settings : List (String × ℚ)
  items : List Item

/-- The value that a single token stands for. -/
def atomValue? : Atom → Option Value
  | .word name =>
    if name = "true" then some (.bool true)
    else if name = "false" then some (.bool false)
    else if name = "undef" then some .undef
    else none
  | .number value => some (.number value)
  | .text content => some (.text content)
  | _ => none

mutual
/-- Reads a value. -/
def readValue? : Tree → Option Value
  | .leaf a => atomValue? a
  | .group .square items => (readValues? items).map .vector
  | .group _ _ => none

/-- Reads values with commas between them. -/
def readValues? : List Tree → Option (List Value)
  | [] => some []
  | tree :: rest => do
    let value ← readValue? tree
    let others ← readMoreValues? rest
    some (value :: others)

/-- Reads values with a comma before each of them. -/
def readMoreValues? : List Tree → Option (List Value)
  | [] => some []
  | .leaf .comma :: tree :: rest => do
    let value ← readValue? tree
    let others ← readMoreValues? rest
    some (value :: others)
  | _ => none
end

/-- Reads arguments with a comma before each of them. -/
def readMoreArguments? : List Tree → Option (List (String × Value))
  | [] => some []
  | .leaf .comma :: .leaf (.word name) :: .leaf .equals :: tree :: rest => do
    let value ← readValue? tree
    let others ← readMoreArguments? rest
    some ((name, value) :: others)
  | _ => none

/-- Reads arguments with commas between them. -/
def readArguments? : List Tree → Option (List (String × Value))
  | [] => some []
  | trees => readMoreArguments? (.leaf .comma :: trees)

/-- Takes the call at the front of some items as the body of the call before it. -/
def callWithBody? (name : String) (arguments : List (String × Value)) :
    List Item → Option (List Item)
  | .call inner innerArguments body :: rest =>
    some (.call name arguments (some [.call inner innerArguments body]) :: rest)
  | _ => none

mutual
/-- Reads items. -/
def readItems? : List Tree → Option (List Item)
  | [] => some []
  | .leaf (.comment content) :: rest => (readItems? rest).map (.comment content :: ·)
  | .leaf (.word name) :: .group .round trees :: rest => do
    let arguments ← readArguments? trees
    readBody? name arguments rest
  | _ => none

/-- Reads what follows a call, and the items after it. -/
def readBody? (name : String) (arguments : List (String × Value)) :
    List Tree → Option (List Item)
  | .leaf .semicolon :: rest => (readItems? rest).map (.call name arguments none :: ·)
  | .group .curly inner :: rest => do
    let body ← readItems? inner
    let others ← readItems? rest
    some (.call name arguments (some body) :: others)
  | rest => readItems? rest >>= callWithBody? name arguments
end

/-- Reads the references at the front. -/
def takeReferences : List Token → List Reference × List Token
  | .atom (.word keyword) :: .atom (.path path) :: rest =>
    match ReferenceKind.ofKeyword? keyword with
    | some kind =>
      let (references, after) := takeReferences rest
      (⟨kind, path⟩ :: references, after)
    | none => ([], .atom (.word keyword) :: .atom (.path path) :: rest)
  | ts => ([], ts)

/-- The variables that a script may assign. -/
def settingNames : List String := ["$fa", "$fs", "$fn"]

/-- Reads the assignments at the front. -/
def takeSettings : List Token → List (String × ℚ) × List Token
  | .atom (.word name) :: .atom .equals :: .atom (.number value) :: .atom .semicolon :: rest =>
    if name ∈ settingNames then
      let (settings, after) := takeSettings rest
      ((name, value) :: settings, after)
    else
      ([], .atom (.word name) :: .atom .equals :: .atom (.number value) :: .atom .semicolon :: rest)
  | ts => ([], ts)

/-- Reads a whole script. -/
def read? (script : String) : Option Contents := do
  let ts ← tokens script.toList
  let (references, afterReferences) := takeReferences ts
  let (settings, afterSettings) := takeSettings afterReferences
  let trees ← group? afterSettings
  let items ← readItems? trees
  some ⟨references, settings, items⟩

end Reading
end SolidScript
