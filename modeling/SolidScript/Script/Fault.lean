import SolidScript.Number.Basic
import SolidScript.Text.Quoted

/-!
# Faults

What can go wrong between the recording of a tree and the delivery of its script.
-/

namespace SolidScript

/-- The broad kind of a fault. -/
inductive FaultKind where
  /-- The recording itself is out of order. -/
  | structural
  /-- Something recorded has no form in a script. -/
  | value
  /-- The receiver of the script refused it. -/
  | sink
  deriving DecidableEq, Repr

/-- A fault. -/
inductive Fault where
  | unbalancedScope (count : Nat)
  | nonFinite (node param : String) (value : Number)
  | invalidIdentifier (node name : String)
  | invalidPath (keyword path : String)
  | sink
  deriving DecidableEq, Repr

namespace Fault

def kind : Fault → FaultKind
  | unbalancedScope _ => .structural
  | nonFinite _ _ _ => .value
  | invalidIdentifier _ _ => .value
  | invalidPath _ _ => .value
  | sink => .sink

def message : Fault → String
  | unbalancedScope count =>
    "recording session ended with " ++ toString count ++ " scope(s) still open"
  | nonFinite node param value =>
    "non-finite number " ++ value.nonFiniteName ++ " in parameter `" ++ param ++ "` of `" ++
      node ++ "`"
  | invalidIdentifier node name =>
    "`" ++ name ++ "` is not a valid identifier (in `" ++ node ++ "`)"
  | invalidPath keyword path =>
    "`" ++ keyword ++ "` path " ++ Text.display path ++
      " cannot be written between angle brackets"
  | sink => "failed to write script to sink"

end Fault
end SolidScript
