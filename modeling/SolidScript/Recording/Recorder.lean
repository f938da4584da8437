import SolidScript.Script.Fault
import SolidScript.Tree.Node

/-!
# Recorders

A recorder collects nodes.  Scopes that are open on it form a stack; a node goes to the innermost
open scope, or to the roots when none is open.  A scope knows how deep the stack was when it was
opened.  When it is closed with more scopes above it than its own, those are dropped and counted
(`Recorder.unbalanced`), and a recorder with open or dropped scopes cannot be finished.
-/

namespace SolidScript

/-- A recorder. -/
structure Recorder where
  roots : List Node := []
  /-- What has been recorded in the open scopes, the innermost scope first. -/
  scopes : List (List Node) := []
  /-- How many scopes were dropped because a scope below them was closed. -/
  unbalanced : Nat := 0

namespace Recorder

instance : Inhabited Recorder := ⟨{}⟩

/-- How many scopes are open. -/
def depth (r : Recorder) : Nat := r.scopes.length

/-- Adds a node to the innermost open scope. -/
def record (r : Recorder) (node : Node) : Recorder :=
  match r.scopes with
  | [] => { r with roots := r.roots ++ [node] }
  | top :: rest => { r with scopes := (top ++ [node]) :: rest }

/-- Adds nodes one after the other. -/
def recordAll (r : Recorder) (nodes : List Node) : Recorder := nodes.foldl record r

/-- Opens a scope. -/
def openScope (r : Recorder) : Recorder := { r with scopes := [] :: r.scopes }

/-- Leaves only the outermost `count` scopes open; with fewer open it changes nothing. -/
def truncate (r : Recorder) (count : Nat) : Recorder :=
  { r with scopes := r.scopes.drop (r.depth - count) }

/-- Closes the scope that was opened at depth `base` and gives what was recorded in it.  Whatever is
on top once the scopes above it are dropped is taken for that scope. -/
def closeScope (r : Recorder) (base : Nat) : List Node × Recorder :=
  let counted := { r with unbalanced := r.unbalanced + (r.depth - (base + 1)) }
  let cut := counted.truncate (base + 1)
  match cut.scopes with
  | [] => ([], cut)
  | top :: rest => (top, { cut with scopes := rest })

/-- The roots, if every scope has been closed in its turn. -/
def finish (r : Recorder) : Except Fault (List Node) :=
  if r.depth + r.unbalanced = 0 then .ok r.roots
  else .error (.unbalancedScope (r.depth + r.unbalanced))

end Recorder
end SolidScript
