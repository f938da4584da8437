import SolidScript.Tree.Node

/-!
# Collected references

The references anywhere in some trees, in the order in which a reader meets them from the top.  Each
path is kept once, at its first place and with the kind it has there.
-/

namespace SolidScript
namespace Reference

/-- Adds a reference at the end unless its path is there already. -/
def add (found : List Reference) (ref : Reference) : List Reference :=
  if found.any (·.path == ref.path) then found else found ++ [ref]

mutual
/-- Adds the references of a tree to those already found. -/
def addFrom (found : List Reference) : Node → List Reference
  | .reference ref => add found ref
  | .composite _ nodes => addFromAll found nodes
  | _ => found

/-- Adds the references of some trees, from the first on, to those already found. -/
def addFromAll (found : List Reference) : List Node → List Reference
  | [] => found
  | node :: rest => addFromAll (addFrom found node) rest
end

/-- The references of some trees, each path once. -/
def collect (roots : List Node) : List Reference := addFromAll [] roots

end Reference
end SolidScript
