import SolidScript.Script.Layout
import SolidScript.Tree.References

/-!
# Documents

A script has up to three sections: the references to other files, the assignments of the resolution,
and the statements of the roots.  An empty line stands between two sections and nowhere else.  The
first fault is looked for in this order too.
-/

namespace SolidScript
namespace Script

/-- Can the path stand between angle brackets? -/
def isWritablePath (path : String) : Bool :=
  path != "" && path.toList.all fun c => c != '>' && c != '\n' && c != '\r'

/-- The lines of references. -/
def referenceLines : List Reference → Except Fault (List Line)
  | [] => .ok []
  | ref :: rest =>
    if isWritablePath ref.path then do
      let lines ← referenceLines rest
      .ok (⟨0, ref.kind.keyword ++ " <" ++ ref.path ++ ">"⟩ :: lines)
    else .error (.invalidPath ref.kind.keyword ref.path)

/-- The lines of assignments. -/
def assignmentLines : List (String × Number) → Except Fault (List Line)
  | [] => .ok []
  | (name, value) :: rest =>
    match numeral? value with
    | some text => do
      let lines ← assignmentLines rest
      .ok (⟨0, name ++ " = " ++ text ++ ";"⟩ :: lines)
    | none => .error (.nonFinite "resolution" name value)

/-- Sections one after the other, an empty line between two that have lines. -/
def joinSections (indent : Nat) (sections : List (List Line)) : String :=
  "\n".intercalate ((sections.filter (!·.isEmpty)).map (renderLines indent))

/-- The script of some roots that names the given references at its top. -/
def emit (config : Config) (references : List Reference) (roots : List Node) :
    Except Fault String := do
  let first ← referenceLines references
  let second ← assignmentLines config.resolution.assignments
  let third ← nodesLines config.style 0 roots
  .ok (joinSections config.indent [first, second, third])

end Script

/-- A finished tree and the settings of its script. -/
structure Document where
  config : Config
  roots : List Node

namespace Document

/-- The references anywhere in the document, each path once. -/
def references (document : Document) : List Reference := Reference.collect document.roots

/-- How many nodes the document has. -/
def nodeCount (document : Document) : Nat := Node.countAll document.roots

/-- The script of the document. -/
def render (document : Document) : Except Fault String :=
  Script.emit document.config document.references document.roots

end Document
end SolidScript
