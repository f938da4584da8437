import SolidScript.Config.Basic
import SolidScript.Script.Expression
import SolidScript.Text.Blank
import SolidScript.Text.Lines
import SolidScript.Tree.Node

/-!
# Layout of statements

A statement is laid out as lines, each with its depth of nesting; the spaces in front of a line come
from its depth alone (`Line.render`).  References have no line where they stand, since a script
names them at its top.
-/

namespace SolidScript
namespace Script

/-- A line of a script. -/
structure Line where
  depth : Nat
  text : String
  deriving DecidableEq, Repr

/-- The text of a line with the spaces before it and the line feed after it. -/
def Line.render (indent : Nat) (line : Line) : String :=
  String.ofList (List.replicate (line.depth * indent) ' ') ++ line.text ++ "\n"

/-- The text of some lines. -/
def renderLines (indent : Nat) (lines : List Line) : String :=
  String.join (lines.map (Line.render indent))

/-- The line of a comment for a line of its text, which loses the blanks at its end. -/
def commentLine (depth : Nat) (line : List Char) : Line :=
  let kept := Text.trimEnd line
  ⟨depth, if kept.isEmpty then "//" else "// " ++ String.ofList kept⟩

/-- The lines of a comment: one for each line of its text, and one when it has none. -/
def commentLines (depth : Nat) (text : String) : List Line :=
  match Text.lines text.toList with
  | [] => [commentLine depth []]
  | lines => lines.map (commentLine depth)

/-- Does the node have lines where it stands? -/
def hasLines : Node → Bool
  | .reference _ => false
  | _ => true

/-- Is the node a call, so that it may follow a transform without braces? -/
def isCall : Node → Bool
  | .reference _ => false
  | .comment _ => false
  | _ => true

/-- Does a composite do without braces?  Only a transform around exactly one call does, and only in
the style that asks for it. -/
def isBraceless (style : TransformStyle) (frame : Frame) (children : List Node) : Bool :=
  style == .statement && frame.isTransform &&
    match children with
    | [child] => isCall child
    | _ => false

/-- The lines of a composite, given its call and the lines of what is in it. -/
def compositeLines (style : TransformStyle) (depth : Nat) (frame : Frame) (children : List Node)
    (call : String) (inner : List Line) : List Line :=
  if isBraceless style frame children then ⟨depth, call⟩ :: inner
  else if children.any hasLines then
    ⟨depth, call ++ " \x7b"⟩ :: (inner ++ [⟨depth, "\x7d"⟩])
  else [⟨depth, call ++ " \x7b\x7d"⟩]

mutual
/-- The lines of a node at a depth of nesting. -/
def nodeLines (style : TransformStyle) (depth : Nat) : Node → Except Fault (List Line)
  | .primitive shape params => do
    let call ← callText shape.name params
    .ok [⟨depth, call ++ ";"⟩]
  | .call name params => do
    let call ← callText name params
    .ok [⟨depth, call ++ ";"⟩]
  | .composite frame children => do
    let call ← callText frame.name frame.params
    let inner ← nodesLines style (depth + 1) children
    .ok (compositeLines style depth frame children call inner)
  | .reference _ => .ok []
  | .comment text => .ok (commentLines depth text)

/-- The lines of some nodes, one after the other, at a depth of nesting. -/
def nodesLines (style : TransformStyle) (depth : Nat) : List Node → Except Fault (List Line)
  | [] => .ok []
  | node :: rest => do
    let first ← nodeLines style depth node
    let others ← nodesLines style depth rest
    .ok (first ++ others)
end

end Script
end SolidScript
