import SolidScript.Saved.Value
import SolidScript.Tree.Node

/-!
# The form of saved nodes

A saved node is an object with one field: its name is the kind of the node and its value holds the
parts.  This module says which parts each kind has and in which order, collects parts as they are
read, and puts a node together from them.
-/

namespace SolidScript
namespace Saved

open Json

/-- The kinds of saved nodes. -/
inductive Kind where
  | primitive | transform | combinator | extrusion | moduleCall | reference | comment
  deriving DecidableEq, Repr

/-- The parts that saved nodes have. -/
inductive Part where
  | shape | transformOp | combinatorOp | extrusionOp | name | params | children
  | referenceKind | path
  deriving DecidableEq, Repr

namespace Part

/-- The name of the field that holds the part. -/
def key : Part → String
  | shape => "shape"
  | transformOp => "op"
  | combinatorOp => "op"
  | extrusionOp => "op"
  | name => "name"
  | params => "params"
  | children => "children"
  | referenceKind => "kind"
  | path => "path"

end Part

namespace Kind

def name : Kind → String
  | primitive => "primitive"
  | transform => "transform"
  | combinator => "combinator"
  | extrusion => "extrusion"
  | moduleCall => "module_call"
  | reference => "reference"
  | comment => "comment"

/-- The kinds by their names. -/
def options : List (String × Kind) :=
  [primitive, transform, combinator, extrusion, moduleCall, reference, comment].map fun kind =>
    (kind.name, kind)

/-- The parts of a kind, in order.  A comment has none, being only a text. -/
def parts : Kind → List Part
  | primitive => [.shape, .params]
  | transform => [.transformOp, .params, .children]
  | combinator => [.combinatorOp, .children]
  | extrusion => [.extrusionOp, .params, .children]
  | moduleCall => [.name, .params, .children]
  | reference => [.referenceKind, .path]
  | comment => []

/-- What is said to be wanted where the parts of this kind should be. -/
def wanted : Kind → String
  | primitive => "struct variant Node::Primitive"
  | transform => "struct variant Node::Transform"
  | combinator => "struct variant Node::Combinator"
  | extrusion => "struct variant Node::Extrusion"
  | moduleCall => "struct variant Node::ModuleCall"
  | reference => "struct ModuleReference"
  | comment => "a string"

/-- What is said to be wanted where a list of parts is too short. -/
def wantedList (kind : Kind) : String :=
  kind.wanted ++ " with " ++ toString kind.parts.length ++ " elements"

/-- What is said to be wanted where there is the name of the kind and nothing else. -/
def wantedContent : Kind → String
  | reference => "newtype variant"
  | comment => "newtype variant"
  | _ => "struct variant"

end Kind

/-- The parts read so far. -/
structure Slots where
  shape : Option Shape := none
  transformOp : Option TransformOp := none
  combinatorOp : Option CombinatorOp := none
  extrusionOp : Option ExtrusionOp := none
  referenceKind : Option ReferenceKind := none
  /-- A name or a path. -/
  text : Option String := none
  params : Option Params := none
  /-- The nodes inside, which a module call may be without. -/
  children : Option (Option (List Node)) := none

/-- The same parts with the nodes inside. -/
def Slots.withChildren (slots : Slots) (children : Option (List Node)) : Slots :=
  { slots with children := some children }

/-- A part that has to be there. -/
def need {α : Type} (part : Part) : Option α → Except Mismatch α
  | some a => .ok a
  | none => .error (.missingField part.key)

/-- The node inside of nothing that the parts of a composite make. -/
def compositeOf (frame : Frame) (children : Option (Option (List Node))) : Except Mismatch Node :=
  match children with
  | some (some nodes) => .ok (.composite frame nodes)
  | _ => .error (.missingField Part.children.key)

/-- Puts a node together; the first part that is missing is named. -/
def Slots.build (slots : Slots) : Kind → Except Mismatch Node
  | .primitive => do
    let shape ← need .shape slots.shape
    let params ← need .params slots.params
    .ok (.primitive shape params)
  | .transform => do
    let op ← need .transformOp slots.transformOp
    let params ← need .params slots.params
    compositeOf (.transform op params) slots.children
  | .combinator => do
    let op ← need .combinatorOp slots.combinatorOp
    compositeOf (.combinator op) slots.children
  | .extrusion => do
    let op ← need .extrusionOp slots.extrusionOp
    let params ← need .params slots.params
    compositeOf (.extrusion op params) slots.children
  | .moduleCall => do
    let name ← need .name slots.text
    let params ← need .params slots.params
    match slots.children with
    | some (some nodes) => .ok (.composite (.moduleCall name params) nodes)
    | _ => .ok (.call name params)
  | .reference => do
    let kind ← need .referenceKind slots.referenceKind
    let path ← need .path slots.text
    .ok (.reference ⟨kind, path⟩)
  | .comment => .error (.missingField "")

/-- The shapes by their names. -/
def shapeOptions : List (String × Shape) := Shape.all.map fun x => (x.name, x)

/-- The transforms by their names. -/
def transformOptions : List (String × TransformOp) := TransformOp.all.map fun x => (x.name, x)

/-- The combinators by their names. -/
def combinatorOptions : List (String × CombinatorOp) := CombinatorOp.all.map fun x => (x.name, x)

/-- The extrusions by their names. -/
def extrusionOptions : List (String × ExtrusionOp) := ExtrusionOp.all.map fun x => (x.name, x)

/-- The kinds of references by their keywords. -/
def referenceOptions : List (String × ReferenceKind) :=
  ReferenceKind.all.map fun x => (x.keyword, x)

/-- The field with one part of a saved node. -/
def partField (part : Part) (json : Json) : String × Json := (part.key, json)

/-- A node with the given parts. -/
def nodeJson (kind : Kind) (fields : List (String × Json)) : Json :=
  .object [(kind.name, .object fields)]

/-- The JSON form of a composite, given the form of what is in it. -/
def compositeJson (children : Json) : Frame → Json
  | .transform op params =>
    nodeJson .transform [partField .transformOp (.text op.name),
      partField .params params.toJson, partField .children children]
  | .combinator op =>
    nodeJson .combinator [partField .combinatorOp (.text op.name), partField .children children]
  | .extrusion op params =>
    nodeJson .extrusion [partField .extrusionOp (.text op.name),
      partField .params params.toJson, partField .children children]
  | .moduleCall name params =>
    nodeJson .moduleCall [partField .name (.text name), partField .params params.toJson,
      partField .children children]

end Saved

mutual
/-- The JSON form of a node. -/
def Node.toJson : Node → Json
  | .primitive shape params =>
    Saved.nodeJson .primitive [Saved.partField .shape (.text shape.name),
      Saved.partField .params params.toJson]
  | .call name params =>
    Saved.nodeJson .moduleCall [Saved.partField .name (.text name),
      Saved.partField .params params.toJson, Saved.partField .children .null]
  | .composite frame children => Saved.compositeJson (.array (Node.listToJson children)) frame
  | .reference ref =>
    Saved.nodeJson .reference [Saved.partField .referenceKind (.text ref.kind.keyword),
      Saved.partField .path (.text ref.path)]
  | .comment text => .object [(Saved.Kind.comment.name, .text text)]

/-- The JSON forms of some nodes. -/
def Node.listToJson : List Node → List Json
  | [] => []
  | node :: rest => node.toJson :: Node.listToJson rest
end

/-- The text of a saved node. -/
def Node.save (node : Node) : String := node.toJson.write

/-- The text of saved roots. -/
def Node.saveAll (roots : List Node) : String := (Json.array (Node.listToJson roots)).write

end SolidScript
