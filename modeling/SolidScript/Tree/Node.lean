import SolidScript.Tree.Params

/-!
# Solid trees

A tree of solid geometry.  A node is a leaf (a primitive shape, a module call without a body, a
reference to another file, a comment) or a composite, which is a `Frame` around the nodes in it.
-/

namespace SolidScript

/-- Primitive shapes. -/
inductive Shape where
  | cube | sphere | cylinder | polygon | circle | square | importFile
  deriving DecidableEq, Repr

/-- Operations that move or change what is in them. -/
inductive TransformOp where
  | translate | rotate | mirror | scale | color | resize | offset
  deriving DecidableEq, Repr

/-- Operations that combine what is in them. -/
inductive CombinatorOp where
  | union | difference | intersection | hull | minkowski
  deriving DecidableEq, Repr

/-- Operations that make a solid from an outline. -/
inductive ExtrusionOp where
  | linear | rotational
  deriving DecidableEq, Repr

/-- How another file is brought in: its definitions only, or its statements too. -/
inductive ReferenceKind where
  | useFile | includeFile
  deriving DecidableEq, Repr

namespace Shape

def all : List Shape := [cube, sphere, cylinder, polygon, circle, square, importFile]

/-- The name in a script and in saved trees. -/
def name : Shape → String
  | cube => "cube"
  | sphere => "sphere"
  | cylinder => "cylinder"
  | polygon => "polygon"
  | circle => "circle"
  | square => "square"
  | importFile => "import"

def ofName? (name : String) : Option Shape := all.find? (·.name == name)

end Shape

namespace TransformOp

def all : List TransformOp := [translate, rotate, mirror, scale, color, resize, offset]

/-- The name in a script and in saved trees. -/
def name : TransformOp → String
  | translate => "translate"
  | rotate => "rotate"
  | mirror => "mirror"
  | scale => "scale"
  | color => "color"
  | resize => "resize"
  | offset => "offset"

def ofName? (name : String) : Option TransformOp := all.find? (·.name == name)

end TransformOp

namespace CombinatorOp

def all : List CombinatorOp := [union, difference, intersection, hull, minkowski]

/-- The name in a script and in saved trees. -/
def name : CombinatorOp → String
  | union => "union"
  | difference => "difference"
  | intersection => "intersection"
  | hull => "hull"
  | minkowski => "minkowski"

def ofName? (name : String) : Option CombinatorOp := all.find? (·.name == name)

end CombinatorOp

namespace ExtrusionOp

def all : List ExtrusionOp := [linear, rotational]

/-- The name in saved trees. -/
def name : ExtrusionOp → String
  | linear => "linear"
  | rotational => "rotational"

/-- The name in a script. -/
def scriptName : ExtrusionOp → String
  | linear => "linear_extrude"
  | rotational => "rotate_extrude"

def ofName? (name : String) : Option ExtrusionOp := all.find? (·.name == name)

end ExtrusionOp

namespace ReferenceKind

def all : List ReferenceKind := [useFile, includeFile]

/-- The keyword in a script, which is also the name in saved trees. -/
def keyword : ReferenceKind → String
  | useFile => "use"
  | includeFile => "include"

def ofKeyword? (word : String) : Option ReferenceKind := all.find? (·.keyword == word)

end ReferenceKind

/-- A reference to another file. -/
structure Reference where
  kind : ReferenceKind
  path : String
  deriving DecidableEq, Repr

/-- What a composite node is, apart from the nodes in it. -/
inductive Frame where
  | transform (op : TransformOp) (params : Params)
  | combinator (op : CombinatorOp)
  | extrusion (op : ExtrusionOp) (params : Params)
  | moduleCall (name : String) (params : Params)

namespace Frame

/-- The name that a script calls. -/
def name : Frame → String
  | transform op _ => op.name
  | combinator op => op.name
  | extrusion op _ => op.scriptName
  | moduleCall name _ => name

/-- The parameters of the call; combinators take none. -/
def params : Frame → Params
  | transform _ params => params
  | combinator _ => Params.empty
  | extrusion _ params => params
  | moduleCall _ params => params

def isTransform : Frame → Bool
  | transform _ _ => true
  | _ => false

def equal : Frame → Frame → Bool
  | transform a p, transform b q => a == b && p.equal q
  | combinator a, combinator b => a == b
  | extrusion a p, extrusion b q => a == b && p.equal q
  | moduleCall a p, moduleCall b q => a == b && p.equal q
  | _, _ => false

end Frame

/-- A node of a tree. -/
inductive Node where
  | primitive (shape : Shape) (params : Params)
  /-- A module call without a body, which differs from one with an empty body. -/
  | call (name : String) (params : Params)
  | composite (frame : Frame) (children : List Node)
  | reference (ref : Reference)
  | comment (text : String)

namespace Node

instance : Inhabited Node := ⟨comment ""⟩

/-- The name by which a message or a summary speaks of a node. -/
def name : Node → String
  | primitive shape _ => shape.name
  | call name _ => name
  | composite frame _ => frame.name
  | reference ref => ref.kind.keyword
  | comment _ => "comment"

/-- The nodes directly inside a node. -/
def children : Node → List Node
  | composite _ nodes => nodes
  | _ => []

mutual
/-- Equality of trees; numbers are compared as numbers. -/
def equal : Node → Node → Bool
  | primitive a p, primitive b q => a == b && p.equal q
  | call a p, call b q => a == b && p.equal q
  | composite f xs, composite g ys => f.equal g && equalAll xs ys
  | reference a, reference b => a == b
  | comment s, comment t => s == t
  | _, _ => false

/-- Equality of lists of trees. -/
def equalAll : List Node → List Node → Bool
  | [], [] => true
  | x :: xs, y :: ys => equal x y && equalAll xs ys
  | _, _ => false
end

mutual
/-- How many nodes a tree has, itself included. -/
def count : Node → Nat
  | composite _ nodes => 1 + countAll nodes
  | _ => 1

/-- How many nodes some trees have together. -/
def countAll : List Node → Nat
  | [] => 0
  | node :: rest => count node + countAll rest
end

/-- A node inside `n` composites of the same frame. -/
def wrap (frame : Frame) : Nat → Node → Node
  | 0, node => node
  | n + 1, node => composite frame [wrap frame n node]

end Node
end SolidScript
