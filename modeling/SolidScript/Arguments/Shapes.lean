import SolidScript.Arguments.Basic

/-!
# Arguments of shapes
-/

namespace SolidScript

/-- The size of something round. -/
inductive Round where
  | radius (r : Number)
  | diameter (d : Number)
  deriving DecidableEq, Repr

/-- The field of a round size. -/
def Round.field : Round → String × Option Value
  | radius r => ("r", some (.number r))
  | diameter d => ("d", some (.number d))

/-- A box: one side for all axes or a size for each. -/
structure Cube where
  size : Value
  center : Option Bool := none

namespace Cube

inductive Setter where
  | centered
  deriving DecidableEq, Repr

def sized (size : Vector3) : Cube := { size := size.toValue }

def side (s : Number) : Cube := { size := .number s }

instance : TypedArguments Cube Setter where
  set args
    | .centered => { args with center := some true }
  fields args := [("size", some args.size), ("center", args.center.map .bool)]

end Cube

/-- A sphere or a circle. -/
structure Ball where
  size : Round
  segments : Option Nat := none

namespace Ball

inductive Setter where
  | segments (n : Nat)
  deriving DecidableEq, Repr

instance : TypedArguments Ball Setter where
  set args
    | .segments n => { args with segments := some n }
  fields args := [args.size.field, ("$fn", args.segments.map Value.ofNat)]

end Ball

/-- The size of a cylinder across its axis. -/
inductive Girth where
  | uniform (size : Round)
  | cone (bottom top : Number)
  deriving DecidableEq, Repr

/-- A cylinder or a cut cone. -/
structure Cylinder where
  height : Number
  girth : Girth
  center : Option Bool := none
  segments : Option Nat := none

namespace Cylinder

inductive Setter where
  | centered
  | segments (n : Nat)
  deriving DecidableEq, Repr

/-- The fields of a girth. -/
def girthFields : Girth → List (String × Option Value)
  | .uniform size => [size.field]
  | .cone bottom top => [("r1", some (.number bottom)), ("r2", some (.number top))]

instance : TypedArguments Cylinder Setter where
  set args
    | .centered => { args with center := some true }
    | .segments n => { args with segments := some n }
  fields args :=
    ("h", some (.number args.height)) :: (girthFields args.girth ++
      [("center", args.center.map .bool), ("$fn", args.segments.map Value.ofNat)])

end Cylinder

/-- A rectangle. -/
structure Square where
  size : Value
  center : Option Bool := none

namespace Square

inductive Setter where
  | centered
  deriving DecidableEq, Repr

def sized (width height : Number) : Square := { size := .numbers [width, height] }

def side (s : Number) : Square := { size := .number s }

instance : TypedArguments Square Setter where
  set args
    | .centered => { args with center := some true }
  fields args := [("size", some args.size), ("center", args.center.map .bool)]

end Square

/-- A closed outline; paths select and order its points. -/
structure Polygon where
  points : List (Number × Number)
  paths : Option (List (List Nat)) := none
  convexity : Option Nat := none

namespace Polygon

inductive Setter where
  | paths (paths : List (List Nat))
  | convexity (n : Nat)
  deriving DecidableEq, Repr

def pointsValue (points : List (Number × Number)) : Value :=
  .vector (points.map fun (x, y) => .numbers [x, y])

def pathsValue (paths : List (List Nat)) : Value :=
  .vector (paths.map fun path => .vector (path.map Value.ofNat))

instance : TypedArguments Polygon Setter where
  set args
    | .paths paths => { args with paths := some paths }
    | .convexity n => { args with convexity := some n }
  fields args := [("points", some (pointsValue args.points)), ("paths", args.paths.map pathsValue),
    ("convexity", args.convexity.map Value.ofNat)]

end Polygon

/-- Geometry from another file. -/
structure ImportFile where
  file : String
  center : Option Bool := none
  convexity : Option Nat := none

namespace ImportFile

inductive Setter where
  | centered
  | convexity (n : Nat)
  deriving DecidableEq, Repr

instance : TypedArguments ImportFile Setter where
  set args
    | .centered => { args with center := some true }
    | .convexity n => { args with convexity := some n }
  fields args := [("file", some (.text args.file)), ("center", args.center.map .bool),
    ("convexity", args.convexity.map Value.ofNat)]

end ImportFile
end SolidScript
