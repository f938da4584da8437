import SolidScript.Arguments.Basic

/-!
# Arguments of transforms and extrusions
-/

namespace SolidScript

/-- A rotation in degrees: around the three axes, or around an axis of its own. -/
inductive Rotate where
  | euler (angles : Vector3)
  | about (angle : Number) (axis : Vector3)
  deriving DecidableEq, Repr

namespace Rotate

inductive Setter where
  | x (angle : Number)
  | y (angle : Number)
  | z (angle : Number)
  deriving DecidableEq, Repr

/-- The angles around the three axes; a rotation around another axis has none. -/
def angles : Rotate → Vector3
  | euler angles => angles
  | about _ _ => Vector3.zero

instance : TypedArguments Rotate Setter where
  set args
    | .x angle => .euler { args.angles with x := angle }
    | .y angle => .euler { args.angles with y := angle }
    | .z angle => .euler { args.angles with z := angle }
  fields
    | .euler angles => [("a", some angles.toValue)]
    | .about angle axis => [("a", some (.number angle)), ("v", some axis.toValue)]

end Rotate

/-- A colour by its name or by its components. -/
structure Color where
  color : Value
  alpha : Option Number := none

namespace Color

inductive Setter where
  | alpha (a : Number)
  deriving DecidableEq, Repr

def named (name : String) : Color := { color := .text name }

def components (parts : List Number) : Color := { color := .numbers parts }

instance : TypedArguments Color Setter where
  set args
    | .alpha a => { args with alpha := some a }
  fields args := [("c", some args.color), ("alpha", args.alpha.map .number)]

end Color

/-- A change to absolute dimensions. -/
structure Resize where
  size : Vector3
  auto : Option Value := none

namespace Resize

inductive Setter where
  | auto (b : Bool)
  | autoAxes (x y z : Bool)
  deriving DecidableEq, Repr

instance : TypedArguments Resize Setter where
  set args
    | .auto b => { args with auto := some (.bool b) }
    | .autoAxes x y z => { args with auto := some (.vector [.bool x, .bool y, .bool z]) }
  fields args := [("newsize", some args.size.toValue), ("auto", args.auto)]

end Resize

/-- How far an outline is moved outwards: with round corners or with sharp ones. -/
inductive Offsetting where
  | radius (r : Number)
  | delta (d : Number)
  deriving DecidableEq, Repr

/-- An outline moved outwards or inwards. -/
structure Offset where
  amount : Offsetting
  chamfer : Option Bool := none

namespace Offset

inductive Setter where
  | chamfer (b : Bool)
  deriving DecidableEq, Repr

/-- The field of an amount. -/
def amountField : Offsetting → String × Option Value
  | .radius r => ("r", some (.number r))
  | .delta d => ("delta", some (.number d))

instance : TypedArguments Offset Setter where
  set args
    | .chamfer b => { args with chamfer := some b }
  fields args := [amountField args.amount, ("chamfer", args.chamfer.map .bool)]

end Offset

/-- A solid raised from an outline. -/
structure LinearExtrude where
  height : Number
  center : Option Bool := none
  twist : Option Number := none
  slices : Option Nat := none
  scale : Option Value := none
  convexity : Option Nat := none

namespace LinearExtrude

inductive Setter where
  | centered
  | twist (angle : Number)
  | slices (n : Nat)
  | scale (value : Value)
  | convexity (n : Nat)

instance : TypedArguments LinearExtrude Setter where
  set args
    | .centered => { args with center := some true }
    | .twist angle => { args with twist := some angle }
    | .slices n => { args with slices := some n }
    | .scale value => { args with scale := some value }
    | .convexity n => { args with convexity := some n }
  fields args := [("height", some (.number args.height)), ("center", args.center.map .bool),
    ("twist", args.twist.map .number), ("slices", args.slices.map Value.ofNat),
    ("scale", args.scale), ("convexity", args.convexity.map Value.ofNat)]

end LinearExtrude

/-- A solid swept around an axis by an outline. -/
structure RotateExtrude where
  angle : Option Number := none
  convexity : Option Nat := none
  segments : Option Nat := none

namespace RotateExtrude

inductive Setter where
  | angle (a : Number)
  | convexity (n : Nat)
  | segments (n : Nat)
  deriving DecidableEq, Repr

instance : TypedArguments RotateExtrude Setter where
  set args
    | .angle a => { args with angle := some a }
    | .convexity n => { args with convexity := some n }
    | .segments n => { args with segments := some n }
  fields args := [("angle", args.angle.map .number), ("convexity", args.convexity.map Value.ofNat),
    ("$fn", args.segments.map Value.ofNat)]

end RotateExtrude
end SolidScript
