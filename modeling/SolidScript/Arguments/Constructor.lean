import SolidScript.Arguments.Shapes
import SolidScript.Arguments.Transforms

/-!
# Constructors of arguments

The types of arguments side by side, each with its constructors.  A sphere and a circle are two
types that know the same fields.
-/

namespace SolidScript

/-- The types of arguments. -/
inductive ArgumentType where
  | cube | sphere | cylinder | circle | square | polygon | importFile
  | rotate | color | resize | offset | linearExtrude | rotateExtrude
  deriving DecidableEq, Repr

namespace ArgumentType

/-- The arguments of a type without extra parameters. -/
def Typed : ArgumentType → Type
  | cube => Cube
  | sphere => Ball
  | cylinder => Cylinder
  | circle => Ball
  | square => Square
  | polygon => Polygon
  | importFile => ImportFile
  | rotate => Rotate
  | color => Color
  | resize => Resize
  | offset => Offset
  | linearExtrude => LinearExtrude
  | rotateExtrude => RotateExtrude

/-- The calls that set a field of the arguments of a type. -/
def Setter : ArgumentType → Type
  | cube => Cube.Setter
  | sphere => Ball.Setter
  | cylinder => Cylinder.Setter
  | circle => Ball.Setter
  | square => Square.Setter
  | polygon => Polygon.Setter
  | importFile => ImportFile.Setter
  | rotate => Rotate.Setter
  | color => Color.Setter
  | resize => Resize.Setter
  | offset => Offset.Setter
  | linearExtrude => LinearExtrude.Setter
  | rotateExtrude => RotateExtrude.Setter

instance : (type : ArgumentType) → TypedArguments type.Typed type.Setter
  | cube => inferInstanceAs (TypedArguments Cube Cube.Setter)
  | sphere => inferInstanceAs (TypedArguments Ball Ball.Setter)
  | cylinder => inferInstanceAs (TypedArguments Cylinder Cylinder.Setter)
  | circle => inferInstanceAs (TypedArguments Ball Ball.Setter)
  | square => inferInstanceAs (TypedArguments Square Square.Setter)
  | polygon => inferInstanceAs (TypedArguments Polygon Polygon.Setter)
  | importFile => inferInstanceAs (TypedArguments ImportFile ImportFile.Setter)
  | rotate => inferInstanceAs (TypedArguments Rotate Rotate.Setter)
  | color => inferInstanceAs (TypedArguments Color Color.Setter)
  | resize => inferInstanceAs (TypedArguments Resize Resize.Setter)
  | offset => inferInstanceAs (TypedArguments Offset Offset.Setter)
  | linearExtrude => inferInstanceAs (TypedArguments LinearExtrude LinearExtrude.Setter)
  | rotateExtrude => inferInstanceAs (TypedArguments RotateExtrude RotateExtrude.Setter)

/-- The constructors of the arguments of a type. -/
inductive Constructor : ArgumentType → Type where
  | cubeSized (size : Vector3) : Constructor cube
  | cubeSide (side : Number) : Constructor cube
  | sphere (size : Round) : Constructor sphere
  | cylinder (height : Number) (girth : Girth) : Constructor cylinder
  | circle (size : Round) : Constructor circle
  | squareSized (width height : Number) : Constructor square
  | squareSide (side : Number) : Constructor square
  | polygon (points : List (Number × Number)) : Constructor polygon
  | importFile (file : String) : Constructor importFile
  | rotateEuler (angles : Vector3) : Constructor rotate
  | rotateAbout (angle : Number) (axis : Vector3) : Constructor rotate
  | colorNamed (name : String) : Constructor color
  | colorRgb (r g b : Number) : Constructor color
  | colorRgba (r g b a : Number) : Constructor color
  | resize (size : Vector3) : Constructor resize
  | offset (amount : Offsetting) : Constructor offset
  | linearExtrude (height : Number) : Constructor linearExtrude
  | rotateExtrude : Constructor rotateExtrude

namespace Constructor

/-- The arguments that a constructor makes. -/
def make : {type : ArgumentType} → Constructor type → type.Typed
  | _, cubeSized size => Cube.sized size
  | _, cubeSide side => Cube.side side
  | _, sphere size => ({ size := size } : Ball)
  | _, cylinder height girth => ({ height := height, girth := girth } : Cylinder)
  | _, circle size => ({ size := size } : Ball)
  | _, squareSized width height => Square.sized width height
  | _, squareSide side => Square.side side
  | _, polygon points => ({ points := points } : Polygon)
  | _, importFile file => ({ file := file } : ImportFile)
  | _, rotateEuler angles => Rotate.euler angles
  | _, rotateAbout angle axis => Rotate.about angle axis
  | _, colorNamed name => Color.named name
  | _, colorRgb r g b => Color.components [r, g, b]
  | _, colorRgba r g b a => Color.components [r, g, b, a]
  | _, resize size => ({ size := size } : Resize)
  | _, offset amount => ({ amount := amount } : Offset)
  | _, linearExtrude height => ({ height := height } : LinearExtrude)
  | _, rotateExtrude => ({} : RotateExtrude)

/-- The parameters that a constructor and a chain of calls on it make. -/
def params {type : ArgumentType} (start : Constructor type)
    (calls : List (ArgumentCall type.Setter)) : Params :=
  argumentParams start.make calls

end Constructor
end ArgumentType
end SolidScript
