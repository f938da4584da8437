import SolidScript.Arguments.Constructor
import SolidScript.Proofs.Tree.Parameters

/-!
# Fields of arguments

A constructor and each call that sets a field write values under names of the script; what they
write is told here beside the arguments themselves (`Constructor.writes`, `ArgumentType.write`).
Such a call changes the field of its name and no other (`fields_set`), so behind a chain a field has
the value that was written last (`lastSet?_fieldsAfter`).  Rotations are different: their angles
share a field, and an angle around one of the three axes takes the axis of a rotation away.

Extra parameters are kept apart from the fields until the end, so the parameters hold all fields
first and all extra parameters behind them, however the calls were mixed (`holds_params`).
-/

namespace SolidScript

/-! ## What is written -/

/-- The script name of the field that a call sets and the value that the call gives it. -/
def Cube.Setter.write : Cube.Setter → String × Value
  | centered => ("center", .bool true)

@[inherit_doc Cube.Setter.write]
def Ball.Setter.write : Ball.Setter → String × Value
  | segments n => ("$fn", .ofNat n)

@[inherit_doc Cube.Setter.write]
def Cylinder.Setter.write : Cylinder.Setter → String × Value
  | centered => ("center", .bool true)
  | segments n => ("$fn", .ofNat n)

@[inherit_doc Cube.Setter.write]
def Square.Setter.write : Square.Setter → String × Value
  | centered => ("center", .bool true)

@[inherit_doc Cube.Setter.write]
def Polygon.Setter.write : Polygon.Setter → String × Value
  | paths orders => ("paths", .vector (orders.map fun order => .vector (order.map .ofNat)))
  | convexity n => ("convexity", .ofNat n)

@[inherit_doc Cube.Setter.write]
def ImportFile.Setter.write : ImportFile.Setter → String × Value
  | centered => ("center", .bool true)
  | convexity n => ("convexity", .ofNat n)

/-- The script name of the rotation and the angle that a call gives, which becomes one of the three
angles in its value. -/
def Rotate.Setter.write : Rotate.Setter → String × Value
  | x angle => ("a", .number angle)
  | y angle => ("a", .number angle)
  | z angle => ("a", .number angle)

@[inherit_doc Cube.Setter.write]
def Color.Setter.write : Color.Setter → String × Value
  | alpha a => ("alpha", .number a)

@[inherit_doc Cube.Setter.write]
def Resize.Setter.write : Resize.Setter → String × Value
  | auto b => ("auto", .bool b)
  | autoAxes x y z => ("auto", .vector [.bool x, .bool y, .bool z])

@[inherit_doc Cube.Setter.write]
def Offset.Setter.write : Offset.Setter → String × Value
  | chamfer b => ("chamfer", .bool b)

@[inherit_doc Cube.Setter.write]
def LinearExtrude.Setter.write : LinearExtrude.Setter → String × Value
  | centered => ("center", .bool true)
  | twist angle => ("twist", .number angle)
  | slices n => ("slices", .ofNat n)
  | scale value => ("scale", value)
  | convexity n => ("convexity", .ofNat n)

@[inherit_doc Cube.Setter.write]
def RotateExtrude.Setter.write : RotateExtrude.Setter → String × Value
  | angle a => ("angle", .number a)
  | convexity n => ("convexity", .ofNat n)
  | segments n => ("$fn", .ofNat n)

namespace ArgumentType

/-- What a call that sets a field writes. -/
def write : (type : ArgumentType) → type.Setter → String × Value
  | cube => Cube.Setter.write
  | sphere => Ball.Setter.write
  | cylinder => Cylinder.Setter.write
  | circle => Ball.Setter.write
  | square => Square.Setter.write
  | polygon => Polygon.Setter.write
  | importFile => ImportFile.Setter.write
  | rotate => Rotate.Setter.write
  | color => Color.Setter.write
  | resize => Resize.Setter.write
  | offset => Offset.Setter.write
  | linearExtrude => LinearExtrude.Setter.write
  | rotateExtrude => RotateExtrude.Setter.write

/-- The script names that a type knows, in its order. -/
def order : ArgumentType → List String
  | cube => ["size", "center"]
  | sphere => ["r", "d", "$fn"]
  | cylinder => ["h", "r", "d", "r1", "r2", "center", "$fn"]
  | circle => ["r", "d", "$fn"]
  | square => ["size", "center"]
  | polygon => ["points", "paths", "convexity"]
  | importFile => ["file", "center", "convexity"]
  | rotate => ["a", "v"]
  | color => ["c", "alpha"]
  | resize => ["newsize", "auto"]
  | offset => ["r", "delta", "chamfer"]
  | linearExtrude => ["height", "center", "twist", "slices", "scale", "convexity"]
  | rotateExtrude => ["angle", "convexity", "$fn"]

/-- What a constructor writes. -/
def Constructor.writes : {type : ArgumentType} → Constructor type → List (String × Value)
  | _, cubeSized size => [("size", .numbers [size.x, size.y, size.z])]
  | _, cubeSide side => [("size", .number side)]
  | _, sphere (.radius r) => [("r", .number r)]
  | _, sphere (.diameter d) => [("d", .number d)]
  | _, cylinder height (.uniform (.radius r)) => [("h", .number height), ("r", .number r)]
  | _, cylinder height (.uniform (.diameter d)) => [("h", .number height), ("d", .number d)]
  | _, cylinder height (.cone bottom top) =>
    [("h", .number height), ("r1", .number bottom), ("r2", .number top)]
  | _, circle (.radius r) => [("r", .number r)]
  | _, circle (.diameter d) => [("d", .number d)]
  | _, squareSized width height => [("size", .numbers [width, height])]
  | _, squareSide side => [("size", .number side)]
  | _, polygon points => [("points", .vector (points.map fun (x, y) => .numbers [x, y]))]
  | _, importFile file => [("file", .text file)]
  | _, rotateEuler angles => [("a", .numbers [angles.x, angles.y, angles.z])]
  | _, rotateAbout angle axis => [("a", .number angle), ("v", .numbers [axis.x, axis.y, axis.z])]
  | _, colorNamed name => [("c", .text name)]
  | _, colorRgb r g b => [("c", .numbers [r, g, b])]
  | _, colorRgba r g b a => [("c", .numbers [r, g, b, a])]
  | _, resize size => [("newsize", .numbers [size.x, size.y, size.z])]
  | _, offset (.radius r) => [("r", .number r)]
  | _, offset (.delta d) => [("delta", .number d)]
  | _, linearExtrude height => [("height", .number height)]
  | _, rotateExtrude => []

theorem writes_eq {type : ArgumentType} (start : type.Constructor) :
    start.writes = Arguments.setFields (TypedArguments.fields start.make) := by
  cases start with
  | sphere size => cases size <;> rfl
  | circle size => cases size <;> rfl
  | cylinder height girth =>
      cases girth with
      | uniform size => cases size <;> rfl
      | cone bottom top => rfl
  | offset amount => cases amount <;> rfl
  | _ => rfl

/-- The fields after one of them was set. -/
def assign (entry : String × Value) (fields : List (String × Option Value)) :
    List (String × Option Value) :=
  fields.map fun field => (field.1, if field.1 = entry.1 then some entry.2 else field.2)

/-- A call sets the field of its name and leaves the others as they are.  Only a rotation is not
like this, whose angles share a field. -/
theorem fields_set {type : ArgumentType} (htype : type ≠ .rotate) (args : type.Typed)
    (setter : type.Setter) :
    (type.write setter).1 ∈ (TypedArguments.fields args).map Prod.fst ∧
      TypedArguments.fields (TypedArguments.set args setter) =
        assign (type.write setter) (TypedArguments.fields args) := by
  -- the names of some fields depend on the choice that the constructor made
  cases type with
  | rotate => exact absurd rfl htype
  | sphere =>
      obtain ⟨size, segments⟩ := args
      cases size <;> cases setter <;> exact ⟨List.contains_iff_mem.mp rfl, rfl⟩
  | circle =>
      obtain ⟨size, segments⟩ := args
      cases size <;> cases setter <;> exact ⟨List.contains_iff_mem.mp rfl, rfl⟩
  | cylinder =>
      obtain ⟨height, girth, center, segments⟩ := args
      rcases girth with (r | d) | ⟨bottom, top⟩ <;> cases setter <;>
        exact ⟨List.contains_iff_mem.mp rfl, rfl⟩
  | offset =>
      obtain ⟨amount, chamfer⟩ := args
      cases amount <;> cases setter <;> exact ⟨List.contains_iff_mem.mp rfl, rfl⟩
  | _ => cases setter <;> exact ⟨List.contains_iff_mem.mp rfl, rfl⟩

/-- The fields stand in the order of their type, be they set or not. -/
theorem fields_sublist_order {type : ArgumentType} (args : type.Typed) :
    ((TypedArguments.fields args).map Prod.fst).Sublist type.order := by
  cases type with
  | rotate => cases args <;> exact List.isSublist_iff_sublist.mp rfl
  | sphere =>
      obtain ⟨size, segments⟩ := args
      cases size <;> exact List.isSublist_iff_sublist.mp rfl
  | circle =>
      obtain ⟨size, segments⟩ := args
      cases size <;> exact List.isSublist_iff_sublist.mp rfl
  | cylinder =>
      obtain ⟨height, girth, center, segments⟩ := args
      rcases girth with (r | d) | ⟨bottom, top⟩ <;> exact List.isSublist_iff_sublist.mp rfl
  | offset =>
      obtain ⟨amount, chamfer⟩ := args
      cases amount <;> exact List.isSublist_iff_sublist.mp rfl
  | _ => exact List.Sublist.refl _

theorem nodup_order (type : ArgumentType) : type.order.Nodup := by
  cases type <;> decide

end ArgumentType

/-! ## Fields that are set -/

namespace Arguments

theorem names_setFields_sublist (fields : List (String × Option Value)) :
    ((setFields fields).map Prod.fst).Sublist (fields.map Prod.fst) := by
  induction fields with
  | nil => exact .slnil
  | cons field rest ih =>
      obtain ⟨name, value⟩ := field
      cases value with
      | none => exact ih.cons name
      | some value => exact ih.cons_cons name

/-- A field that was set is a parameter, and one that was not is none. -/
theorem lookup_setFields {fields : List (String × Option Value)}
    (h : (fields.map Prod.fst).Nodup) (name : String) :
    (setFields fields).lookup name = (fields.lookup name).join := by
  induction fields with
  | nil => rfl
  | cons field rest ih =>
      obtain ⟨other, value⟩ := field
      obtain ⟨hother, hrest⟩ := List.nodup_cons.mp h
      rw [lookup_cons_eq_ite]
      cases value with
      | none =>
          refine (ih hrest).trans ?_
          by_cases hname : name = other
          · rw [if_pos hname, hname, lookup_eq_none hother]
            rfl
          · rw [if_neg hname]
      | some value =>
          refine (lookup_cons_eq_ite name other value (setFields rest)).trans ?_
          rw [ih hrest]
          split <;> rfl

theorem lookup_assign (name : String) (entry : String × Value)
    (fields : List (String × Option Value)) :
    (ArgumentType.assign entry fields).lookup name =
      if name = entry.1 then (fields.lookup name).map fun _ => some entry.2
      else fields.lookup name := by
  induction fields with
  | nil => exact (ite_self none).symm
  | cons field rest ih =>
      obtain ⟨other, value⟩ := field
      rw [lookup_cons_eq_ite, ArgumentType.assign, List.map_cons, lookup_cons_eq_ite]
      by_cases hname : name = other
      · rw [if_pos hname, if_pos hname, hname]
        split <;> rfl
      · rw [if_neg hname, if_neg hname]
        exact ih

end Arguments

section Chains

variable {α σ : Type}

/-- The field that a call sets, if it sets one. -/
def ArgumentCall.setter? : ArgumentCall σ → Option σ
  | .field setter => some setter
  | .extra _ _ => none

/-- The extra parameter that a call gives, if it gives one. -/
def ArgumentCall.extra? : ArgumentCall σ → Option (String × Value)
  | .field _ => none
  | .extra name value => some (name, value)

/-- The calls of a chain that set fields. -/
def setterCalls (calls : List (ArgumentCall σ)) : List σ := calls.filterMap (·.setter?)

/-- The extra parameters that a chain gives. -/
def extraSets (calls : List (ArgumentCall σ)) : List (String × Value) :=
  calls.filterMap (·.extra?)

theorem setterCalls_map_field (setters : List σ) :
    setterCalls (setters.map ArgumentCall.field) = setters := by
  rw [setterCalls, List.filterMap_map]
  exact List.filterMap_some

theorem extraSets_map_field (setters : List σ) :
    extraSets (setters.map ArgumentCall.field) = [] := by
  rw [extraSets, List.filterMap_map]
  exact List.filterMap_eq_nil_iff.mpr fun _ _ => rfl

variable [TypedArguments α σ]

/-- Fields and extra parameters do not know of each other. -/
theorem Arguments.callAll_eq (args : Arguments α) (calls : List (ArgumentCall σ)) :
    args.callAll calls =
      ⟨(setterCalls calls).foldl TypedArguments.set args.typed,
        args.extra.setAll (extraSets calls)⟩ := by
  induction calls generalizing args with
  | nil => rfl
  | cons call rest ih =>
      refine (ih (args.call call)).trans ?_
      cases call <;> rfl

/-- The fields come first, whatever the order of the calls was. -/
theorem holds_argumentParams (typed : α) (calls : List (ArgumentCall σ)) :
    (argumentParams typed calls).Holds
      (Arguments.setFields
        (TypedArguments.fields ((setterCalls calls).foldl TypedArguments.set typed)) ++
          extraSets calls) := by
  rw [argumentParams, Arguments.callAll_eq]
  exact (Params.holds_ofList _).merge (Params.holds_ofList _)

end Chains

namespace ArgumentType

open Arguments (setFields)

variable {type : ArgumentType}

/-- The fields behind a constructor and the calls that set them. -/
def Constructor.fieldsAfter (start : type.Constructor) (setters : List type.Setter) :
    List (String × Option Value) :=
  TypedArguments.fields (setters.foldl TypedArguments.set start.make)

/-- The parameters hold the fields that are set and then the extra parameters. -/
theorem Constructor.holds_params (start : type.Constructor)
    (calls : List (ArgumentCall type.Setter)) :
    (start.params calls).Holds
      (setFields (start.fieldsAfter (setterCalls calls)) ++ extraSets calls) :=
  holds_argumentParams start.make calls

theorem nodup_fieldsAfter (start : type.Constructor) (setters : List type.Setter) :
    ((start.fieldsAfter setters).map Prod.fst).Nodup :=
  type.nodup_order.sublist (fields_sublist_order _)

theorem nodup_names_setFields (start : type.Constructor) (setters : List type.Setter) :
    ((setFields (start.fieldsAfter setters)).map Prod.fst).Nodup :=
  (nodup_fieldsAfter start setters).sublist (Arguments.names_setFields_sublist _)

theorem fieldsAfter_eq_foldl (htype : type ≠ .rotate) (start : type.Constructor)
    (setters : List type.Setter) :
    start.fieldsAfter setters =
      setters.foldl (fun fields setter => assign (type.write setter) fields)
        (start.fieldsAfter []) := by
  have hfold : ∀ args : type.Typed,
      TypedArguments.fields (setters.foldl TypedArguments.set args) =
        setters.foldl (fun fields setter => assign (type.write setter) fields)
          (TypedArguments.fields args) := by
    induction setters with
    | nil => exact fun args => rfl
    | cons setter rest ih =>
        intro args
        rw [List.foldl_cons, ih, (fields_set htype args setter).2, List.foldl_cons]
  exact hfold start.make

/-- The last call that sets a field gives the value of its name, and else the constructor does. -/
theorem lastSet?_fieldsAfter (htype : type ≠ .rotate) (start : type.Constructor)
    (setters : List type.Setter) (name : String) :
    lastSet? name (setFields (start.fieldsAfter setters)) =
      lastSet? name (start.writes ++ setters.map type.write) := by
  induction setters using List.reverseRecOn with
  | nil => rw [writes_eq, List.map_nil, List.append_nil]; rfl
  | append_singleton setters setter ih =>
      have hstep : start.fieldsAfter (setters ++ [setter]) =
          assign (type.write setter) (start.fieldsAfter setters) := by
        rw [Constructor.fieldsAfter, List.foldl_append]
        exact (fields_set htype _ setter).2
      have hmem : (type.write setter).1 ∈ (start.fieldsAfter setters).map Prod.fst :=
        (fields_set htype _ setter).1
      rw [lastSet?_eq_lookup (nodup_names_setFields start _),
        Arguments.lookup_setFields (nodup_fieldsAfter start _)] at ih ⊢
      rw [List.map_append, ← List.append_assoc, lastSet?_append, ← ih, hstep,
        Arguments.lookup_assign, List.map_singleton, lastSet?_singleton]
      by_cases hname : name = (type.write setter).1
      · obtain ⟨old, hold⟩ := Option.isSome_iff_exists.mp (isSome_lookup_iff.mpr (hname ▸ hmem))
        rw [if_pos hname, if_pos hname, hold]
        rfl
      · rw [if_neg hname, if_neg hname, Option.none_or]

end ArgumentType
end SolidScript
