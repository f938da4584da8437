import SolidScript.Proofs.Arguments.Fields

/-!
# The last write of a chain

A chain of calls writes each name some number of times.  The parameters have the value of the last
write, but for one case: a call that sets a field does not undo an extra parameter of the same name
that was given before it (`params_keep_last_write_iff`).
-/

namespace SolidScript
namespace ArgumentType

variable {type : ArgumentType}

/-- What a call writes: the value of a field or an extra parameter. -/
def callWrite (type : ArgumentType) : ArgumentCall type.Setter → String × Value
  | .field setter => type.write setter
  | .extra name value => (name, value)

/-- A name that no extra parameter has is written by calls that set fields. -/
theorem lastSet?_callWrite_of_none {calls : List (ArgumentCall type.Setter)} {name : String}
    (h : lastSet? name (extraSets calls) = none) :
    lastSet? name (calls.map type.callWrite) =
      lastSet? name ((setterCalls calls).map type.write) := by
  induction calls using List.reverseRecOn with
  | nil => rfl
  | append_singleton calls call ih =>
      have hextra : extraSets (calls ++ [call]) = extraSets calls ++ extraSets [call] :=
        List.filterMap_append
      have hsetter : setterCalls (calls ++ [call]) = setterCalls calls ++ setterCalls [call] :=
        List.filterMap_append
      rw [hextra, lastSet?_append, Option.or_eq_none_iff] at h
      rw [hsetter, List.map_append, List.map_append, lastSet?_append, lastSet?_append, ih h.2]
      cases call with
      | field setter => rfl
      | extra other value =>
          have hnone : lastSet? name [(other, value)] = none := h.1
          change (lastSet? name [(other, value)]).or _ = _
          rw [hnone]
          rfl

/-- A name that an extra parameter has is written by some call. -/
theorem isSome_lastSet?_callWrite {calls : List (ArgumentCall type.Setter)} {name : String}
    (h : (lastSet? name (extraSets calls)).isSome) :
    (lastSet? name (calls.map type.callWrite)).isSome := by
  rw [isSome_lastSet?_iff] at h ⊢
  obtain ⟨entry, hentry, rfl⟩ := List.mem_map.mp h
  obtain ⟨call, hcall, hextra⟩ := List.mem_filterMap.mp hentry
  rw [List.map_map]
  refine List.mem_map.mpr ⟨call, hcall, ?_⟩
  cases call with
  | field setter => cases hextra
  | extra name value => cases hextra; rfl

/-- An extra parameter gives its value to a name whatever the fields have, and without one the last
call that sets the field of the name does, or else the constructor. -/
theorem get?_params (htype : type ≠ .rotate) (start : type.Constructor)
    (calls : List (ArgumentCall type.Setter)) (name : String) :
    (start.params calls).get? name = (lastSet? name (extraSets calls)).or
      (lastSet? name (start.writes ++ (setterCalls calls).map type.write)) := by
  rw [← lastSet?_fieldsAfter htype]
  exact ((start.holds_params calls).value name).trans (lastSet?_append _ _ _)

/-- A name has the value that the last write of the chain gave it, be it the constructor or a call,
exactly when no extra parameter has the name or the last extra one of this name was given the value
that is written last.  In every case an extra parameter takes precedence, and fields come after. -/
theorem params_keep_last_write_iff (htype : type ≠ .rotate) (start : type.Constructor)
    (calls : List (ArgumentCall type.Setter)) (name : String) :
    ((start.params calls).get? name = (lastSet? name (extraSets calls)).or
      (lastSet? name (start.writes ++ (setterCalls calls).map type.write))) ∧
    ((start.params calls).get? name = lastSet? name (start.writes ++ calls.map type.callWrite) ↔
      ∀ value, lastSet? name (extraSets calls) = some value →
        lastSet? name (calls.map type.callWrite) = some value) := by
  refine ⟨get?_params htype start calls name, ?_⟩
  rw [get?_params htype, lastSet?_append, lastSet?_append]
  cases hextra : lastSet? name (extraSets calls) with
  | none =>
      rw [lastSet?_callWrite_of_none hextra, Option.none_or]
      exact ⟨fun _ _ hvalue => (nomatch hvalue), fun _ => rfl⟩
  | some value =>
      have hsome : (lastSet? name (calls.map type.callWrite)).isSome :=
        isSome_lastSet?_callWrite (by rw [hextra]; rfl)
      obtain ⟨last, hlast⟩ := Option.isSome_iff_exists.mp hsome
      rw [hlast, Option.some_or, Option.some_or]
      constructor
      · rintro h other hother
        rw [← h, hother]
      · exact fun h => (h value rfl).symm

/-- A cube that is centred by a call and is not by an extra parameter afterwards. -/
def uncentredCube : List (ArgumentCall cube.Setter) :=
  [.field Cube.Setter.centered, .extra "center" (.bool false)]

/-- Here the extra parameter comes last, so what is written last counts. -/
theorem uncentredCube_keeps_last_write :
    cube ≠ .rotate ∧
      ((Constructor.cubeSide (.ofNat 1)).params uncentredCube).get? "center" =
        lastSet? "center" ((Constructor.cubeSide (.ofNat 1)).writes ++
          uncentredCube.map cube.callWrite) := by
  have hcube : cube ≠ .rotate := by decide
  have hkeep := params_keep_last_write_iff hcube (.cubeSide (.ofNat 1)) uncentredCube "center"
  exact ⟨hcube, hkeep.2.mpr fun value hvalue => hvalue⟩

/-- A cube that is not centred by an extra parameter and centred by a call afterwards. -/
def recentredCube : List (ArgumentCall cube.Setter) :=
  [.extra "center" (.bool false), .field Cube.Setter.centered]

/-- The last call says that the cube is centred, and the parameters say that it is not. -/
theorem recentredCube_loses_last_write :
    ((Constructor.cubeSide (.ofNat 1)).params recentredCube).get? "center" ≠
      lastSet? "center" ((Constructor.cubeSide (.ofNat 1)).writes ++
        recentredCube.map cube.callWrite) := by
  have hparams : ((Constructor.cubeSide (.ofNat 1)).params recentredCube).get? "center" =
      some (.bool false) := rfl
  have hlast : lastSet? "center" ((Constructor.cubeSide (.ofNat 1)).writes ++
      recentredCube.map cube.callWrite) = some (.bool true) := rfl
  rw [hparams, hlast]
  simp

end ArgumentType
end SolidScript
