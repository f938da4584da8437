import SolidScript.Proofs.Arguments.Fields

/-!
# Interleavings of calls

Calls on different fields do not know of each other, nor do fields and extra parameters, so chains
that agree on each of these make the same parameters (`params_of_interleaving`).  That two lists
with the same steps for every key can be told apart by no step that respects the keys is a fact of
its own (`foldl_eq_of_filter_eq`): the next call for a key can be brought to the front of the other
list, since all steps before it have other keys.
-/

namespace SolidScript

/-- A step may be taken before others that it commutes with or after them. -/
theorem foldl_step_eq {β σ : Type} {step : β → σ → β} {s : σ} {ts : List σ}
    (hcomm : ∀ t ∈ ts, ∀ b, step (step b s) t = step (step b t) s) (b : β) :
    ts.foldl step (step b s) = step (ts.foldl step b) s := by
  induction ts generalizing b with
  | nil => rfl
  | cons t ts ih =>
      rw [List.forall_mem_cons] at hcomm
      rw [List.foldl_cons, List.foldl_cons, hcomm.1, ih hcomm.2]

/-- Two lists that have the same steps for every key end in the same state, if steps for different
keys commute. -/
theorem foldl_eq_of_filter_eq {β σ : Type} {step : β → σ → β} {key : σ → String}
    (hcomm : ∀ b s t, key s ≠ key t → step (step b s) t = step (step b t) s) {xs ys : List σ}
    (h : ∀ k, xs.filter (key · == k) = ys.filter (key · == k)) (b : β) :
    xs.foldl step b = ys.foldl step b := by
  induction xs generalizing ys b with
  | nil =>
      cases ys with
      | nil => rfl
      | cons y ys =>
          have hkey := h (key y)
          rw [List.filter_cons_of_pos (by simp)] at hkey
          cases hkey
  | cons x xs ih =>
      -- the next step for this key stands in the other list behind steps for other keys only
      have hkey := h (key x)
      rw [List.filter_cons_of_pos (by simp)] at hkey
      obtain ⟨before, after, rfl, hbefore, -, -⟩ := List.filter_eq_cons_iff.mp hkey.symm
      have hmove : before.foldl step (step b x) = step (before.foldl step b) x :=
        foldl_step_eq (fun t ht b => hcomm b x t fun heq => hbefore t ht (by simp [heq])) b
      have hrest : ∀ k, xs.filter (key · == k) = (before ++ after).filter (key · == k) := by
        intro k
        have hk := h k
        rw [List.filter_append, List.filter_cons, List.filter_cons] at hk
        rw [List.filter_append]
        by_cases hx : key x = k
        · subst hx
          have hnone : before.filter (key · == key x) = [] :=
            List.filter_eq_nil_iff.mpr hbefore
          simpa [hnone] using hk
        · simpa [hx] using hk
      rw [List.foldl_cons, ih hrest, List.foldl_append, List.foldl_append, List.foldl_cons, hmove]

namespace ArgumentType

open Arguments (setFields)

variable {type : ArgumentType}

/-- The field that a name belongs to.  The angle of a rotation and its axis are one field. -/
def fieldOf : ArgumentType → String → String
  | rotate, _ => "a"
  | _, name => name

/-- The calls of a chain that set a field, in their order. -/
def callsOf (field : String) (calls : List (ArgumentCall type.Setter)) : List type.Setter :=
  (setterCalls calls).filter fun setter => (type.write setter).1 == field

/-- The names that the calls of a chain set, repeats included. -/
def calledNames (calls : List (ArgumentCall type.Setter)) : List String :=
  (setterCalls calls).map fun setter => (type.write setter).1

/-- The names of the fields that are set behind a chain, in the order of the type: those that a call
sets, and those that the constructor gives unless a call sets their field anew. -/
def typedNames (start : type.Constructor) (calls : List (ArgumentCall type.Setter)) :
    List String :=
  type.order.filter fun name => name ∈ calledNames calls ∨
    (name ∈ start.writes.map Prod.fst ∧ type.fieldOf name ∉ calledNames calls)

theorem assign_comm {a b : String × Value} (h : a.1 ≠ b.1)
    (fields : List (String × Option Value)) :
    assign b (assign a fields) = assign a (assign b fields) := by
  rw [assign, assign, assign, assign, List.map_map, List.map_map]
  refine List.map_congr_left fun field _ => ?_
  dsimp only [Function.comp_apply]
  by_cases ha : field.1 = a.1
  · have hb : field.1 ≠ b.1 := ha ▸ h
    simp only [if_pos ha, if_neg hb]
  · simp only [if_neg ha]

/-- All calls on a rotation set its one field. -/
theorem callsOf_rotate (calls : List (ArgumentCall rotate.Setter)) :
    callsOf "a" calls = setterCalls calls := by
  refine List.filter_eq_self.mpr fun setter _ => ?_
  cases setter <;> rfl

/-- The fields depend on the calls for each of them alone. -/
theorem fieldsAfter_congr (start : type.Constructor)
    {calls others : List (ArgumentCall type.Setter)}
    (h : ∀ field, callsOf field calls = callsOf field others) :
    start.fieldsAfter (setterCalls calls) = start.fieldsAfter (setterCalls others) := by
  by_cases htype : type = .rotate
  · subst htype
    rw [← callsOf_rotate, ← callsOf_rotate, h]
  · rw [fieldsAfter_eq_foldl htype start (setterCalls calls),
      fieldsAfter_eq_foldl htype start (setterCalls others)]
    refine @foldl_eq_of_filter_eq _ _ _ (fun setter => (type.write setter).1) ?_ _ _ h _
    exact fun fields s t hne => assign_comm hne fields

/-- Once one of its angles is set, a rotation is one around the three axes. -/
theorem exists_euler (start : Rotate) {setters : List Rotate.Setter} (h : setters ≠ []) :
    ∃ angles, setters.foldl TypedArguments.set start = .euler angles := by
  induction setters using List.reverseRecOn with
  | nil => exact absurd rfl h
  | append_singleton setters setter ih =>
      rw [List.foldl_append]
      cases setter <;> exact ⟨_, rfl⟩

theorem filter_mem_eq {names order : List String} (h : names.Sublist order)
    (hnodup : order.Nodup) : order.filter (· ∈ names) = names := by
  induction h with
  | slnil => rfl
  | cons name h ih =>
      obtain ⟨hname, hrest⟩ := List.nodup_cons.mp hnodup
      have hnew : name ∉ _ := fun hmem => hname (h.mem hmem)
      rw [List.filter_cons_of_neg (by simpa using hnew), ih hrest]
  | cons_cons name h ih =>
      obtain ⟨hname, hrest⟩ := List.nodup_cons.mp hnodup
      rw [List.filter_cons_of_pos (by simp)]
      congr 1
      conv_rhs => rw [← ih hrest]
      refine List.filter_congr fun other hother => ?_
      have hne : other ≠ name := ne_of_mem_of_not_mem hother hname
      simp [hne]

/-- A call on a rotation that has an axis leaves it with its angles alone. -/
theorem mem_names_setFields_rotate_iff (start : Constructor rotate)
    (calls : List (ArgumentCall rotate.Setter)) (name : String) :
    name ∈ (setFields (start.fieldsAfter (setterCalls calls))).map Prod.fst ↔
      name ∈ calledNames calls ∨
        (name ∈ start.writes.map Prod.fst ∧ "a" ∉ calledNames calls) := by
  have hcalled : ∀ other ∈ calledNames calls, other = "a" := by
    intro other hother
    obtain ⟨setter, -, rfl⟩ := List.mem_map.mp hother
    cases setter <;> rfl
  by_cases hnone : setterCalls calls = []
  · have hnames : calledNames calls = [] := by rw [calledNames, hnone, List.map_nil]
    rw [hnone, hnames, writes_eq]
    simp [Constructor.fieldsAfter]
  · -- a single call is enough, and it leaves no other field than the angles
    have ha : "a" ∈ calledNames calls := by
      obtain ⟨setter, hsetter⟩ := List.exists_mem_of_ne_nil _ hnone
      have hmem : (rotate.write setter).1 ∈ calledNames calls := List.mem_map_of_mem hsetter
      rwa [hcalled _ hmem] at hmem
    obtain ⟨angles, hangles⟩ := exists_euler start.make hnone
    have hfields : start.fieldsAfter (setterCalls calls) = [("a", some angles.toValue)] :=
      congrArg TypedArguments.fields hangles
    rw [hfields]
    constructor
    · intro hname
      rw [List.mem_singleton.mp hname]
      exact .inl ha
    · rintro (hname | ⟨-, hname⟩)
      · rw [hcalled name hname]
        exact List.mem_singleton_self "a"
      · exact absurd ha hname

/-- A name is set when a call sets it, or the constructor gives it and no call sets its field. -/
theorem mem_names_setFields_iff (start : type.Constructor)
    (calls : List (ArgumentCall type.Setter)) (name : String) :
    name ∈ (setFields (start.fieldsAfter (setterCalls calls))).map Prod.fst ↔
      name ∈ calledNames calls ∨
        (name ∈ start.writes.map Prod.fst ∧ type.fieldOf name ∉ calledNames calls) := by
  by_cases htype : type = .rotate
  · subst htype
    exact mem_names_setFields_rotate_iff start calls name
  · have hfield : type.fieldOf name = name := by
      cases type with
      | rotate => exact absurd rfl htype
      | _ => rfl
    have hcalled : ((setterCalls calls).map type.write).map Prod.fst = calledNames calls := by
      rw [List.map_map]
      rfl
    rw [← isSome_lastSet?_iff, lastSet?_fieldsAfter htype, isSome_lastSet?_iff, List.map_append,
      List.mem_append, hcalled, hfield]
    tauto

theorem names_setFields (start : type.Constructor) (calls : List (ArgumentCall type.Setter)) :
    (setFields (start.fieldsAfter (setterCalls calls))).map Prod.fst = typedNames start calls := by
  have hsublist := (Arguments.names_setFields_sublist
    (start.fieldsAfter (setterCalls calls))).trans (fields_sublist_order _)
  rw [← filter_mem_eq hsublist type.nodup_order, typedNames]
  simp only [mem_names_setFields_iff]

/-- The order in which calls are made does not matter, as long as the calls on each field and those
for extra parameters keep their own order.  Every name stands once among the parameters: first those
of the fields that are set, in the order of the type, and then the other extra ones as they were
first given.  An extra parameter gives its value also where it has the name of a field. -/
theorem params_of_interleaving (start : type.Constructor) :
    (∀ calls others : List (ArgumentCall type.Setter),
      (∀ field, callsOf field calls = callsOf field others) →
        extraSets calls = extraSets others → start.params calls = start.params others) ∧
    ∀ calls : List (ArgumentCall type.Setter), (start.params calls).names.Nodup ∧
      (start.params calls).names = typedNames start calls ++
        ((extraSets calls).map Prod.fst).eraseDups.filter (· ∉ typedNames start calls) ∧
      ∀ name, (start.params calls).get? name = (lastSet? name (extraSets calls)).or
        ((start.params ((setterCalls calls).map .field)).get? name) := by
  constructor
  · intro calls others hfields hextra
    have hcalls := start.holds_params calls
    rw [fieldsAfter_congr start hfields, hextra] at hcalls
    exact hcalls.unique (start.holds_params others)
  · intro calls
    have hcalls := start.holds_params calls
    refine ⟨hcalls.distinct, ?_, fun name => ?_⟩
    · have hdistinct := eraseDups_of_nodup (nodup_names_setFields start (setterCalls calls))
      rw [hcalls.order, List.map_append, eraseDups_append_eq, hdistinct, names_setFields]
      simp only [List.contains_eq_mem, decide_not]
    · have htyped := (start.holds_params ((setterCalls calls).map .field)).value name
      rw [setterCalls_map_field, extraSets_map_field, List.append_nil] at htyped
      rw [htyped, hcalls.value, lastSet?_append]

/-- Two calls on different fields may be made in either order, with extra parameters between. -/
theorem callsOf_swap {first second : type.Setter}
    (h : (type.write first).1 ≠ (type.write second).1) (name : String) (value : Value)
    (field : String) :
    callsOf field [.field first, .extra name value, .field second] =
      callsOf field [.field second, .extra name value, .field first] := by
  have hcalls (s t : type.Setter) :
      setterCalls [.field s, .extra name value, .field t] = [s, t] := rfl
  rw [callsOf, callsOf, hcalls, hcalls]
  by_cases hfirst : (type.write first).1 = field
  · have hsecond : (type.write second).1 ≠ field := fun heq => h (hfirst.trans heq.symm)
    simp [hfirst, hsecond]
  · simp [List.filter_cons, hfirst]

/-- A cylinder that is centred before its segments are set. -/
def centredFirst : List (ArgumentCall cylinder.Setter) :=
  [.field Cylinder.Setter.centered, .extra "note" .undef, .field (Cylinder.Setter.segments 48)]

/-- The same cylinder with its segments set before it is centred. -/
def centredLast : List (ArgumentCall cylinder.Setter) :=
  [.field (Cylinder.Setter.segments 48), .extra "note" .undef, .field Cylinder.Setter.centered]

theorem params_centredFirst_eq_centredLast :
    (∀ field, callsOf field centredFirst = callsOf field centredLast) ∧
      extraSets centredFirst = extraSets centredLast ∧
      (Constructor.cylinder (.ofNat 10) (.uniform (.radius (.ofNat 2)))).params centredFirst =
        (Constructor.cylinder (.ofNat 10) (.uniform (.radius (.ofNat 2)))).params centredLast := by
  have hfields : ∀ field, callsOf field centredFirst = callsOf field centredLast :=
    callsOf_swap (by decide +kernel) "note" .undef
  exact ⟨hfields, rfl, (params_of_interleaving _).1 centredFirst centredLast hfields rfl⟩

end ArgumentType
end SolidScript
