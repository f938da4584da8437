import SolidScript.Proofs.CommandLine.Steps

/-!
# What the log has no part in

An emission only ever adds to the log (`framed_emitTree`), so that notes which were made before it
stay in front of its own and make no difference to anything else (`exists_of_framed`).
-/

namespace SolidScript
namespace CommandLine

/-- The surroundings with earlier notes in front of those in the log. -/
def Surroundings.precededBy (s : Surroundings) (notes : List Note) : Surroundings :=
  { s with logged := notes ++ s.logged }

/-- The action never looks at the log; it only adds to it. -/
def Framed {α : Type} (x : StateM Surroundings α) : Prop :=
  ∀ s notes, x (s.precededBy notes) = ((x s).1, (x s).2.precededBy notes)

/-! ## Operations in a directory -/

section

variable {α β : Type} {x : StateM Surroundings α} {path : String}

theorem framed_pure (a : α) : Framed (pure a) := fun _ _ => rfl

theorem framed_bind {f : α → StateM Surroundings β} (hx : Framed x) (hf : ∀ a, Framed (f a)) :
    Framed (x >>= f) := by
  intro s notes
  rw [bind_apply, bind_apply, hx, hf]

theorem framed_has : Framed (Workspace.inDirectory.has path) := fun _ _ => rfl

theorem framed_read : Framed (Workspace.inDirectory.read path) := fun _ _ => rfl

theorem framed_now : Framed Workspace.inDirectory.now := fun _ _ => rfl

theorem framed_print {text : String} : Framed (Workspace.inDirectory.print text) :=
  fun _ _ => rfl

theorem framed_write {bytes : ByteArray} : Framed (Workspace.inDirectory.write path bytes) := by
  intro s notes
  cases hwrite : s.directory.write path bytes with
  | ok written =>
      have hsame : (s.precededBy notes).directory.write path bytes = .ok written := hwrite
      rw [write_inDirectory_ok hwrite, write_inDirectory_ok hsame]
      rfl
  | error e =>
      have hsame : (s.precededBy notes).directory.write path bytes = .error e := hwrite
      rw [write_inDirectory_error hwrite, write_inDirectory_error hsame]

theorem framed_log (more : List Note) : Framed (Workspace.inDirectory.log more) := by
  intro s notes
  rw [log_inDirectory, log_inDirectory, Surroundings.note, Surroundings.note]
  simp [Surroundings.precededBy]

end

/-! ## Steps of an emission -/

theorem framed_prepare (output : Option String) :
    Framed (prepare Workspace.inDirectory output) := by
  cases output with
  | none => exact framed_pure _
  | some path =>
      refine framed_bind framed_write fun written => ?_
      cases written <;> exact framed_pure _

theorem framed_deliver (output : Option String) (script : String) :
    Framed (deliver Workspace.inDirectory output script) := by
  cases output with
  | none => exact framed_print
  | some path => exact framed_write

theorem framed_deliverDocument (output : Option String) (document : Document) :
    Framed (deliverDocument Workspace.inDirectory output document) := by
  refine framed_bind (framed_prepare output) fun ready => ?_
  cases ready with
  | error failure => exact framed_pure _
  | ok _ =>
      refine framed_bind (framed_log _) fun _ => ?_
      cases document.render with
      | error fault => exact framed_pure _
      | ok script =>
          refine framed_bind (framed_deliver output script) fun delivered => ?_
          cases delivered with
          | error e => exact framed_pure _
          | ok _ => exact framed_bind (framed_log _) fun _ => framed_pure _

theorem framed_emitTree (input : String) (output : Option String) (config : Config) :
    Framed (emitTree Workspace.inDirectory input output config) := by
  refine framed_bind framed_has fun found => ?_
  cases found with
  | false => exact framed_pure _
  | true =>
      refine framed_bind framed_now fun start => framed_bind framed_read fun contents => ?_
      cases rootsOfFile input contents with
      | error failure => exact framed_pure _
      | ok roots =>
          refine framed_bind (framed_log _) fun _ => ?_
          cases Document.ofRecorder config (({} : Recorder).recordAll roots) with
          | error fault => exact framed_pure _
          | ok document =>
              refine framed_bind (framed_log _) fun _ => ?_
              refine framed_bind (framed_deliverDocument output document) fun delivered => ?_
              cases delivered with
              | error failure => exact framed_pure _
              | ok bytes => exact framed_bind framed_now fun _ => framed_pure _

/-- Notes made before an action stay in front of those that it makes. -/
theorem exists_of_framed {α : Type} {x : StateM Surroundings α} (hx : Framed x)
    (s : Surroundings) :
    ∃ a, ∃ after : Surroundings, ∀ notes,
      x (s.note notes) = (a, after.precededBy (s.logged ++ notes)) := by
  refine ⟨(x { s with logged := [] }).1, (x { s with logged := [] }).2, fun notes => ?_⟩
  rw [← hx]
  simp [Surroundings.precededBy, Surroundings.note]

end CommandLine
end SolidScript
