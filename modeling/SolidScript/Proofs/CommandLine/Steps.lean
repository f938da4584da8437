import Mathlib.Tactic
import SolidScript.CommandLine.Run
import SolidScript.Proofs.Files.Directory

/-!
# Emissions step by step

Each step of an emission is an equation for what it gives in a directory: the configuration is
loaded, the tree is loaded and recorded again, the output is made ready, the script is rendered and
delivered, and at the end the outcome is told.  What is true of whole runs is put together from
these equations.
-/

namespace SolidScript
namespace CommandLine

/-! ## Operations in a directory -/

theorem bind_apply {σ α β : Type} (x : StateM σ α) (f : α → StateM σ β) (s : σ) :
    (x >>= f) s = f (x s).1 (x s).2 := rfl

section

variable {s : Surroundings} {path : String}

theorem has_inDirectory : Workspace.inDirectory.has path s = (s.directory.has path, s) := rfl

theorem read_inDirectory : Workspace.inDirectory.read path s = (s.directory.read path, s) := rfl

theorem now_inDirectory : Workspace.inDirectory.now s = (0, s) := rfl

theorem log_inDirectory (notes : List Note) :
    Workspace.inDirectory.log notes s = ((), s.note notes) := rfl

theorem write_inDirectory_ok {bytes : ByteArray} {written : Directory}
    (h : s.directory.write path bytes = .ok written) :
    Workspace.inDirectory.write path bytes s = (.ok (), { s with directory := written }) := by
  simp only [Workspace.inDirectory, h]

theorem write_inDirectory_error {bytes : ByteArray} {e : FileError}
    (h : s.directory.write path bytes = .error e) :
    Workspace.inDirectory.write path bytes s = (.error e, s) := by
  simp only [Workspace.inDirectory, h]

/-! ## Steps of an emission -/

/-- The configuration that is in effect in a directory. -/
def configIn (dir : Directory) (env : Environment) : Option String → Except Failure Config
  | some path => Config.load path (some (dir.read path)) env
  | none =>
    Config.load Config.defaultFile
      (if dir.has Config.defaultFile then some (dir.read Config.defaultFile) else none) env

theorem readConfig_eq_configIn (env : Environment) (source : Option String) :
    readConfig Workspace.inDirectory env source s = (configIn s.directory env source, s) := by
  cases source with
  | some path => rfl
  | none =>
      unfold readConfig configIn
      dsimp only
      rw [bind_apply, has_inDirectory]
      cases s.directory.has Config.defaultFile with
      | true => rfl
      | false => rfl

/-- Loading a configuration changes nothing but the log, in which the variables that are ignored
are noted. -/
theorem loadConfig_eq_configIn (env : Environment) (source : Option String) :
    loadConfig Workspace.inDirectory env source s =
      (configIn s.directory env source,
        match configIn s.directory env source with
        | .ok _ => s.note (ignoredNotes env)
        | .error _ => s) := by
  unfold loadConfig
  rw [bind_apply, readConfig_eq_configIn]
  dsimp only
  cases configIn s.directory env source <;> rfl

/-- The roots of the tree at a path of a directory. -/
def treeIn (dir : Directory) (input : String) : Except Failure (List Node) :=
  if dir.has input then rootsOfFile input (dir.read input) else .error (.inputMissing input)

theorem recordAll_of_no_scope {r : Recorder} (h : r.scopes = []) (nodes : List Node) :
    r.recordAll nodes = { r with roots := r.roots ++ nodes } := by
  induction nodes generalizing r with
  | nil => simp [Recorder.recordAll]
  | cons node rest ih =>
      have hrecord : r.record node = { r with roots := r.roots ++ [node] } := by
        rw [Recorder.record, h]
      have hrest := ih (r := { r with roots := r.roots ++ [node] }) h
      rw [Recorder.recordAll] at hrest ⊢
      rw [List.foldl_cons, hrecord, hrest, List.append_assoc]
      rfl

/-- Roots that are recorded one after the other on a new recorder are what is recorded. -/
theorem ofRecorder_recordAll (config : Config) (roots : List Node) :
    Document.ofRecorder config (({} : Recorder).recordAll roots) = .ok ⟨config, roots⟩ := by
  rw [recordAll_of_no_scope rfl]
  rfl

/-- The notes about recording roots. -/
def recordingNotes (roots : List Node) : List Note :=
  [.recordingStarted, .recordingFinished roots.length]

/-- Emitting a tree is delivering the document of its roots, if it can be loaded; otherwise the
emission ends before any file is touched. -/
theorem emitTree_inDirectory (input : String) (output : Option String) (config : Config) :
    emitTree Workspace.inDirectory input output config s =
      match treeIn s.directory input with
      | .error failure => (.error failure, s)
      | .ok roots =>
        match deliverDocument Workspace.inDirectory output ⟨config, roots⟩
          (s.note (recordingNotes roots)) with
        | (.error failure, after) => (.error failure, after)
        | (.ok bytes, after) =>
          (.ok ⟨(Document.mk config roots).nodeCount,
            (Document.mk config roots).references.length, bytes, 0⟩, after) := by
  unfold emitTree treeIn
  rw [bind_apply, has_inDirectory]
  dsimp only
  cases s.directory.has input with
  | false => rfl
  | true =>
      rw [if_pos rfl, if_pos rfl, bind_apply, bind_apply, now_inDirectory, read_inDirectory]
      dsimp only
      cases rootsOfFile input (s.directory.read input) with
      | error failure => rfl
      | ok roots =>
          dsimp only
          rw [bind_apply, log_inDirectory, ofRecorder_recordAll]
          dsimp only
          have hnotes : [.recordingStarted] ++ [.recordingFinished roots.length] =
              recordingNotes roots := rfl
          rw [bind_apply, log_inDirectory, Surroundings.note_note, hnotes, bind_apply]
          dsimp only
          generalize deliverDocument Workspace.inDirectory output ⟨config, roots⟩ _ = result
          obtain ⟨delivered, after⟩ := result
          cases delivered <;> rfl

section

variable {input : String} {output : Option String} {config : Config} {roots : List Node}
  {failure : Failure} {notes : List Note} {after : Surroundings}

/-- A tree that cannot be loaded ends the emission before any file is touched. -/
theorem emitTree_of_treeIn_error (htree : treeIn s.directory input = .error failure) :
    emitTree Workspace.inDirectory input output config (s.note notes) =
      (.error failure, s.note notes) := by
  rw [emitTree_inDirectory, Surroundings.directory_note, htree]

theorem emitTree_of_undelivered (htree : treeIn s.directory input = .ok roots)
    (hdeliver : deliverDocument Workspace.inDirectory output ⟨config, roots⟩
      ((s.note notes).note (recordingNotes roots)) = (.error failure, after)) :
    emitTree Workspace.inDirectory input output config (s.note notes) =
      (.error failure, after) := by
  rw [emitTree_inDirectory, Surroundings.directory_note, htree]
  dsimp only
  rw [hdeliver]

theorem emitTree_of_delivered {bytes : Nat} (htree : treeIn s.directory input = .ok roots)
    (hdeliver : deliverDocument Workspace.inDirectory output ⟨config, roots⟩
      ((s.note notes).note (recordingNotes roots)) = (.ok bytes, after)) :
    emitTree Workspace.inDirectory input output config (s.note notes) =
      (.ok ⟨(Document.mk config roots).nodeCount,
        (Document.mk config roots).references.length, bytes, 0⟩, after) := by
  rw [emitTree_inDirectory, Surroundings.directory_note, htree]
  dsimp only
  rw [hdeliver]

end

/-- A file that cannot be made is the end of the delivery. -/
theorem deliverDocument_of_write_error (document : Document) {e : FileError}
    (hwrite : s.directory.write path ByteArray.empty = .error e) :
    deliverDocument Workspace.inDirectory (some path) document s =
      (.error (.outputRefused path e), s) := by
  unfold deliverDocument prepare
  dsimp only
  rw [bind_apply, bind_apply, write_inDirectory_error hwrite]
  rfl

/-- What becomes of a document once its output is ready. -/
theorem deliverDocument_of_prepare {output : Option String} {document : Document}
    {ready : Surroundings} (h : prepare Workspace.inDirectory output s = (.ok (), ready)) :
    deliverDocument Workspace.inDirectory output document s =
      match document.render with
      | .error fault =>
        (.error (.script fault), ready.note [.referencesHoisted document.references.length])
      | .ok script =>
        match deliver Workspace.inDirectory output script
          (ready.note [.referencesHoisted document.references.length]) with
        | (.error e, after) => (.error (.undelivered e), after)
        | (.ok (), after) =>
          (.ok script.utf8ByteSize, after.note [.scriptWritten script.utf8ByteSize]) := by
  unfold deliverDocument
  rw [bind_apply, h]
  dsimp only
  rw [bind_apply, log_inDirectory]
  cases document.render with
  | error fault => rfl
  | ok script =>
      dsimp only
      rw [bind_apply]
      generalize deliver Workspace.inDirectory output script _ = result
      obtain ⟨delivered, after⟩ := result
      cases delivered <;> rfl

theorem prepare_of_write_ok {emptied : Directory}
    (h : s.directory.write path ByteArray.empty = .ok emptied) :
    prepare Workspace.inDirectory (some path) s = (.ok (), { s with directory := emptied }) := by
  unfold prepare
  dsimp only
  rw [bind_apply, write_inDirectory_ok h]
  rfl

/-- A document that cannot be rendered has its file emptied all the same. -/
theorem deliverDocument_of_render_error {document : Document} {emptied : Directory} {fault : Fault}
    (hwrite : s.directory.write path ByteArray.empty = .ok emptied)
    (hrender : document.render = .error fault) :
    deliverDocument Workspace.inDirectory (some path) document s =
      (.error (.script fault),
        { s with directory := emptied }.note [.referencesHoisted document.references.length]) := by
  rw [deliverDocument_of_prepare (prepare_of_write_ok hwrite), hrender]

/-! ## Whole emissions -/

/-- What is left of an emission once its tree has been emitted or not. -/
def endEmission (color verbose : Bool) (options : EmitOptions) :
    Except Failure Report.Summary × Surroundings → Nat × Surroundings
  | (.error failure, after) =>
    (1, { after with told := after.told ++ Report.error color failure.line })
  | (.ok summary, after) =>
    (0, { after with
      told := after.told ++ emitReport color verbose options.input options.output summary })

section

variable {env : Environment} {color verbose : Bool} {options : EmitOptions}

/-- Arguments that make an emission run it. -/
theorem run_of_parse_emit {args : List String}
    (hargs : Invocation.parse args = .ok ⟨verbose, .emit options⟩) :
    run Workspace.inDirectory env color args s =
      emit Workspace.inDirectory env color verbose options s := by
  unfold run
  rw [hargs]
  rfl

/-- An emission without a configuration ends with the causes of that, and nothing was done. -/
theorem emit_of_configIn_error {failure : Failure}
    (hconfig : configIn s.directory env options.config = .error failure) :
    emit Workspace.inDirectory env color verbose options s =
      (1, { s with told := s.told ++ report failure.causes }) := by
  unfold emit
  rw [bind_apply, loadConfig_eq_configIn, hconfig]
  rfl

/-- An emission with a configuration emits the tree under it. -/
theorem emit_of_configIn_ok {config : Config}
    (hconfig : configIn s.directory env options.config = .ok config) :
    emit Workspace.inDirectory env color verbose options s =
      endEmission color verbose options (emitTree Workspace.inDirectory options.input
        options.output (options.overrides.apply config) (s.note (ignoredNotes env))) := by
  unfold emit
  rw [bind_apply, loadConfig_eq_configIn, hconfig]
  dsimp only
  rw [bind_apply]
  generalize emitTree Workspace.inDirectory options.input options.output
    (options.overrides.apply config) (s.note (ignoredNotes env)) = result
  obtain ⟨emitted, after⟩ := result
  cases emitted <;> rfl

end

end

end CommandLine
end SolidScript
