import SolidScript.Proofs.CommandLine.Steps

/-!
# What a failed emission leaves behind

The file for a script is emptied after the tree has been loaded and before the script is rendered.
So a tree that cannot be loaded leaves every file as it was, and a tree that can be loaded but not
rendered leaves an empty file (`run_emit_keeps_output_iff`).
-/

namespace SolidScript
namespace CommandLine

/-- The tree at the path cannot be loaded, or the loaded tree cannot be rendered. -/
def HasNoScript (dir : Directory) (input : String) (config : Config) : Prop :=
  ∀ roots script, treeIn dir input = .ok roots → (Document.mk config roots).render ≠ .ok script

/-- An emission that fails because its tree cannot be loaded or rendered leaves the file for the
script as it was exactly when the tree cannot be loaded, or the file cannot be made, or the file was
empty before; in every other case it leaves an empty file. -/
theorem run_emit_keeps_output_iff (s : Surroundings) (env : Environment) (color verbose : Bool)
    (args : List String) (options : EmitOptions) (out : String) (config : Config)
    (hargs : Invocation.parse args = .ok ⟨verbose, .emit options⟩)
    (hout : options.output = some out)
    (hconfig : (loadConfig Workspace.inDirectory env options.config s).1 = .ok config)
    (hscript : HasNoScript s.directory options.input (options.overrides.apply config)) :
    (run Workspace.inDirectory env color args s).1 = 1 ∧
      ((run Workspace.inDirectory env color args s).2.directory.read out = s.directory.read out ∨
        (run Workspace.inDirectory env color args s).2.directory.read out =
          .ok ByteArray.empty) ∧
      ((run Workspace.inDirectory env color args s).2.directory.read out =
          s.directory.read out ↔
        (∀ roots, treeIn s.directory options.input ≠ .ok roots) ∨
          (∀ emptied, s.directory.write out ByteArray.empty ≠ .ok emptied) ∨
          s.directory.read out = .ok ByteArray.empty) := by
  have hload : configIn s.directory env options.config = .ok config := by
    rwa [loadConfig_eq_configIn] at hconfig
  rw [run_of_parse_emit hargs, emit_of_configIn_ok hload]
  cases htree : treeIn s.directory options.input with
  | error failure =>
      rw [emitTree_of_treeIn_error htree]
      exact ⟨rfl, .inl rfl, fun _ => .inl fun _ h => (by cases h), fun _ => rfl⟩
  | ok roots =>
      cases hwrite : s.directory.write out ByteArray.empty with
      | error e =>
          rw [hout, emitTree_of_undelivered htree (deliverDocument_of_write_error _ hwrite)]
          exact ⟨rfl, .inl rfl, fun _ => .inr (.inl fun _ h => (by cases h)), fun _ => rfl⟩
      | ok emptied =>
          cases hrender : (Document.mk (options.overrides.apply config) roots).render with
          | ok script => exact absurd hrender (hscript roots script htree)
          | error fault =>
              rw [hout, emitTree_of_undelivered htree
                (deliverDocument_of_render_error hwrite hrender)]
              -- the file has been emptied, whatever it held before
              have hempty : emptied.read out = .ok ByteArray.empty := by
                rcases Directory.read_of_write hwrite with hread | ⟨rfl, hread⟩
                · exact hread
                · exact hread
              refine ⟨rfl, .inr hempty, ?_⟩
              change emptied.read out = _ ↔ _
              rw [hempty]
              constructor
              · exact fun h => .inr (.inr h.symm)
              · rintro (h | h | h)
                · exact absurd rfl (h roots)
                · exact absurd rfl (h emptied)
                · exact h.symm

/-- A tree that calls a module by a reserved word, beside the script of an earlier emission. -/
def afterEarlierEmission : Surroundings where
  directory := Directory.ofFiles [
    ("tree.json",
      "[\x7b\"module_call\": \x7b\"name\": \"for\", \"params\": \x7b\x7d\x7d\x7d]".toUTF8),
    ("out.scad", "sphere(r = 1);\n".toUTF8)]

def emission : List String := ["emit", "tree.json", "-o", "out.scad"]

theorem hasNoScript_afterEarlierEmission :
    HasNoScript afterEarlierEmission.directory "tree.json" {} := by
  have hnone : (match treeIn afterEarlierEmission.directory "tree.json" with
      | .ok roots => (Document.mk {} roots).render.toOption
      | .error _ => none) = none := by
    decide +kernel
  intro roots script hroots hrender
  rw [hroots] at hnone
  dsimp only at hnone
  rw [hrender] at hnone
  cases hnone

theorem run_emission_afterEarlierEmission :
    Invocation.parse emission =
        .ok ⟨false, .emit { input := "tree.json", output := some "out.scad" }⟩ ∧
      HasNoScript afterEarlierEmission.directory "tree.json" {} ∧
      (run Workspace.inDirectory [] false emission afterEarlierEmission).1 = 1 ∧
      ((run Workspace.inDirectory [] false emission afterEarlierEmission).2.directory.read
          "out.scad" = afterEarlierEmission.directory.read "out.scad" ↔
        (∀ roots, treeIn afterEarlierEmission.directory "tree.json" ≠ .ok roots) ∨
          (∀ emptied, afterEarlierEmission.directory.write "out.scad" ByteArray.empty ≠
            .ok emptied) ∨
          afterEarlierEmission.directory.read "out.scad" = .ok ByteArray.empty) := by
  have hargs : Invocation.parse emission =
      .ok ⟨false, .emit { input := "tree.json", output := some "out.scad" }⟩ := by
    decide +kernel
  have hconfig : (loadConfig Workspace.inDirectory [] none afterEarlierEmission).1 =
      .ok {} := by
    decide +kernel
  obtain ⟨hcode, -, hkept⟩ := run_emit_keeps_output_iff afterEarlierEmission [] false false
    emission _ "out.scad" {} hargs rfl hconfig hasNoScript_afterEarlierEmission
  exact ⟨hargs, hasNoScript_afterEarlierEmission, hcode, hkept⟩

/-- The emission fails because of the reserved word, and the earlier script is gone. -/
theorem run_emission_loses_earlier_script :
    (run Workspace.inDirectory [] false emission afterEarlierEmission).1 = 1 ∧
      (run Workspace.inDirectory [] false emission afterEarlierEmission).2.told =
        Report.error false (Failure.script (.invalidIdentifier "for" "for")).line ∧
      afterEarlierEmission.directory.read "out.scad" = .ok "sphere(r = 1);\n".toUTF8 ∧
      (run Workspace.inDirectory [] false emission afterEarlierEmission).2.directory.read
        "out.scad" = .ok ByteArray.empty := by
  decide +kernel

end CommandLine
end SolidScript
