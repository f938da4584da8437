import SolidScript.Proofs.CommandLine.Options
import SolidScript.Proofs.CommandLine.Steps
import SolidScript.Proofs.Script.Top
import SolidScript.Proofs.Tree.Preorder

/-!
# Completed emissions

An emission whose output can be written completes exactly when there is a script to write: the
configuration is loaded, the tree is loaded, and the document of its roots is rendered under the
configuration with the settings of the command line (`HasScript`).  The script goes to its output as
it is, and what is told beside it has the figures of the tree and the script when it is told at
length (`run_emit_completes_iff`).

An emission that fails on its way has printed nothing, since printing a script is the last thing
that can fail.  A report at length is followed through its colours down to the three lines with the
figures (`exists_emitted_eq`).
-/

namespace SolidScript

mutual
/-- A tree has as many nodes as stand in it. -/
theorem Node.length_preorder (node : Node) : node.preorder.length = node.count := by
  cases node with
  | composite frame nodes =>
      rw [Node.preorder, Node.count, List.length_cons, Node.length_preorderAll nodes, Nat.add_comm]
  | primitive shape params => rfl
  | call name params => rfl
  | reference ref => rfl
  | comment text => rfl

theorem Node.length_preorderAll (nodes : List Node) :
    (Node.preorderAll nodes).length = Node.countAll nodes := by
  cases nodes with
  | nil => rfl
  | cons node rest =>
      rw [Node.preorderAll, Node.countAll, List.length_append, Node.length_preorder node,
        Node.length_preorderAll rest]
end

namespace CommandLine

/-! ## What is loaded -/

variable {s : Surroundings}

/-- A tree can only be loaded from a file that is there. -/
theorem treeIn_eq_ok_iff {dir : Directory} {input : String} {roots : List Node} :
    treeIn dir input = .ok roots ↔ rootsOfFile input (dir.read input) = .ok roots := by
  unfold treeIn
  split
  · exact Iff.rfl
  · rename_i hmissing
    constructor
    · intro h
      cases h
    · intro h
      exfalso
      cases hread : dir.read input with
      | error e =>
          rw [hread] at h
          cases h
      | ok bytes =>
          apply hmissing
          rw [Directory.has, hread]

/-- There is a script to emit: configuration and tree are loaded, and the roots of the tree are
rendered with the settings of the command line in place of those of the configuration. -/
def HasScript (dir : Directory) (env : Environment) (options : EmitOptions) (roots : List Node)
    (script : String) : Prop :=
  ∃ config, configIn dir env options.config = .ok config ∧
    rootsOfFile options.input (dir.read options.input) = .ok roots ∧
    (Document.mk (options.overrides.apply config) roots).render = .ok script

/-- There is only one script to emit. -/
theorem HasScript.unique {dir : Directory} {env : Environment} {options : EmitOptions}
    {roots roots' : List Node} {script script' : String}
    (h : HasScript dir env options roots script) (h' : HasScript dir env options roots' script') :
    roots = roots' ∧ script = script' := by
  obtain ⟨config, hconfig, hroots, hrender⟩ := h
  obtain ⟨config', hconfig', hroots', hrender'⟩ := h'
  cases hconfig.symm.trans hconfig'
  cases hroots.symm.trans hroots'
  cases hrender.symm.trans hrender'
  exact ⟨rfl, rfl⟩

/-! ## Where the script goes -/

/-- The output can be written to: if it is a file, there is a place for it. -/
def CanDeliver (dir : Directory) (output : Option String) : Prop :=
  ∀ out, output = some out → dir.HasPlace out

/-- The script was delivered and nothing else was done: it was printed, or written to its file. -/
def Delivered (before : Surroundings) (output : Option String) (script : String)
    (after : Surroundings) : Prop :=
  after.told = before.told ∧
    match output with
    | none => after.printed = before.printed ++ script ∧ after.directory = before.directory
    | some out => after.printed = before.printed ∧
        before.directory.write out script.toUTF8 = .ok after.directory

/-- An output that can be written to is made ready, and nothing is printed or told. -/
theorem exists_prepare {output : Option String} (hout : CanDeliver s.directory output) :
    ∃ ready, prepare Workspace.inDirectory output s = (.ok (), ready) ∧
      ready.printed = s.printed ∧
      ∀ script notes, ∃ after,
        deliver Workspace.inDirectory output script (ready.note notes) = (.ok (), after) ∧
          Delivered s output script after := by
  cases output with
  | none => exact ⟨s, rfl, rfl, fun _ _ => ⟨_, rfl, rfl, rfl, rfl⟩⟩
  | some out =>
      obtain ⟨emptied, hemptied⟩ := (hout out rfl).exists_write ByteArray.empty
      refine ⟨_, prepare_of_write_ok hemptied, rfl, fun script notes => ?_⟩
      obtain ⟨written, hwritten⟩ := (hout out rfl).exists_write script.toUTF8
      -- nothing is left of the first write after the second one
      have hsecond : emptied.write out script.toUTF8 = .ok written := by
        rw [Directory.write_write hemptied, hwritten]
      exact ⟨_, write_inDirectory_ok hsecond, rfl, rfl, hwritten⟩

theorem deliverDocument_of_render_ok {output : Option String} {document : Document}
    {script : String} (hout : CanDeliver s.directory output)
    (hrender : document.render = .ok script) :
    ∃ after, deliverDocument Workspace.inDirectory output document s =
        (.ok script.utf8ByteSize, after) ∧
      Delivered s output script after := by
  obtain ⟨ready, hprepare, -, hdeliver⟩ := exists_prepare hout
  obtain ⟨after, hafter, hdelivered⟩ :=
    hdeliver script [.referencesHoisted document.references.length]
  refine ⟨after.note [.scriptWritten script.utf8ByteSize], ?_, hdelivered⟩
  rw [deliverDocument_of_prepare hprepare, hrender]
  dsimp only
  rw [hafter]

theorem deliverDocument_of_render_fault {output : Option String} {document : Document}
    {fault : Fault} (hout : CanDeliver s.directory output)
    (hrender : document.render = .error fault) :
    ∃ after, deliverDocument Workspace.inDirectory output document s =
        (.error (.script fault), after) ∧ after.printed = s.printed := by
  obtain ⟨ready, hprepare, hprinted, -⟩ := exists_prepare hout
  refine ⟨ready.note [.referencesHoisted document.references.length], ?_, hprinted⟩
  rw [deliverDocument_of_prepare hprepare, hrender]

/-! ## Reports -/

/-- The line of a figure, the label in grey and the figure in cyan where there are colours. -/
def figureLine (color : Bool) (label : String) (n : Nat) : String :=
  if color then "  \x1b[90m" ++ label ++ "\x1b[0m \x1b[36m" ++ toString n ++ "\x1b[0m\n"
  else "  " ++ label ++ " " ++ toString n ++ "\n"

/-- The lines of a report that tell how many nodes there are in the tree, and how many references
and bytes in the script. -/
def figureLines (color : Bool) (summary : Report.Summary) : String :=
  figureLine color "Nodes:" summary.nodes ++ figureLine color "References:" summary.references ++
    figureLine color "Bytes:" summary.bytes

/-- Nothing is started again in a text without control sequences. -/
theorem startAgain_eq_self {start text : List Char} (h : '\x1b' ∉ text) :
    Report.startAgain start text = text := by
  induction text with
  | nil => rfl
  | cons c rest ih =>
      rw [List.mem_cons, not_or] at h
      rw [Report.startAgain, ih h.2]
      rintro tail rfl -
      exact h.1 rfl

theorem paint_eq {text : String} (h : '\x1b' ∉ text.toList) (color : Bool) (ink : Report.Ink) :
    Report.paint color ink text =
      if color then "\x1b[" ++ ink.codes ++ "m" ++ text ++ "\x1b[0m" else text := by
  rw [Report.paint, startAgain_eq_self h, String.ofList_toList]
  rfl

theorem figure_eq_figureLine (color : Bool) {label : String} (h : '\x1b' ∉ label.toList) (n : Nat) :
    Report.figure color label .cyan (toString n) = figureLine color label n := by
  have hdigits : '\x1b' ∉ (toString n).toList := by
    intro hmem
    rw [Nat.toString_eq_repr, Nat.repr, String.toList_ofList] at hmem
    have hdigit := Nat.isDigit_of_mem_toDigits (by decide) (by decide) hmem
    revert hdigit
    decide
  rw [Report.figure, paint_eq h, paint_eq hdigits, figureLine]
  cases color with
  | false => simp
  | true =>
      rw [← String.toList_inj]
      simp [Report.Ink.codes]

/-- A report at length tells the figures. -/
theorem exists_emitted_eq (color : Bool) (input output : String) (summary : Report.Summary) :
    ∃ heading ending, Report.emitted color input output summary =
      heading ++ figureLines color summary ++ ending := by
  have hlabels : '\x1b' ∉ "Nodes:".toList ∧ '\x1b' ∉ "References:".toList ∧
      '\x1b' ∉ "Bytes:".toList := by decide
  have hlines : figureLines color summary =
      Report.figure color "Nodes:" .cyan (toString summary.nodes) ++
        Report.figure color "References:" .cyan (toString summary.references) ++
        Report.figure color "Bytes:" .cyan (toString summary.bytes) :=
    congrArg₂ (· ++ ·)
      (congrArg₂ (· ++ ·) (figure_eq_figureLine color hlabels.1 summary.nodes).symm
        (figure_eq_figureLine color hlabels.2.1 summary.references).symm)
      (figure_eq_figureLine color hlabels.2.2 summary.bytes).symm
  rw [hlines]
  refine ⟨"\n" ++ Report.rule color ++
    Report.paint color .bold "Emitted:" ++ " " ++ Report.paint color .cyan input ++ " " ++
      Report.paint color .grey "→" ++ " " ++ Report.paint color .cyan output ++ "\n" ++
    Report.rule color, Report.figure color "Time:" .yellow (Report.duration summary.micros) ++
    Report.rule color, ?_⟩
  unfold Report.emitted
  simp only [String.append_assoc]

/-- What is told of an emission: a report at length tells the figures of the tree and the script,
and else there is one line about the file of the script, if there is one. -/
def Tells (color verbose : Bool) (options : EmitOptions) (summary : Report.Summary)
    (text : String) : Prop :=
  (verbose = true → ∃ heading ending, text = heading ++ figureLines color summary ++ ending) ∧
    (verbose = false → text = match options.output with
      | none => ""
      | some out => Report.success color ("Emitted " ++ options.input ++ " -> " ++ out))

theorem tells_emitReport (color verbose : Bool) (options : EmitOptions)
    (summary : Report.Summary) :
    Tells color verbose options summary
      (emitReport color verbose options.input options.output summary) := by
  constructor
  · rintro rfl
    exact exists_emitted_eq color options.input (options.output.getD "stdout") summary
  · rintro rfl
    cases options.output <;> rfl

/-! ## Whole runs -/

/-- The figures of an emission: what there is in the tree and in the script. -/
def figures (roots : List Node) (script : String) : Report.Summary where
  nodes := (Node.preorderAll roots).length
  references := (Script.topReferenceLines script).length
  bytes := script.toUTF8.size
  micros := 0

section

variable {env : Environment} {options : EmitOptions} {roots : List Node} {script : String}

/-- With a script to emit, all that is left to do is to deliver it and to tell of it. -/
theorem emit_of_hasScript (color verbose : Bool) (hout : CanDeliver s.directory options.output)
    (hscript : HasScript s.directory env options roots script) :
    ∃ delivered, Delivered s options.output script delivered ∧
      emit Workspace.inDirectory env color verbose options s =
        (0, { delivered with
          told := delivered.told ++
            emitReport color verbose options.input options.output (figures roots script) }) := by
  obtain ⟨config, hconfig, hroots, hrender⟩ := hscript
  obtain ⟨after, hdeliver, hafter⟩ := deliverDocument_of_render_ok
    (s := (s.note (ignoredNotes env)).note (recordingNotes roots)) hout hrender
  have hfigures : figures roots script =
      ⟨(Document.mk (options.overrides.apply config) roots).nodeCount,
        (Document.mk (options.overrides.apply config) roots).references.length,
        script.utf8ByteSize, 0⟩ := by
    rw [figures, Script.topReferenceLines_render hrender, List.length_map,
      Node.length_preorderAll]
    rfl
  refine ⟨after, hafter, ?_⟩
  rw [emit_of_configIn_ok hconfig, emitTree_of_delivered (treeIn_eq_ok_iff.mpr hroots) hdeliver,
    hfigures]
  rfl

/-- Without a script to emit, the run ends with code 1 and has printed nothing. -/
theorem emit_of_no_script (color verbose : Bool) (hout : CanDeliver s.directory options.output)
    (hscript : ∀ roots script, ¬ HasScript s.directory env options roots script) :
    ∃ after, emit Workspace.inDirectory env color verbose options s = (1, after) ∧
      after.printed = s.printed := by
  -- the run ends at the first of the configuration, the tree and the script that cannot be had
  cases hconfig : configIn s.directory env options.config with
  | error failure => exact ⟨_, emit_of_configIn_error hconfig, rfl⟩
  | ok config =>
      rw [emit_of_configIn_ok hconfig]
      cases htree : treeIn s.directory options.input with
      | error failure =>
          rw [emitTree_of_treeIn_error htree]
          exact ⟨_, rfl, rfl⟩
      | ok roots =>
          cases hrender : (Document.mk (options.overrides.apply config) roots).render with
          | ok script =>
              exact absurd ⟨config, hconfig, treeIn_eq_ok_iff.mp htree, hrender⟩
                (hscript roots script)
          | error fault =>
              obtain ⟨after, hdeliver, hafter⟩ := deliverDocument_of_render_fault
                (s := (s.note (ignoredNotes env)).note (recordingNotes roots)) hout hrender
              rw [emitTree_of_undelivered htree hdeliver]
              exact ⟨_, rfl, hafter⟩

/-- An emission whose output can be written ends with code 0 exactly when there is a script.  The
script is then all that its output holds, be it a file or the standard output, and no report is
mixed into it.  A report at length tells the figures of the loaded tree and of the script.  An
emission that fails prints nothing.  What the options say is what the arguments give. -/
theorem run_emit_completes_iff (s : Surroundings) (env : Environment) (color verbose : Bool)
    (args : List String) (options : EmitOptions)
    (hargs : Invocation.parse args = .ok ⟨verbose, .emit options⟩)
    (hout : CanDeliver s.directory options.output) :
    ((run Workspace.inDirectory env color args s).1 = 0 ↔
        ∃ roots script, HasScript s.directory env options roots script) ∧
      (∀ roots script, HasScript s.directory env options roots script →
        (match options.output with
          | none =>
            (run Workspace.inDirectory env color args s).2.printed = s.printed ++ script ∧
              (run Workspace.inDirectory env color args s).2.directory = s.directory
          | some out =>
            (run Workspace.inDirectory env color args s).2.printed = s.printed ∧
              s.directory.write out script.toUTF8 =
                .ok (run Workspace.inDirectory env color args s).2.directory ∧
              (run Workspace.inDirectory env color args s).2.directory.read out =
                .ok script.toUTF8) ∧
          ∃ text, (run Workspace.inDirectory env color args s).2.told = s.told ++ text ∧
            Tells color verbose options (figures roots script) text) ∧
      ((run Workspace.inDirectory env color args s).1 ≠ 0 →
        (run Workspace.inDirectory env color args s).1 = 1 ∧
          (run Workspace.inDirectory env color args s).2.printed = s.printed) ∧
      OptionsGiven args verbose options := by
  rw [run_of_parse_emit hargs]
  by_cases hscript : ∃ roots script, HasScript s.directory env options roots script
  · obtain ⟨roots, script, hscript⟩ := hscript
    obtain ⟨delivered, ⟨htold, hdelivered⟩, hemit⟩ := emit_of_hasScript color verbose hout hscript
    rw [hemit]
    refine ⟨⟨fun _ => ⟨roots, script, hscript⟩, fun _ => rfl⟩, ?_, fun h => absurd rfl h,
      optionsGiven_of_parse hargs⟩
    intro roots' script' hscript'
    obtain ⟨rfl, rfl⟩ := hscript.unique hscript'
    refine ⟨?_, _, by rw [htold], tells_emitReport color verbose options _⟩
    cases houtput : options.output with
    | none =>
        rw [houtput] at hdelivered
        exact hdelivered
    | some out =>
        rw [houtput] at hdelivered
        exact ⟨hdelivered.1, hdelivered.2,
          Directory.read_written (hout out houtput) hdelivered.2⟩
  · have hnone : ∀ roots script, ¬ HasScript s.directory env options roots script :=
      fun roots script h => hscript ⟨roots, script, h⟩
    obtain ⟨after, hemit, hprinted⟩ := emit_of_no_script color verbose hout hnone
    rw [hemit]
    refine ⟨⟨fun h => (by cases h), fun h => absurd h hscript⟩, ?_, fun _ => ⟨rfl, hprinted⟩,
      optionsGiven_of_parse hargs⟩
    exact fun roots script h => absurd h (hnone roots script)

end

/-- A tree of three nodes, one of which refers to another file, and a fresh directory. -/
def beforeVerboseEmission : Surroundings where
  directory :=
    { files := [(["tree.json"],
        ("[\x7b\"combinator\": \x7b\"op\": \"union\", \"children\": [" ++
          "\x7b\"reference\": \x7b\"kind\": \"use\", \"path\": \"lib.scad\"\x7d\x7d, " ++
          "\x7b\"comment\": \"hub\"\x7d]\x7d\x7d]").toUTF8)]
      directories := [["build"]] }

def verboseEmission : List String := ["-v", "emit", "tree.json", "-o", "build/out.scad"]

def verboseOptions : EmitOptions := { input := "tree.json", output := some "build/out.scad" }

def hubScript : String := "use <lib.scad>\n\nunion() \x7b\n  // hub\n\x7d\n"

/-- What is told of the emission. -/
def hubReport : String :=
  "\n━━━━━━━━━━━━━━━━━━━━━━━━━━━━━━━━━━━━━━━━━━━━━━━━━━━━━━━━━━━━\n" ++
  "Emitted: tree.json → build/out.scad\n" ++
  "━━━━━━━━━━━━━━━━━━━━━━━━━━━━━━━━━━━━━━━━━━━━━━━━━━━━━━━━━━━━\n" ++
  "  Nodes: 3\n" ++
  "  References: 1\n" ++
  "  Bytes: 37\n" ++
  "  Time: 0µs\n" ++
  "━━━━━━━━━━━━━━━━━━━━━━━━━━━━━━━━━━━━━━━━━━━━━━━━━━━━━━━━━━━━\n"

theorem canDeliver_beforeVerboseEmission :
    CanDeliver beforeVerboseEmission.directory verboseOptions.output := by
  intro out hout
  cases hout
  exact ⟨["build", "out.scad"], by decide +kernel⟩

theorem hasScript_beforeVerboseEmission :
    ∃ roots, HasScript beforeVerboseEmission.directory [] verboseOptions roots hubScript ∧
      figures roots hubScript = ⟨3, 1, 37, 0⟩ := by
  have hrender : ((rootsOfFile "tree.json"
      (beforeVerboseEmission.directory.read "tree.json")).toOption.bind fun roots =>
        (Document.mk {} roots).render.toOption.map fun script =>
          (script, figures roots script)) = some (hubScript, ⟨3, 1, 37, 0⟩) := by
    decide +kernel
  have hconfig : configIn beforeVerboseEmission.directory [] none = .ok {} := by
    decide +kernel
  obtain ⟨roots, hroots, hmapped⟩ := Option.bind_eq_some_iff.mp hrender
  obtain ⟨script, hscript, heq⟩ := Option.map_eq_some_iff.mp hmapped
  obtain ⟨rfl, hfigures⟩ := Prod.mk.inj heq
  have htree := toOption_eq_some_iff.mp hroots
  exact ⟨roots, ⟨{}, hconfig, htree, toOption_eq_some_iff.mp hscript⟩, hfigures⟩

theorem run_verboseEmission :
    Invocation.parse verboseEmission = .ok ⟨true, .emit verboseOptions⟩ ∧
      CanDeliver beforeVerboseEmission.directory verboseOptions.output ∧
      (run Workspace.inDirectory [] false verboseEmission beforeVerboseEmission).1 = 0 ∧
      (run Workspace.inDirectory [] false verboseEmission beforeVerboseEmission).2.told =
        hubReport ∧
      (∃ heading ending,
        (run Workspace.inDirectory [] false verboseEmission beforeVerboseEmission).2.told =
          heading ++ "  Nodes: 3\n  References: 1\n  Bytes: 37\n" ++ ending) ∧
      (run Workspace.inDirectory [] false verboseEmission beforeVerboseEmission).2.printed = "" ∧
      (run Workspace.inDirectory [] false verboseEmission beforeVerboseEmission).2.directory.read
        "build/out.scad" = .ok hubScript.toUTF8 := by
  have hargs : Invocation.parse verboseEmission = .ok ⟨true, .emit verboseOptions⟩ := by
    decide +kernel
  have hreport : (run Workspace.inDirectory [] false verboseEmission
      beforeVerboseEmission).2.told = hubReport := by
    decide +kernel
  obtain ⟨roots, hscript, hfigures⟩ := hasScript_beforeVerboseEmission
  obtain ⟨hcode, hcompleted, -⟩ := run_emit_completes_iff beforeVerboseEmission [] false true
    verboseEmission verboseOptions hargs canDeliver_beforeVerboseEmission
  obtain ⟨⟨hprinted, -, hread⟩, text, htold, htells⟩ := hcompleted roots hubScript hscript
  rw [hfigures] at htells
  obtain ⟨heading, ending, rfl⟩ := htells.1 rfl
  have hlines : figureLines false ⟨3, 1, 37, 0⟩ =
      "  Nodes: 3\n  References: 1\n  Bytes: 37\n" := by decide +kernel
  rw [hlines] at htold
  exact ⟨hargs, canDeliver_beforeVerboseEmission, hcode.mpr ⟨roots, hubScript, hscript⟩, hreport,
    ⟨heading, ending, htold.trans String.empty_append⟩, hprinted, hread⟩

end CommandLine
end SolidScript
