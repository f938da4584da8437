import SolidScript.Config.Toml
import SolidScript.Proofs.CommandLine.Log
import SolidScript.Proofs.CommandLine.Options

/-!
# Where settings come from

The configuration of an emission is put together in three steps: the file gives a configuration, the
environment is laid over it, and the command line is laid over that.  Here each setting is looked at
on its own.  A step leaves a setting as it was or replaces it, and which of the two it does depends
on what the step says of this setting and on nothing else (`get?_apply`, `get?_withEnvironment`,
`get?_of_ofFile`), so that the first source that gives a setting decides it (`get?_effectiveIn`).

A variable that gives no setting leaves its mark in the log and nowhere else
(`sameButForNotes_of_framed`).
-/

namespace SolidScript

/-- The environment without a variable. -/
def Environment.without (env : Environment) (name : String) : Environment :=
  env.filter (·.1 != name)

theorem Environment.get?_without_self (env : Environment) (name : String) :
    (env.without name).get? name = none := by
  have hnone : (env.without name).find? (·.1 == name) = none := by
    rw [List.find?_eq_none]
    intro entry hentry
    simpa [without] using (List.mem_filter.mp hentry).2
  rw [get?, hnone]
  rfl

theorem Environment.get?_without_of_ne (env : Environment) {name other : String}
    (h : other ≠ name) : (env.without name).get? other = env.get? other := by
  rw [get?, get?, without, List.find?_filter]
  congr 2
  funext entry
  by_cases hentry : entry.1 = other
  · simp [hentry, h]
  · simp [hentry]

namespace Config

/-- The settings of a configuration. -/
inductive Setting where
  | indent | style | fa | fs | fn
  deriving DecidableEq, Repr

namespace Setting

/-- What a setting can be. -/
@[reducible]
def Given : Setting → Type
  | indent => Nat
  | style => TransformStyle
  | fa => Number
  | fs => Number
  | fn => Number

/-- The setting in a configuration, which may be without it. -/
def get? : (x : Setting) → Config → Option x.Given
  | indent, config => some config.indent
  | style, config => some config.style
  | fa, config => config.resolution.fa
  | fs, config => config.resolution.fs
  | fn, config => config.resolution.fn

/-- The setting where no source gives it. -/
def preset : (x : Setting) → Option x.Given
  | indent => some 2
  | style => some .block
  | fa => none
  | fs => none
  | fn => none

/-- The variable of a setting. -/
def variableName : Setting → String
  | indent => "SCADFORGE_INDENT"
  | style => "SCADFORGE_TRANSFORM_STYLE"
  | fa => "SCADFORGE_FA"
  | fs => "SCADFORGE_FS"
  | fn => "SCADFORGE_FN"

/-- The setting that a text without blanks at its ends stands for. -/
def parse? : (x : Setting) → String → Option x.Given
  | indent, text => parseNatural? (2 ^ 64) text
  | style, text => (TransformStyle.parse text).toOption
  | fa, text => Number.parse? text
  | fs, text => Number.parse? text
  | fn, text => Number.parse? text

/-- The setting that the environment gives. -/
def inEnvironment (x : Setting) (env : Environment) : Option x.Given :=
  (env.trimmed? x.variableName).bind x.parse?

/-- The setting that the command line gives. -/
def onCommandLine : (x : Setting) → CommandLine.Overrides → Option x.Given
  | indent, _ => none
  | style, overrides => if overrides.statementForm then some .statement else none
  | fa, overrides => overrides.fa
  | fs, overrides => overrides.fs
  | fn, overrides => overrides.fn

/-- The whole number that a value gives. -/
def naturalOfToml? : Toml.Value → Option Nat
  | .integer (.ofNat n) => some n
  | _ => none

/-- The number that a part of a value gives; the parts of an array are known by their places. -/
def partOfToml? (name : String) (place : Nat) : Toml.Value → Option Number
  | .table _ fields => (Toml.Fields.get? fields name).bind numberOfToml?
  | .array items => items[place]?.bind numberOfToml?
  | _ => none

/-- The setting that a table gives. -/
def inTable : (x : Setting) → Toml.Fields → Option x.Given
  | indent, fields => (fields.get? "indent").bind naturalOfToml?
  | style, fields => (fields.get? "transform_style").bind TransformStyle.ofToml?
  | fa, fields => (fields.get? "resolution").bind (partOfToml? "fa" 0)
  | fs, fields => (fields.get? "resolution").bind (partOfToml? "fs" 1)
  | fn, fields => (fields.get? "resolution").bind (partOfToml? "fn" 2)

/-- The setting that a file gives. -/
def inFile (x : Setting) (contents : FileContents) : Option x.Given :=
  (textOf contents).toOption.bind fun text => (Toml.parse? text).bind x.inTable

theorem variableName_injective : Function.Injective variableName := by
  intro x y h
  cases x <;> cases y <;> first | rfl | exact absurd h (by decide)

end Setting

/-- A configuration is made of its settings. -/
theorem ext_get? {config other : Config} (h : ∀ x : Setting, x.get? config = x.get? other) :
    config = other := by
  obtain ⟨indent, style, fa, fs, fn⟩ := config
  obtain ⟨indent', style', fa', fs', fn'⟩ := other
  have hindent := Option.some.inj (h .indent)
  have hstyle := Option.some.inj (h .style)
  have hfa := h .fa
  have hfs := h .fs
  have hfn := h .fn
  dsimp only [Setting.get?] at hindent hstyle hfa hfs hfn
  rw [hindent, hstyle, hfa, hfs, hfn]

/-! ## The steps -/

theorem get?_withEnvironment (config : Config) (env : Environment) (x : Setting) :
    x.get? (config.withEnvironment env) = (x.inEnvironment env).or (x.get? config) := by
  cases x with
  | indent => exact Option.or_some.symm
  | style => exact Option.or_some.symm
  | fa => rfl
  | fs => rfl
  | fn => rfl

theorem get?_apply (overrides : CommandLine.Overrides) (config : Config) (x : Setting) :
    x.get? (overrides.apply config) = (x.onCommandLine overrides).or (x.get? config) := by
  cases x with
  | indent => rfl
  | style =>
      obtain ⟨fa, fs, fn, statementForm⟩ := overrides
      cases statementForm <;> rfl
  | fa => rfl
  | fs => rfl
  | fn => rfl

/-- A value of the resolution that may be missing is there when a number is given for it. -/
theorem eq_of_field? {fields : Toml.Fields} {name : String} {found : Option Number}
    (h : Resolution.field? fields name = some found) :
    found = (fields.get? name).bind numberOfToml? := by
  unfold Resolution.field? at h
  cases hvalue : fields.get? name with
  | none =>
      rw [hvalue] at h
      cases h
      rfl
  | some v =>
      rw [hvalue] at h
      obtain ⟨x, hx, rfl⟩ := Option.map_eq_some_iff.mp h
      exact hx.symm

theorem parts_of_ofFields? {fields : Toml.Fields} {r : Resolution}
    (h : Resolution.ofFields? fields = some r) :
    r.fa = (fields.get? "fa").bind numberOfToml? ∧ r.fs = (fields.get? "fs").bind numberOfToml? ∧
      r.fn = (fields.get? "fn").bind numberOfToml? := by
  unfold Resolution.ofFields? at h
  obtain ⟨fa, hfa, h⟩ := Option.bind_eq_some_iff.mp h
  obtain ⟨fs, hfs, h⟩ := Option.bind_eq_some_iff.mp h
  obtain ⟨fn, hfn, h⟩ := Option.bind_eq_some_iff.mp h
  cases h
  exact ⟨eq_of_field? hfa, eq_of_field? hfs, eq_of_field? hfn⟩

theorem parts_of_ofItems? {items : List Toml.Value} {r : Resolution}
    (h : Resolution.ofItems? items = some r) :
    r.fa = items[0]?.bind numberOfToml? ∧ r.fs = items[1]?.bind numberOfToml? ∧
      r.fn = items[2]?.bind numberOfToml? := by
  unfold Resolution.ofItems? at h
  split at h
  · cases h
    exact ⟨rfl, rfl, rfl⟩
  · obtain ⟨fa, hfa, h⟩ := Option.bind_eq_some_iff.mp h
    cases h
    exact ⟨hfa.symm, rfl, rfl⟩
  · obtain ⟨fa, hfa, h⟩ := Option.bind_eq_some_iff.mp h
    obtain ⟨fs, hfs, h⟩ := Option.bind_eq_some_iff.mp h
    cases h
    exact ⟨hfa.symm, hfs.symm, rfl⟩
  · obtain ⟨fa, hfa, h⟩ := Option.bind_eq_some_iff.mp h
    obtain ⟨fs, hfs, h⟩ := Option.bind_eq_some_iff.mp h
    obtain ⟨fn, hfn, h⟩ := Option.bind_eq_some_iff.mp h
    cases h
    exact ⟨hfa.symm, hfs.symm, hfn.symm⟩

/-- Each part of a resolution comes from its own part of the value. -/
theorem parts_of_ofToml? {v : Toml.Value} {r : Resolution} (h : Resolution.ofToml? v = some r) :
    r.fa = Setting.partOfToml? "fa" 0 v ∧ r.fs = Setting.partOfToml? "fs" 1 v ∧
      r.fn = Setting.partOfToml? "fn" 2 v := by
  unfold Resolution.ofToml? at h
  split at h
  · exact parts_of_ofFields? h
  · exact parts_of_ofItems? h
  · cases h
    exact ⟨rfl, rfl, rfl⟩
  · cases h

/-- What a name in a table gives, if it is there. -/
def readOr {α : Type} (fields : Toml.Fields) (name : String) (read : Toml.Value → Option α)
    (preset : α) : Option α :=
  match fields.get? name with
  | none => some preset
  | some v => read v

theorem eq_of_readOr {α : Type} {fields : Toml.Fields} {name : String}
    {read : Toml.Value → Option α} {preset a : α} (h : readOr fields name read preset = some a) :
    some a = ((fields.get? name).bind read).or (some preset) := by
  unfold readOr at h
  cases hvalue : fields.get? name with
  | none =>
      rw [hvalue] at h
      exact h.symm
  | some v =>
      rw [hvalue] at h
      change read v = some a at h
      rw [Option.bind_some, h, Option.some_or]

theorem ofFields?_eq (fields : Toml.Fields) :
    ofFields? fields = (readOr fields "indent" Setting.naturalOfToml? 2).bind fun indent =>
      (readOr fields "transform_style" TransformStyle.ofToml? .block).bind fun style =>
        (readOr fields "resolution" Resolution.ofToml? {}).bind fun resolution =>
          some ⟨indent, style, resolution⟩ := by
  unfold ofFields? readOr Setting.naturalOfToml?
  generalize fields.get? "resolution" = resolution
  generalize fields.get? "transform_style" = style
  rcases fields.get? "indent" with _ | v
  · cases style <;> cases resolution <;> rfl
  · cases v with
    | integer n => cases n <;> cases style <;> cases resolution <;> rfl
    | _ => rfl

/-- Each setting of a table comes from its own part of the table, or is preset. -/
theorem get?_of_ofFields? {fields : Toml.Fields} {config : Config}
    (h : ofFields? fields = some config) (x : Setting) :
    x.get? config = (x.inTable fields).or x.preset := by
  rw [ofFields?_eq] at h
  obtain ⟨indent, hindent, h⟩ := Option.bind_eq_some_iff.mp h
  obtain ⟨style, hstyle, h⟩ := Option.bind_eq_some_iff.mp h
  obtain ⟨resolution, hresolution, h⟩ := Option.bind_eq_some_iff.mp h
  cases h
  have hparts : resolution.fa = Setting.fa.inTable fields ∧
      resolution.fs = Setting.fs.inTable fields ∧ resolution.fn = Setting.fn.inTable fields := by
    unfold readOr at hresolution
    dsimp only [Setting.inTable]
    cases hvalue : fields.get? "resolution" with
    | none =>
        rw [hvalue] at hresolution
        cases hresolution
        exact ⟨rfl, rfl, rfl⟩
    | some v =>
        rw [hvalue] at hresolution
        exact parts_of_ofToml? hresolution
  cases x with
  | indent => exact eq_of_readOr hindent
  | style => exact eq_of_readOr hstyle
  | fa => exact hparts.1.trans Option.or_none.symm
  | fs => exact hparts.2.1.trans Option.or_none.symm
  | fn => exact hparts.2.2.trans Option.or_none.symm

theorem get?_of_ofFile {path : String} {contents : FileContents} {config : Config}
    (h : ofFile path contents = .ok config) (x : Setting) :
    x.get? config = (x.inFile contents).or x.preset := by
  unfold ofFile at h
  unfold Setting.inFile
  cases htext : textOf contents with
  | error e =>
      rw [htext] at h
      cases h
  | ok text =>
      rw [htext] at h
      dsimp only at h
      cases hparse : parseToml? text with
      | none =>
          rw [hparse] at h
          cases h
      | some found =>
          rw [hparse] at h
          cases h
          obtain ⟨fields, hfields, hconfig⟩ := Option.bind_eq_some_iff.mp hparse
          change _ = ((Toml.parse? text).bind x.inTable).or x.preset
          rw [hfields]
          exact get?_of_ofFields? hconfig x

theorem get?_default (x : Setting) : x.get? {} = x.preset := by
  cases x <;> rfl

/-! ## The environment -/

/-- Environments that give the same settings have the same effect. -/
theorem withEnvironment_congr {env other : Environment}
    (h : ∀ x : Setting, x.inEnvironment env = x.inEnvironment other) (config : Config) :
    config.withEnvironment env = config.withEnvironment other := by
  apply ext_get?
  intro x
  rw [get?_withEnvironment, get?_withEnvironment, h x]

theorem withEnvironment_withEnvironment (config : Config) (env : Environment) :
    (config.withEnvironment env).withEnvironment env = config.withEnvironment env := by
  apply ext_get?
  intro x
  rw [get?_withEnvironment, get?_withEnvironment]
  cases x.inEnvironment env <;> rfl

theorem inEnvironment_congr {env other : Environment} {x : Setting}
    (h : other.get? x.variableName = env.get? x.variableName) :
    x.inEnvironment other = x.inEnvironment env := by
  rw [Setting.inEnvironment, Setting.inEnvironment, Environment.trimmed?, Environment.trimmed?, h]

/-- A variable that gives no setting can as well be missing. -/
theorem inEnvironment_without {env : Environment} {x : Setting} (h : x.inEnvironment env = none)
    (y : Setting) : y.inEnvironment (env.without x.variableName) = y.inEnvironment env := by
  by_cases hxy : y = x
  · subst hxy
    rw [h, Setting.inEnvironment, Environment.trimmed?, Environment.get?_without_self]
    rfl
  · exact inEnvironment_congr (Environment.get?_without_of_ne env fun hname =>
      hxy (Setting.variableName_injective hname))

/-- Whether a variable is ignored is seen from the settings that the environment gives. -/
theorem settingVariables_congr {env other : Environment}
    (h : ∀ x : Setting, x.inEnvironment other = x.inEnvironment env) :
    other.settingVariables = env.settingVariables := by
  have hfa : other.number? "SCADFORGE_FA" = env.number? "SCADFORGE_FA" := h .fa
  have hfs : other.number? "SCADFORGE_FS" = env.number? "SCADFORGE_FS" := h .fs
  have hfn : other.number? "SCADFORGE_FN" = env.number? "SCADFORGE_FN" := h .fn
  have hindent : other.natural? "SCADFORGE_INDENT" = env.natural? "SCADFORGE_INDENT" := h .indent
  have hstyle : other.style? "SCADFORGE_TRANSFORM_STYLE" =
      env.style? "SCADFORGE_TRANSFORM_STYLE" := h .style
  simp only [Environment.settingVariables, hfa, hfs, hfn, hindent, hstyle]

/-- Without a variable that gives no setting, all others are ignored as before. -/
theorem ignored_without {env : Environment} {x : Setting} (h : x.inEnvironment env = none) :
    (env.without x.variableName).ignored = env.ignored.filter (·.1 != x.variableName) := by
  rw [Environment.ignored, settingVariables_congr (inEnvironment_without h), Environment.ignored,
    List.filter_filterMap]
  congr 1
  funext ⟨name, _⟩
  by_cases hname : name = x.variableName
  · dsimp only
    rw [hname, Environment.get?_without_self]
    cases env.get? x.variableName <;> simp [Option.filter]
  · dsimp only
    rw [Environment.get?_without_of_ne env hname]
    cases env.get? name <;> simp [Option.filter, hname]

end Config

namespace CommandLine

open Config (Setting)

/-! ## Emissions -/

/-- What is read as the configuration of an emission, if there is a file for it. -/
def contentsIn (dir : Directory) : Option String → Option FileContents
  | some path => some (dir.read path)
  | none => if dir.has Config.defaultFile then some (dir.read Config.defaultFile) else none

/-- The file with the configuration can be loaded, if there is one. -/
def LoadsConfig (dir : Directory) (source : Option String) : Prop :=
  ∀ contents, contentsIn dir source = some contents →
    ∃ config, Config.ofFile (source.getD Config.defaultFile) contents = .ok config

/-- The configuration under which a tree is emitted. -/
def effectiveIn (dir : Directory) (env : Environment) (options : EmitOptions) :
    Except Failure Config :=
  (configIn dir env options.config).map options.overrides.apply

theorem configIn_eq_load (dir : Directory) (env : Environment) (source : Option String) :
    configIn dir env source =
      Config.load (source.getD Config.defaultFile) (contentsIn dir source) env := by
  cases source <;> rfl

/-- A setting in effect is the one that the command line gives, or else the environment, or else the
file, or else the preset one. -/
theorem get?_effectiveIn {dir : Directory} {env : Environment} {options : EmitOptions}
    {config : Config} (h : effectiveIn dir env options = .ok config) (x : Setting) :
    x.get? config = (x.onCommandLine options.overrides).or ((x.inEnvironment env).or
      (((contentsIn dir options.config).bind x.inFile).or x.preset)) := by
  obtain ⟨loaded, hload, rfl⟩ := map_eq_ok h
  rw [Config.get?_apply]
  rw [configIn_eq_load] at hload
  cases hcontents : contentsIn dir options.config with
  | none =>
      rw [hcontents] at hload
      cases hload
      rw [Config.get?_withEnvironment, Config.get?_default]
      rfl
  | some contents =>
      rw [hcontents] at hload
      obtain ⟨given, hgiven, rfl⟩ := map_eq_ok hload
      rw [Config.get?_withEnvironment, Config.get?_of_ofFile hgiven]
      rfl

theorem exists_effectiveIn {dir : Directory} {options : EmitOptions}
    (h : LoadsConfig dir options.config) (env : Environment) :
    ∃ config, effectiveIn dir env options = .ok config := by
  unfold effectiveIn
  rw [configIn_eq_load]
  cases hcontents : contentsIn dir options.config with
  | none => exact ⟨_, rfl⟩
  | some contents =>
      obtain ⟨given, hgiven⟩ := h contents hcontents
      refine ⟨options.overrides.apply (given.withEnvironment env), ?_⟩
      rw [Config.load, hgiven]
      rfl

/-- An emission under a configuration. -/
theorem run_of_effectiveIn {s : Surroundings} {env : Environment} {verbose : Bool}
    {args : List String} {options : EmitOptions} {config : Config}
    (hargs : Invocation.parse args = .ok ⟨verbose, .emit options⟩)
    (h : effectiveIn s.directory env options = .ok config) (color : Bool) :
    run Workspace.inDirectory env color args s =
      endEmission color verbose options (emitTree Workspace.inDirectory options.input
        options.output config (s.note (ignoredNotes env))) := by
  obtain ⟨loaded, hload, rfl⟩ := map_eq_ok h
  rw [run_of_parse_emit hargs, emit_of_configIn_ok hload]

/-- The note is about the variable. -/
def Note.IsAbout (name : String) : Note → Bool
  | .overrideIgnored other _ => other == name
  | _ => false

/-- Two runs from the same surroundings come to the same, but for the notes about a variable, which
only the first one makes. -/
structure SameButForNotes (name : String) (before : Surroundings) (env : Environment)
    (first second : Nat × Surroundings) : Prop where
  code : second.1 = first.1
  printed : second.2.printed = first.2.printed
  told : second.2.told = first.2.told
  directory : second.2.directory = first.2.directory
  logged : ∃ later, first.2.logged = before.logged ++ ignoredNotes env ++ later ∧
    second.2.logged =
      before.logged ++ (ignoredNotes env).filter (!·.IsAbout name) ++ later

theorem ignoredNotes_without {env : Environment} {x : Setting} (h : x.inEnvironment env = none) :
    ignoredNotes (env.without x.variableName) =
      (ignoredNotes env).filter (!·.IsAbout x.variableName) := by
  rw [ignoredNotes, Config.ignored_without h, ignoredNotes, List.filter_map]
  rfl

/-- The result of an action that never looks at the log, apart from the notes before it. -/
theorem sameButForNotes_of_framed {x : StateM Surroundings (Except Failure Report.Summary)}
    (hx : Framed x) (color verbose : Bool) (options : EmitOptions) {name : String}
    {env other : Environment} {s : Surroundings}
    (hnotes : ignoredNotes other = (ignoredNotes env).filter (!·.IsAbout name)) :
    SameButForNotes name s env (endEmission color verbose options (x (s.note (ignoredNotes env))))
      (endEmission color verbose options (x (s.note (ignoredNotes other)))) := by
  obtain ⟨result, after, hafter⟩ := exists_of_framed hx s
  rw [hafter, hafter, hnotes]
  cases result with
  | error failure => exact ⟨rfl, rfl, rfl, rfl, after.logged, rfl, rfl⟩
  | ok summary => exact ⟨rfl, rfl, rfl, rfl, after.logged, rfl, rfl⟩

/-- An emission has a configuration whenever the file for it, if there is one, can be loaded, and
each setting of it is decided on its own: by the command line, or else by the variable of the
setting, or else by the file, or else it is the preset one.  What the command line gives, the file
for the configuration included, stands among the arguments.  A variable that gives no setting might
as well be missing, but for a note in the log; a setting is the same wherever its own sources give
the same; and laying the environment over a configuration twice does what laying it over once
does. -/
theorem run_emit_settings_decided (s : Surroundings) (env : Environment) (color verbose : Bool)
    (args : List String) (options : EmitOptions)
    (hargs : Invocation.parse args = .ok ⟨verbose, .emit options⟩)
    (hfile : LoadsConfig s.directory options.config) :
    OptionsGiven args verbose options ∧
      ∃ config, effectiveIn s.directory env options = .ok config ∧
        run Workspace.inDirectory env color args s =
          endEmission color verbose options (emitTree Workspace.inDirectory options.input
            options.output config (s.note (ignoredNotes env))) ∧
        (∀ x : Setting, x.get? config =
          (x.onCommandLine options.overrides).or ((x.inEnvironment env).or
            (((contentsIn s.directory options.config).bind x.inFile).or x.preset))) ∧
        (∀ x : Setting, x.inEnvironment env = none →
          effectiveIn s.directory (env.without x.variableName) options = .ok config ∧
            SameButForNotes x.variableName s env (run Workspace.inDirectory env color args s)
              (run Workspace.inDirectory (env.without x.variableName) color args s)) ∧
        (∀ (x : Setting) (dir : Directory) (env' : Environment) (options' : EmitOptions)
          (config' : Config), effectiveIn dir env' options' = .ok config' →
          x.onCommandLine options'.overrides = x.onCommandLine options.overrides →
          env'.get? x.variableName = env.get? x.variableName →
          (contentsIn dir options'.config).bind x.inFile =
            (contentsIn s.directory options.config).bind x.inFile →
          x.get? config' = x.get? config) ∧
        ∀ given : Config,
          (given.withEnvironment env).withEnvironment env = given.withEnvironment env := by
  obtain ⟨config, hconfig⟩ := exists_effectiveIn hfile env
  refine ⟨optionsGiven_of_parse hargs, config, hconfig, run_of_effectiveIn hargs hconfig color,
    get?_effectiveIn hconfig, fun x hx => ?_,
    fun x dir env' options' config' hconfig' hcommand hvariable hcontents => ?_,
    fun given => Config.withEnvironment_withEnvironment given env⟩
  · have heffect : ∀ given : Config,
        given.withEnvironment (env.without x.variableName) = given.withEnvironment env :=
      Config.withEnvironment_congr (Config.inEnvironment_without hx)
    have hwithout : effectiveIn s.directory (env.without x.variableName) options =
        .ok config := by
      rw [← hconfig, effectiveIn, effectiveIn, configIn_eq_load, configIn_eq_load]
      simp only [Config.load, heffect]
    refine ⟨hwithout, ?_⟩
    rw [run_of_effectiveIn hargs hconfig color, run_of_effectiveIn hargs hwithout color]
    exact sameButForNotes_of_framed (framed_emitTree options.input options.output config) color
      verbose options (ignoredNotes_without hx)
  · rw [get?_effectiveIn hconfig', get?_effectiveIn hconfig, hcommand,
      Config.inEnvironment_congr hvariable, hcontents]

/-- A file that gives three settings. -/
def beforeLayeredEmission : Surroundings where
  directory := Directory.ofFiles [
    ("layers.toml", "indent = 4\n\n[resolution]\nfa = 3\nfs = 1.5\n".toUTF8)]

/-- Variables that give three settings, and one that gives none. -/
def layeredEnvironment : Environment :=
  [("SCADFORGE_FA", "6"), ("SCADFORGE_FS", " 0.5 "), ("SCADFORGE_FN", "many"),
    ("SCADFORGE_TRANSFORM_STYLE", "Statement")]

def layeredEmission : List String := ["emit", "tree.json", "--fa", "12", "-vclayers.toml"]

def layeredOptions : EmitOptions where
  input := "tree.json"
  config := some "layers.toml"
  overrides := { fa := some (Number.ofNat 12) }

theorem loadsConfig_beforeLayeredEmission :
    LoadsConfig beforeLayeredEmission.directory layeredOptions.config := by
  have hconfig : Config.ofFile "layers.toml"
      (beforeLayeredEmission.directory.read "layers.toml") =
        .ok ⟨4, .block, ⟨some (Number.ofNat 3), some (Number.ofRatio false 3 2), none⟩⟩ := by
    decide +kernel
  intro contents h
  cases h
  exact ⟨_, hconfig⟩

theorem run_layeredEmission :
    Invocation.parse layeredEmission = .ok ⟨true, .emit layeredOptions⟩ ∧
      LoadsConfig beforeLayeredEmission.directory layeredOptions.config ∧
      emitGrammar.Gives ["tree.json", "--fa", "12", "-vclayers.toml"]
        ⟨"config", some 'c', .path⟩ "layers.toml" ∧
      (∃ text, emitGrammar.Gives ["tree.json", "--fa", "12", "-vclayers.toml"]
        ⟨"fa", none, .number⟩ text ∧ Number.parse? text = some (Number.ofNat 12)) ∧
      (∃ config, effectiveIn beforeLayeredEmission.directory layeredEnvironment layeredOptions =
          .ok config ∧
        Setting.indent.get? config = some 4 ∧
        Setting.style.get? config = some .statement ∧
        Setting.fa.get? config = some (Number.ofNat 12) ∧
        Setting.fs.get? config = some (Number.ofRatio false 1 2) ∧
        Setting.fn.get? config = none) ∧
      SameButForNotes "SCADFORGE_FN" beforeLayeredEmission layeredEnvironment
        (run Workspace.inDirectory layeredEnvironment false layeredEmission beforeLayeredEmission)
        (run Workspace.inDirectory (layeredEnvironment.without "SCADFORGE_FN") false
          layeredEmission beforeLayeredEmission) := by
  have hargs : Invocation.parse layeredEmission = .ok ⟨true, .emit layeredOptions⟩ := by
    decide +kernel
  have hvariable : Setting.fn.inEnvironment layeredEnvironment = none := by decide +kernel
  obtain ⟨hgiven, config, hconfig, -, hdecided, hwithout, -⟩ :=
    run_emit_settings_decided beforeLayeredEmission layeredEnvironment false true layeredEmission
      layeredOptions hargs loadsConfig_beforeLayeredEmission
  exact ⟨hargs, loadsConfig_beforeLayeredEmission, (hgiven.config "layers.toml").mp rfl,
    (hgiven.fa (Number.ofNat 12)).mp rfl,
    ⟨config, hconfig, (hdecided .indent).trans (by decide +kernel),
      (hdecided .style).trans (by decide +kernel), (hdecided .fa).trans (by decide +kernel),
      (hdecided .fs).trans (by decide +kernel), (hdecided .fn).trans (by decide +kernel)⟩,
    (hwithout .fn hvariable).2⟩

end CommandLine
end SolidScript
