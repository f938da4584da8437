import Mathlib.Tactic
import SolidScript.Config.Toml
import SolidScript.Proofs.CommandLine.Steps
import SolidScript.Proofs.Number.Shortest
import SolidScript.Proofs.Toml.Document
import SolidScript.Proofs.Toml.Scalar

/-!
# Saved configurations are loaded again

The text of a configuration has a line for the indentation, one for the style and, under a header,
one for each value of the resolution that is set (`toList_of_toToml?`).  What stands behind each
equals sign denotes the value that it was made from: a number is written with its shortest digits,
which read back, and the point among them moves their value nowhere (`denotes_number`).  So the text
describes the configuration (`parseToml?_of_toToml?`), and a saved configuration is loaded again
from every file that keeps what is written to it (`saveConfig_reloads`).
-/

namespace SolidScript

/-! ## Numbers -/

theorem isDigit_zeros {n : Nat} : ∀ c ∈ List.replicate n '0', c.isDigit = true := by
  intro c hc
  rw [List.eq_of_mem_replicate hc]
  rfl

/-- The first digits of a number other than zero. -/
theorem isWhole_take_toDigits {n k : Nat} (hn : n ≠ 0) (hk : k ≠ 0) :
    IsWhole ((Nat.toDigits 10 n).take k) := by
  refine isWhole_of_head ?_ (fun c hc => isDigit_toDigits c (List.mem_of_mem_take hc)) ?_
  · rw [Ne, List.take_eq_nil_iff, not_or]
    exact ⟨hk, Nat.toDigits_ne_nil⟩
  · rw [List.head?_take, if_neg hk]
    exact Json.head?_toDigits_ne_zero hn

/-- Digits without a power of ten are a whole part and a fraction that is not empty. -/
theorem exists_positional_eq {s : Scientific} (hs : s.digits ≠ 0 ∨ s = ⟨0, 0⟩) (negative : Bool) :
    ∃ whole part, Json.Numeral.positional negative s = ⟨negative, whole, some part, none⟩ ∧
      IsWhole whole ∧ part ≠ [] ∧ AllDigits part := by
  have hpoint : ∀ {ds : List Char}, IsWhole ds → ∀ {part : List Char}, part ≠ [] →
      (∀ c ∈ part, c.isDigit = true) → IsWhole ds ∧ part ≠ [] ∧ AllDigits part :=
    fun hds _ hne hpart => ⟨hds, hne, fun c hc => Json.isDecimalDigit_of_isDigit (hpart c hc)⟩
  obtain ⟨digits, exponent⟩ := s
  unfold Json.Numeral.positional
  cases exponent with
  | ofNat e =>
      -- the point stands behind all digits
      refine ⟨_, _, rfl, hpoint ?_ (List.cons_ne_nil '0' []) (isDigit_zeros (n := 1))⟩
      rcases hs with hne | hzero
      · refine isWhole_of_head (List.append_ne_nil_of_left_ne_nil Nat.toDigits_ne_nil _)
          (List.forall_mem_append.mpr ⟨isDigit_toDigits, isDigit_zeros⟩) ?_
        rw [List.head?_append_of_ne_nil _ Nat.toDigits_ne_nil]
        exact Json.head?_toDigits_ne_zero hne
      · cases hzero
        exact .inl rfl
  | negSucc e =>
      dsimp only
      split
      · -- the point stands between two digits, of which zero has only one
        rename_i hplaces
        have hne : digits ≠ 0 := by
          rintro rfl
          simp at hplaces
        have hwhole := isWhole_take_toDigits (k := (Nat.toDigits 10 digits).length - (e + 1)) hne
          (by omega)
        refine ⟨_, _, rfl, hpoint hwhole ?_ ?_⟩
        · rw [Ne, List.drop_eq_nil_iff]
          omega
        · exact fun c hc => isDigit_toDigits c (List.mem_of_mem_drop hc)
      · -- the point stands before all digits
        exact ⟨_, _, rfl, hpoint (.inl rfl)
          (List.append_ne_nil_of_right_ne_nil _ Nat.toDigits_ne_nil)
          (List.forall_mem_append.mpr ⟨isDigit_zeros, isDigit_toDigits⟩)⟩

namespace Toml

theorem denotes_finite (negative : Bool) (code : Fin magnitudeCount) :
    Denotes (Number.finite negative code).toToml.toList (.float (.finite negative code)) := by
  have hshape := exists_positional_eq (Number.digits_shortest_ne_zero_or_eq .away code) negative
  obtain ⟨whole, part, hparts, hwhole, hne, hpart⟩ := hshape
  have htext : (Number.finite negative code).toToml.toList =
      Json.Numeral.signChars negative ++ (whole ++ '.' :: part) := by
    have hspell := Json.Numeral.spell_positional negative (Number.shortest .away code)
    have hsign : (if negative then "-" else "").toList = Json.Numeral.signChars negative := by
      cases negative <;> rfl
    rw [hparts] at hspell
    change ((if negative then "-" else "") ++
      FloatStyle.positional (Number.shortest .away code)).toList = _
    rw [String.toList_append, hsign, ← hspell]
    simp [Json.Numeral.spell, Json.Numeral.partChars, Json.Numeral.powerChars]
  have hread : Number.ofScientific negative (digitsValue (whole ++ part)) (-(part.length : Int)) =
      .finite negative code := by
    have hvalue : (⟨digitsValue (whole ++ part), -(part.length : Int)⟩ : Scientific).value =
        (Number.shortest .away code).value := by
      rw [← Json.Numeral.value_positional negative (Number.shortest .away code), hparts,
        Json.Numeral.value, Scientific.value]
      simp [Json.Numeral.powerValue]
    rw [← Number.ofScientific_shortest .away negative code]
    exact Number.ofScientific_congr hvalue negative
  constructor
  · exact ⟨isNumberStart, htext ▸ begins_signed negative hwhole ('.' :: part), by decide⟩
  · intro rest
    have hscalar := scalar_point negative hwhole hne hpart Number.noConfusion hread rest
    simpa [htext] using hscalar

/-- A text that is known to the last character denotes what it is read as. -/
theorem denotes_word {c : Char} {cs : List Char} {v : Value}
    (hc : [' ', '\t', '[', '\x7b'].any (· == c) = false)
    (hreads : ∀ rest, scalar (c :: (cs ++ '\n' :: rest)) = some (v, '\n' :: rest)) :
    Denotes (c :: cs) v :=
  ⟨⟨(· == c), ⟨c, cs, rfl, beq_self_eq_true c⟩, hc⟩, hreads⟩

/-- The text of a number denotes the number. -/
theorem denotes_number (x : Number) : Denotes x.toToml.toList (.float x) := by
  cases x with
  | nan => exact denotes_word (by decide) fun _ => rfl
  | infinity negative =>
      cases negative with
      | true => exact denotes_word (by decide) fun _ => rfl
      | false => exact denotes_word (by decide) fun _ => rfl
  | finite negative code => exact denotes_finite negative code

theorem denotes_toDigits {n : Nat} (hn : n < 2 ^ 63) :
    Denotes (Nat.toDigits 10 n) (.integer n) where
  start := ⟨isDecimalDigit, begins_of_forall Nat.toDigits_ne_nil (isWhole_toDigits n).allDigits,
    by decide⟩
  reads := scalar_toDigits hn

theorem denotes_style (style : TransformStyle) :
    Denotes ('"' :: (style.name.toList ++ ['"'])) (.text style.name) :=
  denotes_word (by decide) fun _ => by cases style <;> rfl

end Toml

/-! ## Configurations -/

open Toml

namespace Resolution

/-- The values that are set, by their names in a file. -/
def entries (r : Resolution) : List (String × Number) :=
  [("fa", r.fa), ("fs", r.fs), ("fn", r.fn)].filterMap fun (name, value) => value.map (name, ·)

/-- The table of the values that are set. -/
def toFields (r : Resolution) : Fields := r.entries.map fun (name, x) => (name, .float x)

/-- The lines of the values that are set. -/
def lines (r : Resolution) : List Char :=
  r.entries.flatMap fun (name, x) => settingLine name.toList x.toToml.toList

theorem toList_toToml (r : Resolution) : r.toToml.toList = r.lines := by
  unfold toToml lines entries
  generalize [("fa", r.fa), ("fs", r.fs), ("fn", r.fn)] = values
  induction values with
  | nil => rfl
  | cons entry values ih =>
      obtain ⟨name, value⟩ := entry
      cases value with
      | none => simpa using ih
      | some x => simpa [settingLine, String.join_cons] using ih

theorem ofFields?_toFields (r : Resolution) : ofFields? r.toFields = some r := by
  obtain ⟨fa, fs, fn⟩ := r
  cases fa <;> cases fs <;> cases fn <;> rfl

/-- The values that are set keep the order of all values. -/
theorem sublist_names (r : Resolution) : (r.entries.map Prod.fst).Sublist ["fa", "fs", "fn"] := by
  obtain ⟨fa, fs, fn⟩ := r
  have hnames : ∀ values : List (String × Option Number),
      ((values.filterMap fun (name, value) => value.map (name, ·)).map Prod.fst).Sublist
        (values.map Prod.fst) := by
    intro values
    induction values with
    | nil => exact .slnil
    | cons entry values ih =>
        obtain ⟨name, value⟩ := entry
        cases value with
        | none => exact ih.cons name
        | some x => exact ih.cons_cons name
  exact hnames [("fa", fa), ("fs", fs), ("fn", fn)]

theorem nodup_toFields (r : Resolution) : (r.toFields.map Prod.fst).Nodup := by
  have hnames : r.toFields.map Prod.fst = r.entries.map Prod.fst := by
    rw [toFields, List.map_map]
    rfl
  rw [hnames]
  exact r.sublist_names.nodup (by decide)

theorem isBareName_of_mem_entries {r : Resolution} {entry : String × Number}
    (h : entry ∈ r.entries) : IsBareName entry.1.toList := by
  have hbare : ∀ name ∈ ["fa", "fs", "fn"], IsBareName name.toList := by decide
  exact hbare entry.1 (r.sublist_names.mem (List.mem_map_of_mem h))

theorem lists_lines (r : Resolution) : Lists r.lines ((settingsOf r.toFields).map .setting) := by
  have hnames : ∀ entry ∈ r.entries, IsBareName entry.1.toList :=
    fun _ => isBareName_of_mem_entries
  unfold lines toFields
  generalize r.entries = entries at hnames ⊢
  induction entries with
  | nil => exact lists_nil
  | cons entry entries ih =>
      obtain ⟨hname, hnames⟩ := List.forall_mem_cons.mp hnames
      have hline := (ih hnames).settingLine hname (denotes_number entry.2)
      rwa [String.ofList_toList] at hline

end Resolution

namespace Config

/-- The settings that stand before the header of the resolution. -/
def toFields (config : Config) : Fields :=
  [("indent", .integer config.indent), ("transform_style", .text config.style.name)]

theorem ofFields?_toFields (config : Config) :
    ofFields? (config.toFields ++ [("resolution", .table .header config.resolution.toFields)]) =
      some config := by
  obtain ⟨indent, style, resolution⟩ := config
  change (TransformStyle.ofName? style.name >>= fun style =>
    Resolution.ofFields? resolution.toFields >>= fun resolution =>
      some (Config.mk indent style resolution)) = _
  have hstyle : TransformStyle.ofName? style.name = some style := by cases style <;> rfl
  rw [hstyle, Resolution.ofFields?_toFields]
  rfl

/-- The text of a configuration, line by line. -/
theorem toList_of_toToml? {config : Config} {text : String} (h : config.toToml? = some text) :
    config.indent < 2 ^ 63 ∧
      text.toList = settingLine "indent".toList (Nat.toDigits 10 config.indent) ++
        (settingLine "transform_style".toList ('"' :: (config.style.name.toList ++ ['"'])) ++
          '\n' :: (headerLine "resolution".toList ++ config.resolution.lines)) := by
  unfold toToml? at h
  split at h
  · rename_i hindent
    cases h
    refine ⟨hindent, ?_⟩
    simp [settingLine, headerLine, Resolution.toList_toToml]
  · cases h

/-- The text of a configuration describes the configuration. -/
theorem parseToml?_of_toToml? {config : Config} {text : String} (h : config.toToml? = some text) :
    parseToml? text = some config := by
  obtain ⟨hindent, htext⟩ := toList_of_toToml? h
  have hbare : IsBareName "indent".toList ∧ IsBareName "transform_style".toList ∧
      IsBareName "resolution".toList := by decide
  have hheader : Lists (headerLine "resolution".toList ++ config.resolution.lines)
      (.header false ["resolution"] :: (settingsOf config.resolution.toFields).map .setting) :=
    config.resolution.lists_lines.headerLine hbare.2.2
  have hlists : Lists text.toList ((settingsOf config.toFields).map .setting ++
      .header false ["resolution"] ::
        (settingsOf config.resolution.toFields).map .setting) := by
    rw [htext]
    exact ((hheader.newline (begins_headerLine _ _)).settingLine hbare.2.1
      (denotes_style config.style)).settingLine hbare.1 (denotes_toDigits hindent)
  have hmark : text.toList.head? ≠ some '\ufeff' := by
    rw [htext]
    change some 'i' ≠ some '\ufeff'
    decide
  have htop : config.toFields.map Prod.fst = ["indent", "transform_style"] := rfl
  have hparse := Toml.parse?_eq hmark hlists (by rw [htop]; decide) (by rw [htop]; decide)
    config.resolution.nodup_toFields
  rw [parseToml?, hparse]
  exact config.ofFields?_toFields

theorem fromUTF8?_toUTF8 (text : String) : String.fromUTF8? text.toUTF8 = some text :=
  dif_pos text.isValidUTF8

/-- A file with the text of a configuration gives the configuration. -/
theorem ofFile_toUTF8 {config : Config} {text : String} (h : config.toToml? = some text)
    (path : String) : ofFile path (.ok text.toUTF8) = .ok config := by
  rw [ofFile, textOf, fromUTF8?_toUTF8]
  dsimp only
  rw [parseToml?_of_toToml? h]

end Config

/-! ## Files -/

namespace CommandLine

theorem saveConfig_inDirectory (config : Config) (path : String) (s : Surroundings) :
    saveConfig Workspace.inDirectory config path s =
      match config.toToml? with
      | none => (.error .configBeyondToml, s)
      | some text =>
        match s.directory.write path text.toUTF8 with
        | .error e => (.error (.configUnwritten path e), s)
        | .ok written => (.ok (), { s with directory := written }) := by
  unfold saveConfig
  cases config.toToml? with
  | none => rfl
  | some text =>
      dsimp only
      rw [bind_apply]
      cases hwrite : s.directory.write path text.toUTF8 with
      | error e =>
          rw [write_inDirectory_error hwrite]
          rfl
      | ok written =>
          rw [write_inDirectory_ok hwrite]
          rfl

/-- Where there is a place for a file, a configuration is saved exactly when its indentation is one
of the whole numbers of TOML, and then it is loaded again from the file.  A configuration that
cannot be told in TOML is refused wherever it is to be saved, and nothing is touched. -/
theorem saveConfig_reloads (config : Config) (path : String) (s : Surroundings) :
    (s.directory.HasPlace path →
        ((saveConfig Workspace.inDirectory config path s).1 = .ok () ↔ config.indent < 2 ^ 63) ∧
          ((saveConfig Workspace.inDirectory config path s).1 = .ok () →
            Config.ofFile path
                ((saveConfig Workspace.inDirectory config path s).2.directory.read path) =
              .ok config)) ∧
      ((saveConfig Workspace.inDirectory config path s).1 = .error .configBeyondToml ↔
        2 ^ 63 ≤ config.indent) ∧
      (2 ^ 63 ≤ config.indent → (saveConfig Workspace.inDirectory config path s).2 = s) := by
  rw [saveConfig_inDirectory]
  cases htext : config.toToml? with
  | none =>
      have hindent : 2 ^ 63 ≤ config.indent := by
        unfold Config.toToml? at htext
        split at htext
        · cases htext
        · rename_i hindent
          exact not_lt.mp hindent
      exact ⟨fun _ => ⟨iff_of_false nofun (not_lt.mpr hindent), nofun⟩, iff_of_true rfl hindent,
        fun _ => rfl⟩
  | some text =>
      have hindent : config.indent < 2 ^ 63 := (Config.toList_of_toToml? htext).1
      dsimp only
      cases hwrite : s.directory.write path text.toUTF8 with
      | error e =>
          refine ⟨fun hplace => ?_, iff_of_false nofun (not_le.mpr hindent),
            fun h => absurd h (not_le.mpr hindent)⟩
          obtain ⟨written, hwritten⟩ := hplace.exists_write text.toUTF8
          rw [hwritten] at hwrite
          cases hwrite
      | ok written =>
          refine ⟨fun hplace => ⟨iff_of_true rfl hindent, fun _ => ?_⟩,
            iff_of_false nofun (not_le.mpr hindent), fun h => absurd h (not_le.mpr hindent)⟩
          dsimp only
          rw [Directory.read_written hplace hwrite]
          exact Config.ofFile_toUTF8 htext path

/-- The greatest indentation that can be saved, and values at the ends of the numbers. -/
def outermostConfig : Config where
  indent := 9223372036854775807
  style := .statement
  resolution :=
    ⟨some (.infinity true), some (Number.zero true), some (.finite false ⟨1, by decide⟩)⟩

/-- A working directory with a fresh directory in it. -/
def freshSurroundings : Surroundings where
  directory := { files := [], directories := [["settings"]] }

theorem saveConfig_outermostConfig_reloads :
    freshSurroundings.directory.HasPlace "settings/scadforge.toml" ∧
      (saveConfig Workspace.inDirectory outermostConfig "settings/scadforge.toml"
        freshSurroundings).1 = .ok () ∧
      Config.ofFile "settings/scadforge.toml"
          ((saveConfig Workspace.inDirectory outermostConfig "settings/scadforge.toml"
            freshSurroundings).2.directory.read "settings/scadforge.toml") =
        .ok outermostConfig := by
  have hplace : freshSurroundings.directory.HasPlace "settings/scadforge.toml" :=
    ⟨["settings", "scadforge.toml"], by decide +kernel⟩
  obtain ⟨hsaves, hreloads⟩ :=
    (saveConfig_reloads outermostConfig "settings/scadforge.toml" freshSurroundings).1 hplace
  have hsaved := hsaves.mpr (by decide)
  exact ⟨hplace, hsaved, hreloads hsaved⟩

end CommandLine
end SolidScript
