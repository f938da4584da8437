import SolidScript.Proofs.CommandLine.Switches

/-!
# What an emission is given

The options of an emission are those that its arguments give (`optionsGiven_of_parse`): each switch
has the value that is spelled for it, and the input is the argument that is left over, being neither
a switch nor the value of one (`Grammar.HasWord`).
-/

namespace SolidScript
namespace CommandLine

/-- The word stands among the arguments: behind `--`, or without looking like a switch and without
following the name of one that takes a value. -/
def Grammar.HasWord (grammar : Grammar) (args : List String) (word : String) : Prop :=
  ∃ before after, args = before ++ word :: after ∧
    ("--" ∈ before ∨ looksLikeSwitch word = false ∧
      ∀ name ∈ before.getLast?, ∀ switch ∈ grammar.switches, switch.kind.takesValue = true →
        ¬ grammar.Naming switch name)

namespace Reading

variable {grammar : Grammar} {r next : Reading} {name value : String}

/-! ## Words -/

/-- Switches do not touch the words. -/
theorem get?_word_of_give (hg : grammar.IsUnambiguous) (hname : name ∈ grammar.words)
    {switch : Switch} (hmem : switch ∈ grammar.switches)
    (h : r.give switch.long value = .ok next) : next.get? name = r.get? name := by
  rw [get?_give h, if_neg (Ne.symm (hg.word name hname switch hmem))]

theorem get?_word_of_readLong (hg : grammar.IsUnambiguous) (hname : name ∈ grammar.words)
    {cs : List Char} (h : r.readLong grammar cs = .ok next) : next.get? name = r.get? name := by
  obtain ⟨switch, hmem, -, ⟨-, -, rfl⟩ | ⟨-, -, hbare⟩ | ⟨c, value, -, hvalue⟩⟩ :=
    readLong_cases h
  · rfl
  · exact get?_word_of_give hg hname hmem (giveBare_eq_ok hbare).2
  · exact get?_word_of_give hg hname hmem (giveValue_eq_ok hvalue)

theorem get?_word_of_readShort (hg : grammar.IsUnambiguous) (hname : name ∈ grammar.words)
    {cs : List Char} (h : r.readShort grammar cs = .ok next) : next.get? name = r.get? name := by
  induction cs generalizing r with
  | nil =>
      cases h
      rfl
  | cons c rest ih =>
      obtain ⟨switch, hmem, -, ⟨-, -, rfl⟩ | ⟨-, -, hvalue⟩ | ⟨-, between, hbare, hrest⟩⟩ :=
        readShort_cases h
      · rfl
      · exact get?_word_of_give hg hname hmem (giveValue_eq_ok hvalue)
      · rw [ih hrest, get?_word_of_give hg hname hmem (giveBare_eq_ok hbare).2]

/-- A word that was not there before is the argument that has been read. -/
theorem get?_word_of_read (hg : grammar.IsUnambiguous) {args : List String}
    (haccounts : Accounts grammar args r) (hname : name ∈ grammar.words) {arg : String}
    (h : read grammar r arg = .ok next) (hget : next.get? name = some value) :
    r.get? name = some value ∨ value = arg ∧
      (r.closed = true ∨ looksLikeSwitch arg = false ∧ r.awaiting = none) := by
  have hword (h : r.giveWord grammar arg = .ok next) :
      r.get? name = some value ∨ value = arg := by
    obtain ⟨other, -, hgive⟩ := giveWord_eq_ok h
    rw [get?_give hgive] at hget
    split at hget
    · cases hget
      exact .inr rfl
    · exact .inl hget
  cases hclosed : r.closed with
  | true => exact (hword (read_of_closed hclosed h)).imp_right fun heq => ⟨heq, .inl rfl⟩
  | false =>
      obtain ⟨switch, hawaiting, -, hvalue⟩ | ⟨hawaiting, ⟨rfl, rfl⟩ | ⟨cs, -, -, hlong⟩ |
        ⟨c, cs, -, -, hshort⟩ | ⟨hlooks, hgive⟩⟩ := read_cases hclosed h
      · obtain ⟨-, hmem, -⟩ := haccounts.awaiting switch hawaiting
        rw [get?_word_of_give hg hname hmem (giveValue_eq_ok hvalue)] at hget
        exact .inl hget
      · exact .inl hget
      · rw [get?_word_of_readLong hg hname hlong] at hget
        exact .inl hget
      · rw [get?_word_of_readShort hg hname hshort] at hget
        exact .inl hget
      · exact (hword hgive).imp_right fun heq => ⟨heq, .inr ⟨hlooks, hawaiting⟩⟩

/-- After `--` all arguments are words. -/
theorem closed_of_mem {args : List String} (h : args.foldlM (read grammar) r = .ok next)
    (hdashes : r.closed = true ∨ "--" ∈ args) : next.closed = true := by
  induction args generalizing r with
  | nil =>
      cases h
      exact hdashes.resolve_right List.not_mem_nil
  | cons arg rest ih =>
      obtain ⟨between, hread, hrest⟩ := exists_of_foldlM_cons h
      refine ih hrest ?_
      cases hclosed : r.closed with
      | true =>
          obtain ⟨name, -, hgive⟩ := giveWord_eq_ok (read_of_closed hclosed hread)
          exact .inl ((give_extends hgive).closed.trans hclosed)
      | false =>
          rw [hclosed] at hdashes
          rcases List.mem_cons.mp (hdashes.resolve_left Bool.false_ne_true) with rfl | hmem
          · have hnext : between = { r with closed := true } := by
              unfold read at hread
              rw [hclosed, if_neg Bool.false_ne_true] at hread
              cases hawaiting : r.awaiting with
              | some switch =>
                  rw [hawaiting] at hread
                  cases hread
              | none =>
                  rw [hawaiting] at hread
                  cases hread
                  rfl
            exact .inl (by rw [hnext])
          · exact .inr hmem

/-- A reading that waits for nothing has not just read the name of a switch that takes a value. -/
theorem not_naming_of_awaiting (hg : grammar.IsUnambiguous) {args : List String}
    (h : args.foldlM (read grammar) {} = .ok r) (hclosed : r.closed = false)
    (hawaiting : r.awaiting = none) :
    ∀ last ∈ args.getLast?, ∀ switch ∈ grammar.switches, switch.kind.takesValue = true →
      ¬ grammar.Naming switch last := by
  intro last hlast switch hmem hkind hnaming
  obtain ⟨before, rfl⟩ := List.getLast?_eq_some_iff.mp hlast
  have hdashes := (accounts_foldlM hg h).dashes hclosed
  rw [List.mem_append, not_or, List.mem_singleton] at hdashes
  obtain ⟨between, hbetween, hlast⟩ := exists_of_foldlM_append h
  have hopen := (foldlM_extends hbetween).2 hdashes.1
  obtain ⟨hwaits, -⟩ := read_naming hg hopen hmem hkind (Ne.symm hdashes.2) hnaming
    (of_foldlM_singleton hlast)
  rw [hawaiting] at hwaits
  cases hwaits

theorem hasWord_of_get? (hg : grammar.IsUnambiguous) (hname : name ∈ grammar.words)
    {args : List String} (h : args.foldlM (read grammar) {} = .ok r)
    (hget : r.get? name = some value) : grammar.HasWord args value := by
  induction args using List.reverseRecOn generalizing r with
  | nil =>
      cases h
      cases hget
  | append_singleton args arg ih =>
      obtain ⟨between, hbetween, hlast⟩ := exists_of_foldlM_append h
      have haccounts := accounts_foldlM hg hbetween
      obtain hget | ⟨rfl, hplace⟩ := get?_word_of_read hg haccounts hname
        (of_foldlM_singleton hlast) hget
      · obtain ⟨before, after, rfl, hplace⟩ := ih hbetween hget
        exact ⟨before, after ++ [arg], by simp, hplace⟩
      · refine ⟨args, [], rfl, ?_⟩
        cases hclosed : between.closed with
        | true =>
            left
            by_contra hdashes
            rw [(foldlM_extends hbetween).2 hdashes] at hclosed
            cases hclosed
        | false =>
            obtain ⟨hlooks, hawaiting⟩ :=
              hplace.resolve_left (by rw [hclosed]; exact Bool.false_ne_true)
            exact .inr ⟨hlooks, not_naming_of_awaiting hg hbetween hclosed hawaiting⟩

theorem get?_of_hasWord (hg : grammar.IsUnambiguous) (hwords : grammar.words = [name])
    {args : List String} (h : args.foldlM (read grammar) {} = .ok r)
    (hword : grammar.HasWord args value) : r.get? name = some value := by
  obtain ⟨before, after, rfl, hplace⟩ := hword
  obtain ⟨first, hfirst, h⟩ := exists_of_foldlM_append h
  obtain ⟨second, hsecond, hlast⟩ := exists_of_foldlM_cons h
  have hgive : first.giveWord grammar value = .ok second := by
    cases hclosed : first.closed with
    | true => exact read_of_closed hclosed hsecond
    | false =>
        have hopen : "--" ∉ before := fun hmem => by
          rw [closed_of_mem hfirst (.inr hmem)] at hclosed
          cases hclosed
        obtain ⟨hlooks, hnaming⟩ := hplace.resolve_left hopen
        unfold looksLikeSwitch at hlooks
        obtain ⟨switch, hawaiting, -⟩ | ⟨-, ⟨rfl, -⟩ | ⟨cs, -, harg, -⟩ | ⟨c, cs, -, harg, -⟩ |
          ⟨-, hgive⟩⟩ := read_cases hclosed hsecond
        · -- the argument before it would be the name of a switch
          obtain ⟨-, hmem, hkind, earlier, last, rfl, hlast⟩ :=
            (accounts_foldlM hg hfirst).awaiting switch hawaiting
          exact absurd hlast (hnaming last (by simp) switch hmem hkind)
        · cases hlooks
        · rw [harg] at hlooks
          cases hlooks
        · rw [harg] at hlooks
          cases hlooks
        · exact hgive
  obtain ⟨other, hother, hgive⟩ := giveWord_eq_ok hgive
  rw [hwords, List.mem_singleton] at hother
  rw [hother] at hgive
  exact (foldlM_extends hlast).1 (get?_of_give_self hgive)

/-- Where there is one word to give, it is the one that stands among the arguments. -/
theorem get?_eq_some_iff_hasWord (hg : grammar.IsUnambiguous) (hwords : grammar.words = [name])
    {args : List String} (h : readAll grammar args = .ok r) :
    r.get? name = some value ↔ grammar.HasWord args value :=
  ⟨hasWord_of_get? hg (by rw [hwords]; exact List.mem_cons_self) (foldlM_of_readAll h),
    get?_of_hasWord hg hwords (foldlM_of_readAll h)⟩

end Reading

/-! ## Emissions -/

/-- The arguments in front of the name of the command. -/
def beforeName (args : List String) : List String := args.takeWhile looksLikeSwitch

/-- The arguments behind the name of the command. -/
def afterName (args : List String) : List String := (args.dropWhile looksLikeSwitch).tail

/-- The options of an emission say what the arguments give, and nothing else. -/
structure OptionsGiven (args : List String) (verbose : Bool) (options : EmitOptions) : Prop where
  name : (args.dropWhile looksLikeSwitch).head? = some "emit"
  input : ∀ path, options.input = path ↔ emitGrammar.HasWord (afterName args) path
  verbose : verbose = true ↔
    leadingGrammar.Gives (beforeName args) ⟨"verbose", some 'v', .flag⟩ "" ∨
      emitGrammar.Gives (afterName args) ⟨"verbose", some 'v', .flag⟩ ""
  output : ∀ path, options.output = some path ↔
    emitGrammar.Gives (afterName args) ⟨"output", some 'o', .path⟩ path
  config : ∀ path, options.config = some path ↔
    emitGrammar.Gives (afterName args) ⟨"config", some 'c', .path⟩ path
  fa : ∀ x, options.overrides.fa = some x ↔
    ∃ text, emitGrammar.Gives (afterName args) ⟨"fa", none, .number⟩ text ∧
      Number.parse? text = some x
  fs : ∀ x, options.overrides.fs = some x ↔
    ∃ text, emitGrammar.Gives (afterName args) ⟨"fs", none, .number⟩ text ∧
      Number.parse? text = some x
  fn : ∀ x, options.overrides.fn = some x ↔
    ∃ text, emitGrammar.Gives (afterName args) ⟨"fn", none, .number⟩ text ∧
      Number.parse? text = some x
  statementForm : options.overrides.statementForm = true ↔
    emitGrammar.Gives (afterName args) ⟨"statement-form", none, .flag⟩ ""

theorem isUnambiguous_leadingGrammar : leadingGrammar.IsUnambiguous := by
  constructor <;> decide

theorem isUnambiguous_emitGrammar : emitGrammar.IsUnambiguous := by
  constructor <;> decide

/-- How arguments make an emission. -/
theorem exists_of_parse_emit {args : List String} {verbose : Bool} {options : EmitOptions}
    (h : Invocation.parse args = .ok ⟨verbose, .emit options⟩) :
    ∃ leading r, Reading.readAll leadingGrammar (beforeName args) = .ok leading ∧
      args.dropWhile looksLikeSwitch = "emit" :: afterName args ∧
      Reading.readAll emitGrammar (afterName args) = .ok r ∧
      emitRequest r = .ok (.emit options) ∧
      verbose = (leading.has "verbose" || r.has "verbose") := by
  unfold Invocation.parse at h
  obtain ⟨leading, hleading, h⟩ := exists_of_bind_eq_ok h
  split at h
  · cases h
  split at h
  · cases h
  · cases h
  · rename_i name rest _ hrest
    split at h
    · cases h
    · rename_i found grammar make hfind
      obtain ⟨r, hread, h⟩ := exists_of_bind_eq_ok h
      obtain ⟨request, hmake, h⟩ := exists_of_bind_eq_ok h
      cases h
      have hname : found = name := by simpa using List.find?_some hfind
      have hafter : afterName args = rest := by rw [afterName, hrest, List.tail_cons]
      have hmem := List.mem_of_find?_eq_some hfind
      simp only [commands, List.mem_cons, Prod.mk.injEq, List.not_mem_nil, or_false] at hmem
      obtain ⟨rfl, rfl, rfl⟩ | ⟨-, -, rfl⟩ | ⟨-, -, rfl⟩ := hmem
      · rw [hafter, hname]
        exact ⟨leading, r, hleading, hrest, hread, hmake, rfl⟩
      · -- the other commands make no emission
        unfold configRequest at hmake
        split at hmake <;> cases hmake
      · cases hmake

/-- The options of an accepted emission are those that its arguments give. -/
theorem optionsGiven_of_parse {args : List String} {verbose : Bool} {options : EmitOptions}
    (h : Invocation.parse args = .ok ⟨verbose, .emit options⟩) :
    OptionsGiven args verbose options := by
  obtain ⟨leading, r, hleading, hname, hread, hrequest, hverbose⟩ := exists_of_parse_emit h
  have hvalue (switch : Switch) (hmem : switch ∈ emitGrammar.switches) (value : String) :
      r.get? switch.long = some value ↔ emitGrammar.Gives (afterName args) switch value :=
    Reading.get?_eq_some_iff_gives isUnambiguous_emitGrammar hmem hread
  have hnumber (switch : Switch) (hmem : switch ∈ emitGrammar.switches) (x : Number) :
      numberOf? r switch.long = some x ↔
        ∃ text, emitGrammar.Gives (afterName args) switch text ∧ Number.parse? text = some x := by
    rw [numberOf?, Option.bind_eq_some_iff]
    simp only [hvalue switch hmem]
  have hflag (switch : Switch) (hmem : switch ∈ emitGrammar.switches)
      (hkind : switch.kind = .flag) :
      r.has switch.long = true ↔ emitGrammar.Gives (afterName args) switch "" :=
    Reading.has_eq_true_iff_gives isUnambiguous_emitGrammar hmem hkind hread
  have hfirst : leading.has verboseSwitch.long = true ↔
      leadingGrammar.Gives (beforeName args) verboseSwitch "" :=
    Reading.has_eq_true_iff_gives isUnambiguous_leadingGrammar (by decide) rfl hleading
  have hword (path : String) :
      r.get? "INPUT" = some path ↔ emitGrammar.HasWord (afterName args) path :=
    Reading.get?_eq_some_iff_hasWord isUnambiguous_emitGrammar rfl hread
  unfold emitRequest at hrequest
  split at hrequest
  · cases hrequest
  rename_i input hinput
  cases hrequest
  refine ⟨by rw [hname]; rfl, fun path => ?_, ?_,
    hvalue ⟨"output", some 'o', .path⟩ (by decide),
    hvalue ⟨"config", some 'c', .path⟩ (by decide),
    hnumber ⟨"fa", none, .number⟩ (by decide),
    hnumber ⟨"fs", none, .number⟩ (by decide),
    hnumber ⟨"fn", none, .number⟩ (by decide),
    hflag ⟨"statement-form", none, .flag⟩ (by decide) rfl⟩
  · rw [← hword, hinput, Option.some.injEq]
  · rw [hverbose, Bool.or_eq_true]
    exact or_congr hfirst (hflag verboseSwitch (by decide) rfl)

/-- All switches of an emission, spelled in different ways. -/
example : Invocation.parse ["-v", "emit", "--fa", "12", "--fs=0.5", "tree.json", "--fn", "24",
    "--statement-form", "-cscadforge.toml", "-o=out.scad"] =
    .ok ⟨true, .emit
      { input := "tree.json"
        output := some "out.scad"
        config := some "scadforge.toml"
        overrides :=
          { fa := some (Number.ofNat 12)
            fs := some (Number.ofRatio false 1 2)
            fn := some (Number.ofNat 24)
            statementForm := true } }⟩ := by
  decide +kernel

end CommandLine
end SolidScript
