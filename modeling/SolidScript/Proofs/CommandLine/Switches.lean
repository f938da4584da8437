import SolidScript.Proofs.CommandLine.Reading

/-!
# What the arguments give

A switch is spelled with one argument or with two (`Grammar.Spelling`), and the arguments give it a
value when such a spelling stands among those in front of `--` (`Grammar.Gives`).  Neither notion
knows anything of reading: what was read is exactly what the arguments give
(`get?_eq_some_iff_gives`).

A switch that stands among the arguments is read there and kept to the end, since an argument that
looks like a switch is never the value of another one.  Conversely, all that has been read so far
stands among the arguments so far (`Accounts`), which is carried from one argument to the next.
-/

namespace SolidScript
namespace CommandLine

/-- The arguments in front of `--`, where switches can stand. -/
def beforeDashes (args : List String) : List String := args.takeWhile (· != "--")

/-- An argument of short names, with what follows the last of them. -/
def cluster (names rest : List Char) : String := String.ofList ('-' :: (names ++ rest))

namespace Grammar

variable (grammar : Grammar)

/-- The names can stand in front of another short name. -/
def AreFlags (names : List Char) : Prop :=
  ∀ c ∈ names, ∃ flag ∈ grammar.switches, flag.short = some c ∧ flag.kind = .flag

/-- Arguments that leave a switch without its value. -/
inductive Naming (switch : Switch) : String → Prop where
  | long : Naming switch ("--" ++ switch.long)
  | short {flags : List Char} {c : Char} (hflags : grammar.AreFlags flags)
      (hshort : switch.short = some c) : Naming switch (cluster flags [c])

/-- The arguments that give a switch a value.  A flag has the empty value, and further short names
may follow it. -/
inductive Spelling (switch : Switch) : String → List String → Prop where
  | longFlag (hkind : switch.kind = .flag) : Spelling switch "" ["--" ++ switch.long]
  | shortFlag {flags rest : List Char} {c : Char} (hkind : switch.kind = .flag)
      (hflags : grammar.AreFlags flags) (hshort : switch.short = some c) :
      Spelling switch "" [cluster flags (c :: rest)]
  | longEquals {value : String} (hkind : switch.kind.takesValue = true) :
      Spelling switch value ["--" ++ switch.long ++ "=" ++ value]
  | shortEquals {flags : List Char} {c : Char} {value : String}
      (hkind : switch.kind.takesValue = true) (hflags : grammar.AreFlags flags)
      (hshort : switch.short = some c) :
      Spelling switch value [cluster flags (c :: '=' :: value.toList)]
  | shortAttached {flags : List Char} {c : Char} {value : String}
      (hkind : switch.kind.takesValue = true) (hflags : grammar.AreFlags flags)
      (hshort : switch.short = some c) (hne : value ≠ "") (hhead : value.toList.head? ≠ some '=') :
      Spelling switch value [cluster flags (c :: value.toList)]
  | next {name value : String} (hkind : switch.kind.takesValue = true)
      (hname : grammar.Naming switch name) : Spelling switch value [name, value]

/-- The arguments give the switch this value. -/
def Gives (args : List String) (switch : Switch) (value : String) : Prop :=
  ∃ words, grammar.Spelling switch value words ∧ words <:+: beforeDashes args

/-- No two names can be mistaken for one another. -/
structure IsUnambiguous : Prop where
  eq_of_long : ∀ a ∈ grammar.switches, ∀ b ∈ grammar.switches, a.long = b.long → a = b
  eq_of_short : ∀ a ∈ grammar.switches, ∀ b ∈ grammar.switches,
    a.short.isSome = true → a.short = b.short → a = b
  equals : ∀ a ∈ grammar.switches, '=' ∉ a.long.toList
  dash : ∀ a ∈ grammar.switches, a.short ≠ some '-'
  word : ∀ name ∈ grammar.words, ∀ a ∈ grammar.switches, a.long ≠ name

variable {grammar}

/-- A flag is spelled without a value. -/
theorem Spelling.eq_empty_of_flag {switch : Switch} {value : String} {words : List String}
    (h : grammar.Spelling switch value words) (hkind : switch.kind = .flag) : value = "" := by
  have hnone (hvalue : switch.kind.takesValue = true) : value = "" := by
    rw [hkind] at hvalue
    cases hvalue
  cases h with
  | longFlag hflag => rfl
  | shortFlag hflag hflags hshort => rfl
  | longEquals hvalue => exact hnone hvalue
  | shortEquals hvalue hflags hshort => exact hnone hvalue
  | shortAttached hvalue hflags hshort hne hhead => exact hnone hvalue
  | next hvalue hname => exact hnone hvalue

end Grammar

namespace Reading

variable {grammar : Grammar} {r next : Reading} {switch : Switch} {value : String}

/-! ## What is read stands among the arguments -/

/-- A value that is there after one was given was there before, or it is the one. -/
theorem get?_of_give (hg : grammar.IsUnambiguous) {other : Switch} {found : String}
    (hmem : switch ∈ grammar.switches) (hother : other ∈ grammar.switches)
    (h : r.give switch.long value = .ok next) (hget : next.get? other.long = some found) :
    r.get? other.long = some found ∨ other = switch ∧ found = value := by
  rw [get?_give h] at hget
  split at hget
  · rename_i hlong
    cases hget
    exact .inr ⟨hg.eq_of_long other hother switch hmem hlong, rfl⟩
  · exact .inl hget

/-- What one argument adds to a reading that waits for no value: it spells the switches that it
gives values, and it names the switch that waits for one afterwards. -/
structure Adds (grammar : Grammar) (arg : String) (r next : Reading) : Prop where
  given : ∀ switch ∈ grammar.switches, ∀ value, next.get? switch.long = some value →
    r.get? switch.long = some value ∨ grammar.Spelling switch value [arg]
  awaiting : ∀ switch, next.awaiting = some switch → switch ∈ grammar.switches ∧
    switch.kind.takesValue = true ∧ grammar.Naming switch arg

theorem adds_of_give (hg : grammar.IsUnambiguous) {arg : String} (hmem : switch ∈ grammar.switches)
    (hspelling : grammar.Spelling switch value [arg]) (h : r.give switch.long value = .ok next) :
    Adds grammar arg r next := by
  refine ⟨fun other hother found hget => ?_, fun other hawaiting => ?_⟩
  · refine (get?_of_give hg hmem hother h hget).imp_right ?_
    rintro ⟨rfl, rfl⟩
    exact hspelling
  · rw [(give_eq_ok h).2] at hawaiting
    cases hawaiting

theorem adds_of_readLong (hg : grammar.IsUnambiguous) {arg : String} {cs : List Char}
    (harg : arg.toList = '-' :: '-' :: cs) (h : r.readLong grammar cs = .ok next) :
    Adds grammar arg r next := by
  obtain ⟨switch, hmem, hlong, hcases⟩ := readLong_cases h
  have hsplit := List.takeWhile_append_dropWhile (p := (· != '=')) (l := cs)
  obtain ⟨hrest, hkind, rfl⟩ | ⟨hrest, hkind, hbare⟩ | ⟨c, value, hrest, hvalue⟩ := hcases
  · have hname : arg = "--" ++ switch.long := by
      rw [← String.toList_inj, harg, ← hsplit, hrest, ← hlong]
      simp
    refine ⟨fun _ _ _ hget => .inl hget, fun other hawaiting => ?_⟩
    cases hawaiting
    exact ⟨hmem, hkind, hname ▸ .long⟩
  · have hname : arg = "--" ++ switch.long := by
      rw [← String.toList_inj, harg, ← hsplit, hrest, ← hlong]
      simp
    exact adds_of_give hg hmem (hname ▸ .longFlag (kind_of_giveBare hbare hkind))
      (giveBare_eq_ok hbare).2
  · have hc : c = '=' := by
      have hhead := List.head?_dropWhile_not (p := (· != '=')) cs
      rw [hrest] at hhead
      simpa using hhead
    have hname : arg = "--" ++ switch.long ++ "=" ++ String.ofList value := by
      rw [← String.toList_inj, harg, ← hsplit, hrest, ← hlong, hc]
      simp
    exact adds_of_give hg hmem (hname ▸ .longEquals (takesValue_of_giveValue hvalue))
      (giveValue_eq_ok hvalue)

/-- A value behind a short name is spelled with an equals sign or without one. -/
theorem spelling_attached {flags rest : List Char} {c : Char}
    (hkind : switch.kind.takesValue = true) (hflags : grammar.AreFlags flags)
    (hshort : switch.short = some c) (hrest : rest ≠ []) :
    grammar.Spelling switch (String.ofList (attached rest)) [cluster flags (c :: rest)] := by
  unfold attached
  split
  · rename_i value
    have hspelling : grammar.Spelling switch (String.ofList value)
        [cluster flags (c :: '=' :: (String.ofList value).toList)] :=
      .shortEquals hkind hflags hshort
    simpa using hspelling
  · rename_i hequals
    have hne : String.ofList rest ≠ "" := by simpa using hrest
    have hhead : (String.ofList rest).toList.head? ≠ some '=' := by
      rw [String.toList_ofList]
      intro hhead
      obtain ⟨tail, rfl⟩ := List.head?_eq_some_iff.mp hhead
      exact hequals tail rfl
    simpa using Grammar.Spelling.shortAttached hkind hflags hshort hne hhead

theorem adds_of_readShort (hg : grammar.IsUnambiguous) {done cs : List Char}
    (hdone : grammar.AreFlags done) (hawaiting : r.awaiting = none)
    (h : r.readShort grammar cs = .ok next) : Adds grammar (cluster done cs) r next := by
  induction cs generalizing r done with
  | nil =>
      cases h
      refine ⟨fun _ _ _ hget => .inl hget, fun other hother => ?_⟩
      rw [hawaiting] at hother
      cases hother
  | cons c rest ih =>
      obtain ⟨switch, hmem, hshort, ⟨hkind, rfl, rfl⟩ | ⟨hkind, hrest, hvalue⟩ |
        ⟨hkind, between, hbare, hread⟩⟩ := readShort_cases h
      · refine ⟨fun _ _ _ hget => .inl hget, fun other hother => ?_⟩
        cases hother
        exact ⟨hmem, hkind, .short hdone hshort⟩
      · exact adds_of_give hg hmem (spelling_attached hkind hdone hshort hrest)
          (giveValue_eq_ok hvalue)
      · -- the name is a flag, and what follows it is read as a cluster of its own
        have hflag := kind_of_giveBare hbare hkind
        have hgive := (giveBare_eq_ok hbare).2
        have hmore : grammar.AreFlags (done ++ [c]) :=
          List.forall_mem_append.mpr ⟨hdone, List.forall_mem_singleton.mpr
            ⟨switch, hmem, hshort, hflag⟩⟩
        have hfirst : Adds grammar (cluster done (c :: rest)) r between :=
          adds_of_give hg hmem (.shortFlag hflag hdone hshort) hgive
        have hothers := ih hmore (by rw [(give_eq_ok hgive).2]) hread
        have hcluster : cluster (done ++ [c]) rest = cluster done (c :: rest) := by
          simp [cluster]
        rw [hcluster] at hothers
        refine ⟨fun other hother found hget => ?_, hothers.awaiting⟩
        rcases hothers.given other hother found hget with hget | hspelling
        · exact hfirst.given other hother found hget
        · exact .inr hspelling

/-- The arguments so far give everything that has been read from them, and the last of them names
the switch that waits for a value. -/
structure Accounts (grammar : Grammar) (args : List String) (r : Reading) : Prop where
  given : ∀ switch ∈ grammar.switches, ∀ value, r.get? switch.long = some value →
    grammar.Gives args switch value
  awaiting : ∀ switch, r.awaiting = some switch → r.closed = false ∧
    switch ∈ grammar.switches ∧ switch.kind.takesValue = true ∧
    ∃ before name, args = before ++ [name] ∧ grammar.Naming switch name
  dashes : r.closed = false → "--" ∉ args

theorem beforeDashes_append {args : List String} (h : "--" ∉ args) (more : List String) :
    beforeDashes (args ++ more) = args ++ beforeDashes more :=
  List.takeWhile_append_of_pos fun _ harg => bne_iff_ne.mpr fun heq => h (heq ▸ harg)

theorem not_mem_beforeDashes (args : List String) : "--" ∉ beforeDashes args := by
  intro hmem
  have hall := List.all_eq_true.mp (List.all_takeWhile (p := (· != "--")) (l := args)) "--" hmem
  simp at hall

theorem gives_append {args : List String} (h : grammar.Gives args switch value)
    (more : List String) : grammar.Gives (args ++ more) switch value := by
  obtain ⟨words, hspelling, hinfix⟩ := h
  have hprefix : beforeDashes args <+: beforeDashes (args ++ more) := by
    unfold beforeDashes
    rw [List.takeWhile_append]
    split
    · rename_i hall
      have hself : args.takeWhile (· != "--") = args :=
        (List.takeWhile_prefix _).eq_of_length hall
      rw [hself]
      exact List.prefix_append _ _
    · exact List.prefix_refl _
  exact ⟨words, hspelling, hinfix.trans hprefix.isInfix⟩

theorem gives_of_suffix {args words : List String} (hdashes : "--" ∉ args)
    (hspelling : grammar.Spelling switch value words) (hsuffix : words <:+ args) :
    grammar.Gives args switch value := by
  have hall := beforeDashes_append hdashes []
  rw [List.append_nil] at hall
  refine ⟨words, hspelling, ?_⟩
  rw [hall]
  exact hsuffix.isInfix.trans (List.prefix_append _ _).isInfix

/-- A word says nothing of switches. -/
theorem accounts_of_giveWord (hg : grammar.IsUnambiguous) {args : List String} {arg : String}
    (haccounts : Accounts grammar args r) (hdashes : r.closed = false → arg ≠ "--")
    (h : r.giveWord grammar arg = .ok next) : Accounts grammar (args ++ [arg]) next := by
  obtain ⟨name, hname, hgive⟩ := giveWord_eq_ok h
  refine ⟨fun switch hmem value hget => ?_, fun switch hawaiting => ?_, fun hclosed => ?_⟩
  · rw [get?_give hgive, if_neg (hg.word name hname switch hmem)] at hget
    exact gives_append (haccounts.given switch hmem value hget) [arg]
  · rw [(give_eq_ok hgive).2] at hawaiting
    cases hawaiting
  · rw [(give_eq_ok hgive).2] at hclosed
    have hne := hdashes hclosed
    simpa [Ne.symm hne] using haccounts.dashes hclosed

theorem accounts_of_adds {args : List String} {arg : String}
    (haccounts : Accounts grammar args r) (hclosed : r.closed = false) (hdashes : arg ≠ "--")
    (hextends : r.Extends next) (hadds : Adds grammar arg r next) :
    Accounts grammar (args ++ [arg]) next := by
  have hnone : "--" ∉ args ++ [arg] := by
    simpa [Ne.symm hdashes] using haccounts.dashes hclosed
  refine ⟨fun switch hmem value hget => ?_, fun switch hawaiting => ?_, fun _ => hnone⟩
  · rcases hadds.given switch hmem value hget with hget | hspelling
    · exact gives_append (haccounts.given switch hmem value hget) [arg]
    · exact gives_of_suffix hnone hspelling (List.suffix_append args [arg])
  · obtain ⟨hmem, hkind, hnaming⟩ := hadds.awaiting switch hawaiting
    exact ⟨hextends.closed.trans hclosed, hmem, hkind, args, arg, rfl, hnaming⟩

/-- One argument more is accounted for. -/
theorem accounts_read (hg : grammar.IsUnambiguous) {args : List String} {arg : String}
    (haccounts : Accounts grammar args r) (h : read grammar r arg = .ok next) :
    Accounts grammar (args ++ [arg]) next := by
  cases hclosed : r.closed with
  | true =>
      refine accounts_of_giveWord hg haccounts (fun hopen => ?_) (read_of_closed hclosed h)
      rw [hclosed] at hopen
      cases hopen
  | false =>
      have hword (hlooks : looksLikeSwitch arg = false) : arg ≠ "--" := by
        rintro rfl
        revert hlooks
        decide
      obtain ⟨switch, hawaiting, hlooks, hvalue⟩ | ⟨hawaiting, ⟨rfl, rfl⟩ |
        ⟨cs, hcs, harg, hlong⟩ | ⟨c, cs, hc, harg, hshort⟩ | ⟨hlooks, hgive⟩⟩ :=
        read_cases hclosed h
      · -- the value of the switch that the last argument names
        obtain ⟨-, hmem, hkind, before, name, rfl, hnaming⟩ := haccounts.awaiting switch hawaiting
        have hgive := giveValue_eq_ok hvalue
        have hnone : "--" ∉ before ++ [name] ++ [arg] := by
          have hbefore := haccounts.dashes hclosed
          rw [List.mem_append, not_or]
          exact ⟨hbefore, by simpa using Ne.symm (hword hlooks)⟩
        refine ⟨fun other hother found hget => ?_, fun other hother => ?_, fun _ => hnone⟩
        · rcases get?_of_give hg hmem hother hgive hget with hget | ⟨rfl, rfl⟩
          · exact gives_append (haccounts.given other hother found hget) [arg]
          · refine gives_of_suffix hnone (.next hkind hnaming) ⟨before, ?_⟩
            simp
        · rw [(give_eq_ok hgive).2] at hother
          cases hother
      · refine ⟨fun switch hmem value hget => ?_, fun switch hother => ?_, fun hopen => ?_⟩
        · exact gives_append (haccounts.given switch hmem value hget) ["--"]
        · change r.awaiting = some switch at hother
          rw [hawaiting] at hother
          cases hother
        · cases hopen
      · refine accounts_of_adds haccounts hclosed ?_ (readLong_extends hlong)
          (adds_of_readLong hg harg hlong)
        rintro rfl
        cases harg
        exact hcs rfl
      · have hcluster : arg = cluster [] (c :: cs) := by
          rw [← String.toList_inj, harg]
          simp [cluster]
        refine accounts_of_adds haccounts hclosed ?_ (readShort_extends hshort)
          (hcluster ▸ adds_of_readShort hg nofun hawaiting hshort)
        rintro rfl
        cases harg
        exact hc rfl
      · exact accounts_of_giveWord hg haccounts (fun _ => hword hlooks) hgive

theorem accounts_foldlM (hg : grammar.IsUnambiguous) {args : List String}
    (h : args.foldlM (read grammar) {} = .ok r) : Accounts grammar args r := by
  induction args using List.reverseRecOn generalizing r with
  | nil =>
      cases h
      exact ⟨nofun, nofun, fun _ => List.not_mem_nil⟩
  | append_singleton args arg ih =>
      obtain ⟨between, hbetween, hlast⟩ := exists_of_foldlM_append h
      exact accounts_read hg (ih hbetween) (of_foldlM_singleton hlast)

/-! ## What stands among the arguments is read -/

/-- A long name is read where it stands. -/
theorem read_long (hclosed : r.closed = false) {arg : String} {cs : List Char} (hcs : cs ≠ [])
    (harg : arg.toList = '-' :: '-' :: cs) (h : read grammar r arg = .ok next) :
    r.readLong grammar cs = .ok next := by
  unfold read at h
  rw [hclosed, if_neg Bool.false_ne_true, harg] at h
  cases hawaiting : r.awaiting with
  | some other =>
      rw [hawaiting] at h
      cases h
  | none =>
      rw [hawaiting] at h
      cases cs with
      | nil => exact absurd rfl hcs
      | cons c rest => exact h

/-- Short names are read where they stand. -/
theorem read_short (hclosed : r.closed = false) {arg : String} {c : Char} {cs : List Char}
    (hc : c ≠ '-') (harg : arg.toList = '-' :: c :: cs) (h : read grammar r arg = .ok next) :
    r.readShort grammar (c :: cs) = .ok next := by
  unfold read at h
  rw [hclosed, if_neg Bool.false_ne_true, harg] at h
  cases hawaiting : r.awaiting with
  | some other =>
      rw [hawaiting] at h
      cases h
  | none =>
      rw [hawaiting] at h
      simpa [hc] using h

/-- The flags in front of a short name are read first. -/
theorem readShort_append (hg : grammar.IsUnambiguous) {flags cs : List Char}
    (hflags : grammar.AreFlags flags) (h : r.readShort grammar (flags ++ cs) = .ok next) :
    ∃ between, r.Extends between ∧ between.readShort grammar cs = .ok next := by
  induction flags generalizing r with
  | nil => exact ⟨r, .refl r, h⟩
  | cons c rest ih =>
      obtain ⟨⟨flag, hmem, hshort, hkind⟩, hrest⟩ := List.forall_mem_cons.mp hflags
      obtain ⟨switch, hswitch, hname, hcases⟩ := readShort_cases h
      cases hg.eq_of_short flag hmem switch hswitch (by simp [hshort]) (hshort.trans hname.symm)
      obtain ⟨hvalue, -⟩ | ⟨hvalue, -⟩ | ⟨-, between, hbare, hread⟩ := hcases
      · rw [hkind] at hvalue
        cases hvalue
      · rw [hkind] at hvalue
        cases hvalue
      · obtain ⟨last, hextends, hlast⟩ := ih hrest hread
        exact ⟨last, (give_extends (giveBare_eq_ok hbare).2).trans hextends, hlast⟩

/-- The flags of a cluster are read, and then the name behind them. -/
theorem read_cluster (hg : grammar.IsUnambiguous) (hclosed : r.closed = false)
    (hmem : switch ∈ grammar.switches) {flags rest : List Char} {c : Char}
    (hflags : grammar.AreFlags flags) (hshort : switch.short = some c)
    (h : read grammar r (cluster flags (c :: rest)) = .ok next) :
    ∃ between, r.Extends between ∧
      ((switch.kind.takesValue = true ∧ rest = [] ∧
          next = { between with awaiting := some switch }) ∨
        (switch.kind.takesValue = true ∧ rest ≠ [] ∧
          between.giveValue switch (String.ofList (attached rest)) = .ok next) ∨
        (switch.kind.takesValue = false ∧ ∃ after, between.giveBare switch = .ok after ∧
          after.readShort grammar rest = .ok next)) := by
  have hdash {d : Char} (hd : ∃ other ∈ grammar.switches, other.short = some d) : d ≠ '-' := by
    rintro rfl
    obtain ⟨other, hother, hshort⟩ := hd
    exact hg.dash other hother hshort
  have hread : r.readShort grammar (flags ++ c :: rest) = .ok next := by
    cases flags with
    | nil => exact read_short hclosed (hdash ⟨switch, hmem, hshort⟩) (by simp [cluster]) h
    | cons f more =>
        obtain ⟨flag, hflag, hname, -⟩ := hflags f List.mem_cons_self
        exact read_short hclosed (hdash ⟨flag, hflag, hname⟩) (by simp [cluster]) h
  obtain ⟨between, hextends, hlast⟩ := readShort_append hg hflags hread
  obtain ⟨found, hfound, hname, hcases⟩ := readShort_cases hlast
  cases hg.eq_of_short switch hmem found hfound (by simp [hshort]) (hshort.trans hname.symm)
  exact ⟨between, hextends, hcases⟩

/-- A long name is found again in front of an equals sign. -/
theorem readLong_append (hg : grammar.IsUnambiguous) (hmem : switch ∈ grammar.switches)
    {rest : List Char} (hrest : ∀ c ∈ rest.head?, c = '=')
    (h : r.readLong grammar (switch.long.toList ++ rest) = .ok next) :
    (rest = [] ∧ switch.kind.takesValue = true ∧ next = { r with awaiting := some switch }) ∨
      (rest = [] ∧ switch.kind.takesValue = false ∧ r.giveBare switch = .ok next) ∨
      ∃ c value, rest = c :: value ∧ r.giveValue switch (String.ofList value) = .ok next := by
  have hall : ∀ c ∈ switch.long.toList, (c != '=') = true := fun c hc =>
    bne_iff_ne.mpr fun heq => hg.equals switch hmem (heq ▸ hc)
  have hends : rest.takeWhile (· != '=') = [] ∧ rest.dropWhile (· != '=') = rest := by
    cases rest with
    | nil => exact ⟨rfl, rfl⟩
    | cons c tail =>
        obtain rfl := hrest c rfl
        exact ⟨rfl, rfl⟩
  obtain ⟨found, hfound, hlong, hcases⟩ := readLong_cases h
  rw [List.takeWhile_append_of_pos hall, hends.1, List.append_nil, String.toList_inj] at hlong
  cases hg.eq_of_long found hfound switch hmem hlong
  rwa [List.dropWhile_append_of_pos hall, hends.2] at hcases

/-- A long name alone, and what it does. -/
theorem read_longName (hg : grammar.IsUnambiguous) (hclosed : r.closed = false)
    (hmem : switch ∈ grammar.switches) (hdashes : "--" ++ switch.long ≠ "--")
    (h : read grammar r ("--" ++ switch.long) = .ok next) :
    (switch.kind.takesValue = true ∧ next = { r with awaiting := some switch }) ∨
      switch.kind.takesValue = false ∧ r.giveBare switch = .ok next := by
  have hne : switch.long.toList ++ [] ≠ [] := by
    rw [List.append_nil]
    exact fun hnil => hdashes (by rw [String.toList_eq_nil_iff.mp hnil]; rfl)
  have hread := read_long hclosed hne (by simp) h
  obtain ⟨-, hkind, rfl⟩ | ⟨-, hkind, hbare⟩ | ⟨c, value, hvalue, -⟩ :=
    readLong_append hg hmem (by simp) hread
  · exact .inl ⟨hkind, rfl⟩
  · exact .inr ⟨hkind, hbare⟩
  · cases hvalue

/-- A switch that is named without its value waits for it. -/
theorem read_naming (hg : grammar.IsUnambiguous) (hclosed : r.closed = false)
    (hmem : switch ∈ grammar.switches) (hkind : switch.kind.takesValue = true) {name : String}
    (hdashes : name ≠ "--") (hnaming : grammar.Naming switch name)
    (h : read grammar r name = .ok next) :
    next.awaiting = some switch ∧ next.closed = false := by
  have hopen : next.closed = false := ((read_extends h).2 hdashes).trans hclosed
  cases hnaming with
  | long =>
      obtain ⟨-, rfl⟩ | ⟨hnone, -⟩ := read_longName hg hclosed hmem hdashes h
      · exact ⟨rfl, hopen⟩
      · rw [hkind] at hnone
        cases hnone
  | short hflags hshort =>
      obtain ⟨between, -, ⟨-, -, rfl⟩ | ⟨-, hne, -⟩ | ⟨hnone, -⟩⟩ :=
        read_cluster hg hclosed hmem hflags hshort h
      · exact ⟨rfl, hopen⟩
      · exact absurd rfl hne
      · rw [hkind] at hnone
        cases hnone

/-- A switch that is spelled has its value afterwards. -/
theorem get?_of_spelling (hg : grammar.IsUnambiguous) (hclosed : r.closed = false)
    (hmem : switch ∈ grammar.switches) {words : List String} (hdashes : "--" ∉ words)
    (hspelling : grammar.Spelling switch value words)
    (h : words.foldlM (read grammar) r = .ok next) : next.get? switch.long = some value := by
  cases hspelling with
  | longFlag hkind =>
      have hread := of_foldlM_singleton h
      obtain ⟨hvalue, -⟩ | ⟨-, hbare⟩ := read_longName hg hclosed hmem
        (fun heq => hdashes (by rw [heq]; exact List.mem_cons_self)) hread
      · rw [hkind] at hvalue
        cases hvalue
      · exact get?_of_give_self (giveBare_eq_ok hbare).2
  | shortFlag hkind hflags hshort =>
      obtain ⟨between, -, ⟨hvalue, -⟩ | ⟨hvalue, -⟩ | ⟨-, after, hbare, hrest⟩⟩ :=
        read_cluster hg hclosed hmem hflags hshort (of_foldlM_singleton h)
      · rw [hkind] at hvalue
        cases hvalue
      · rw [hkind] at hvalue
        cases hvalue
      · exact (readShort_extends hrest).kept (get?_of_give_self (giveBare_eq_ok hbare).2)
  | longEquals hkind =>
      have hne : switch.long.toList ++ '=' :: value.toList ≠ [] :=
        List.append_ne_nil_of_right_ne_nil _ (List.cons_ne_nil _ _)
      have hread := read_long hclosed hne (by simp) (of_foldlM_singleton h)
      obtain ⟨hnil, -⟩ | ⟨hnil, -⟩ | ⟨c, text, htext, hvalue⟩ :=
        readLong_append hg hmem (by simp) hread
      · cases hnil
      · cases hnil
      · cases htext
        have hgive := giveValue_eq_ok hvalue
        rw [String.ofList_toList] at hgive
        exact get?_of_give_self hgive
  | shortEquals hkind hflags hshort =>
      obtain ⟨between, -, ⟨-, hnil, -⟩ | ⟨-, -, hvalue⟩ | ⟨hnone, -⟩⟩ :=
        read_cluster hg hclosed hmem hflags hshort (of_foldlM_singleton h)
      · cases hnil
      · have hgive := giveValue_eq_ok hvalue
        rw [attached, String.ofList_toList] at hgive
        exact get?_of_give_self hgive
      · rw [hkind] at hnone
        cases hnone
  | shortAttached hkind hflags hshort hne hhead =>
      obtain ⟨between, -, ⟨-, hnil, -⟩ | ⟨-, -, hvalue⟩ | ⟨hnone, -⟩⟩ :=
        read_cluster hg hclosed hmem hflags hshort (of_foldlM_singleton h)
      · exact absurd (String.toList_eq_nil_iff.mp hnil) hne
      · have hgive := giveValue_eq_ok hvalue
        have hattached : attached value.toList = value.toList := by
          unfold attached
          split
          · rename_i rest heq
            rw [heq] at hhead
            exact absurd rfl hhead
          · rfl
        rw [hattached, String.ofList_toList] at hgive
        exact get?_of_give_self hgive
      · rw [hkind] at hnone
        cases hnone
  | next hkind hnaming =>
      rename_i name
      obtain ⟨between, hname, hlast⟩ := exists_of_foldlM_cons h
      have hvalue := of_foldlM_singleton hlast
      obtain ⟨hawaiting, hopen⟩ := read_naming hg hclosed hmem hkind
        (fun heq => hdashes (heq ▸ List.mem_cons_self)) hnaming hname
      obtain ⟨other, hother, -, hgive⟩ | ⟨hnone, -⟩ := read_cases hopen hvalue
      · rw [hawaiting] at hother
        cases hother
        exact get?_of_give_self (giveValue_eq_ok hgive)
      · rw [hawaiting] at hnone
        cases hnone

/-- What has been read of the arguments of a command is exactly what they give. -/
theorem get?_eq_some_iff_gives (hg : grammar.IsUnambiguous) {args : List String}
    (hmem : switch ∈ grammar.switches) (h : readAll grammar args = .ok r) :
    r.get? switch.long = some value ↔ grammar.Gives args switch value := by
  have hlast := foldlM_of_readAll h
  constructor
  · exact (accounts_foldlM hg hlast).given switch hmem value
  · rintro ⟨words, hspelling, before, after, hwords⟩
    have hargs : args = before ++ words ++ (after ++ args.dropWhile (· != "--")) := by
      rw [← List.append_assoc, hwords]
      exact List.takeWhile_append_dropWhile.symm
    have hdashes : "--" ∉ before ++ words ++ after := hwords ▸ not_mem_beforeDashes args
    simp only [List.mem_append, not_or] at hdashes
    rw [hargs] at hlast
    obtain ⟨between, hbefore, hlast⟩ := exists_of_foldlM_append hlast
    obtain ⟨first, hfirst, hbefore⟩ := exists_of_foldlM_append hbefore
    have hopen := (foldlM_extends hfirst).2 hdashes.1.1
    exact (foldlM_extends hlast).1
      (get?_of_spelling hg hopen hmem hdashes.1.2 hspelling hbefore)

theorem has_eq_true_iff_gives (hg : grammar.IsUnambiguous) {args : List String}
    (hmem : switch ∈ grammar.switches) (hkind : switch.kind = .flag)
    (h : readAll grammar args = .ok r) :
    r.has switch.long = true ↔ grammar.Gives args switch "" := by
  rw [has, Option.isSome_iff_exists]
  constructor
  · rintro ⟨value, hget⟩
    have hgives := (get?_eq_some_iff_gives hg hmem h).mp hget
    have hvalue : value = "" := by
      obtain ⟨words, hspelling, -⟩ := hgives
      exact hspelling.eq_empty_of_flag hkind
    rwa [hvalue] at hgives
  · exact fun hgives => ⟨"", (get?_eq_some_iff_gives hg hmem h).mpr hgives⟩

end Reading

end CommandLine
end SolidScript
