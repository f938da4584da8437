import SolidScript.Json.Tree
import SolidScript.Proofs.Json.Spelled

/-!
# Numbers of a text are finite

Whatever a text is, each number in what is read of it is finite: the cutter makes tokens of finite
numbers only (`allFinite_tokens`), the machine that builds drafts puts in what it finds in tokens
(`allFinite_ofText`), and a tree has the numbers of its draft.  `Within` says of a tree that its
numbers are finite and that it has no more levels than are left, which is what a reader leaves
behind (`within_of_read?`).
-/

namespace SolidScript
namespace Json

/-! ## Tokens -/

/-- A number that the token holds is finite. -/
def Token.AllFinite : Token → Prop
  | .number (some amount) => amount.toNumber.isFinite = true
  | _ => True

/-- A token that the mode holds ready has finite numbers. -/
def Mode.AllFinite : Mode → Prop
  | .word _ token => token.AllFinite
  | _ => True

theorem allFinite_numberToken (seen : List Char) : (numberToken seen).AllFinite := by
  unfold numberToken
  cases hamount : (Numeral.ofChars seen.reverse).amount with
  | none => trivial
  | some amount => exact Numeral.isFinite_of_amount_ofChars hamount

theorem allFinite_start {c : Char} {new : List Token} {mode : Mode}
    (h : start c = some (new, mode)) : (∀ t ∈ new, t.AllFinite) ∧ mode.AllFinite := by
  -- each character has its own outcome, and in none of them is there a number
  have hcase : ∀ {p : Prop} [Decidable p] {a : List Token × Mode}
      {b : Option (List Token × Mode)}, ((∀ t ∈ a.1, t.AllFinite) ∧ a.2.AllFinite) →
      (∀ out ∈ b, (∀ t ∈ out.1, t.AllFinite) ∧ out.2.AllFinite) →
      ∀ out ∈ (if p then some a else b), (∀ t ∈ out.1, t.AllFinite) ∧ out.2.AllFinite := by
    intro p _ a b ha hb
    split
    · exact fun out hout => Option.some.inj hout ▸ ha
    · exact hb
  have hall : ∀ out ∈ start c, (∀ t ∈ out.1, t.AllFinite) ∧ out.2.AllFinite := by
    unfold start
    iterate 14 refine hcase ⟨by simp [Token.AllFinite], trivial⟩ ?_
    exact fun _ hout => by cases hout
  exact hall (new, mode) h

theorem allFinite_step {mode mode' : Mode} {c : Char} {new : List Token} (hmode : mode.AllFinite)
    (h : step mode c = some (new, mode')) : (∀ t ∈ new, t.AllFinite) ∧ mode'.AllFinite := by
  have hnone : ∀ t ∈ ([] : List Token), t.AllFinite := fun _ ht => absurd ht List.not_mem_nil
  cases mode with
  | between => exact allFinite_start h
  | word letters token =>
      rcases letters with _ | ⟨letter, _ | ⟨next, rest⟩⟩
      · cases h
      · simp only [step] at h
        split at h
        · cases h
          exact ⟨List.forall_mem_singleton.mpr hmode, trivial⟩
        · cases h
      · simp only [step] at h
        split at h
        · cases h
          exact ⟨hnone, hmode⟩
        · cases h
  | number place seen =>
      simp only [step] at h
      split at h
      · cases h
        exact ⟨hnone, trivial⟩
      · split at h
        · -- the number ends and the character starts something else
          obtain ⟨⟨more, after⟩, hstart, hsame⟩ := Option.map_eq_some_iff.mp h
          cases hsame
          obtain ⟨hmore, hafter⟩ := allFinite_start hstart
          exact ⟨List.forall_mem_cons.mpr ⟨allFinite_numberToken seen, hmore⟩, hafter⟩
        · cases h
  | text r =>
      simp only [step] at h
      split_ifs at h <;> (cases h; simp [Token.AllFinite, Mode.AllFinite])
  | escape r =>
      simp only [step] at h
      split at h
      · cases h
        exact ⟨hnone, trivial⟩
      · obtain ⟨d, -, hsame⟩ := Option.map_eq_some_iff.mp h
        cases hsame
        exact ⟨hnone, trivial⟩
  | code r left value =>
      simp only [step] at h
      split at h
      · cases h
      · split at h <;> (cases h; exact ⟨hnone, trivial⟩)

namespace Scan

/-- All numbers found so far are finite, and so is what the mode holds ready. -/
structure AllFinite (s : Scan) : Prop where
  found : ∀ t ∈ s.found, t.AllFinite
  mode : ∀ mode ∈ s.mode, mode.AllFinite

theorem allFinite_add {found new : List Token} (hfound : ∀ t ∈ found, t.AllFinite)
    (hnew : ∀ t ∈ new, t.AllFinite) : ∀ t ∈ add found new, t.AllFinite :=
  List.forall_mem_append.mpr ⟨fun t ht => hnew t (List.mem_reverse.mp ht), hfound⟩

theorem allFinite_close (mode : Mode) (next : Option Char) :
    ∀ t ∈ close mode next, t.AllFinite := by
  have hbad : ∀ t ∈ [Token.bad], t.AllFinite := List.forall_mem_singleton.mpr trivial
  unfold close
  split
  · exact fun _ ht => absurd ht List.not_mem_nil
  · split
    · exact List.forall_mem_singleton.mpr (allFinite_numberToken _)
    · exact hbad
  · exact hbad

theorem AllFinite.advance {s : Scan} (h : s.AllFinite) (c : Char) : (s.advance c).AllFinite := by
  obtain ⟨mode, found⟩ := s
  cases mode with
  | none => exact h
  | some mode =>
      have hmode := h.mode mode rfl
      unfold Scan.advance
      dsimp only
      split
      · rename_i new mode' hstep
        obtain ⟨hnew, hmode'⟩ := allFinite_step hmode hstep
        exact ⟨allFinite_add h.found hnew, fun m hm => Option.some.inj hm ▸ hmode'⟩
      · have hclosed := allFinite_add h.found (allFinite_close mode (some c))
        exact ⟨List.forall_mem_cons.mpr ⟨trivial, hclosed⟩, fun m hm => by cases hm⟩

theorem AllFinite.foldl {s : Scan} (h : s.AllFinite) (cs : List Char) :
    (cs.foldl Scan.advance s).AllFinite := by
  induction cs generalizing s with
  | nil => exact h
  | cons c cs ih => exact ih (h.advance c)

theorem AllFinite.finish {s : Scan} (h : s.AllFinite) : ∀ t ∈ s.finish, t.AllFinite := by
  obtain ⟨mode, found⟩ := s
  intro t ht
  cases mode with
  | none => exact h.found t (List.mem_reverse.mp ht)
  | some mode =>
      exact allFinite_add h.found (allFinite_close mode none) t (List.mem_reverse.mp ht)

end Scan

theorem allFinite_tokens (text : String) : ∀ t ∈ tokens text, t.AllFinite := by
  have hstart : Scan.AllFinite ⟨some .between, []⟩ :=
    ⟨fun _ ht => absurd ht List.not_mem_nil, fun m hm => Option.some.inj hm ▸ trivial⟩
  exact (hstart.foldl text.toList).finish

/-! ## Drafts -/

mutual
/-- All numbers in a draft are finite. -/
def Draft.AllFinite : Draft → Prop
  | .number (some amount) => amount.toNumber.isFinite = true
  | .array items => items.AllFinite
  | .object fields => fields.AllFinite
  | _ => True

def Items.AllFinite : Items → Prop
  | .item value rest => value.AllFinite ∧ rest.AllFinite
  | _ => True

def Fields.AllFinite : Fields → Prop
  | .field _ value rest => value.AllFinite ∧ rest.AllFinite
  | _ => True
end

theorem Items.allFinite_before {seen : List Draft} (hseen : ∀ d ∈ seen, d.AllFinite)
    (rest : Items) (h : rest.AllFinite) : (Items.before rest seen).AllFinite := by
  induction seen generalizing rest with
  | nil => exact h
  | cons d seen ih =>
      rw [List.forall_mem_cons] at hseen
      exact ih hseen.2 (.item d rest) ⟨hseen.1, h⟩

/-- All numbers in fields that have been seen are finite. -/
def SeenFinite (seen : List (Option String × Draft)) : Prop := ∀ field ∈ seen, field.2.AllFinite

theorem SeenFinite.cons {seen : List (Option String × Draft)} (h : SeenFinite seen)
    (name : Option String) {d : Draft} (hd : d.AllFinite) : SeenFinite ((name, d) :: seen) :=
  List.forall_mem_cons.mpr ⟨hd, h⟩

theorem SeenFinite.before {seen : List (Option String × Draft)} (hseen : SeenFinite seen)
    (rest : Fields) (h : rest.AllFinite) : (Fields.before rest seen).AllFinite := by
  induction seen generalizing rest with
  | nil => exact h
  | cons field seen ih =>
      obtain ⟨hfield, hseen⟩ := List.forall_mem_cons.mp hseen
      exact ih hseen (.field field.1 field.2 rest) ⟨hfield, h⟩

def Container.AllFinite : Container → Prop
  | .items seen => ∀ d ∈ seen, d.AllFinite
  | .fields seen _ => SeenFinite seen

/-- All numbers in what is still open are finite. -/
def StackFinite (stack : List Container) : Prop := ∀ container ∈ stack, container.AllFinite

theorem StackFinite.closeAround {stack : List Container} (h : StackFinite stack) {d : Draft}
    (hd : d.AllFinite) : (closeAround d stack).AllFinite := by
  induction stack generalizing d with
  | nil => exact hd
  | cons container stack ih =>
      obtain ⟨hcontainer, hstack⟩ := List.forall_mem_cons.mp h
      cases container with
      | items seen =>
          have hall := List.forall_mem_cons.mpr ⟨hd, hcontainer⟩
          exact ih hstack (Items.allFinite_before hall .broken trivial)
      | fields seen name =>
          have hall : SeenFinite ((name, d) :: seen) := SeenFinite.cons hcontainer name hd
          exact ih hstack (hall.before .broken trivial)

def Expecting.AllFinite : Expecting → Prop
  | .value _ => True
  | .after d => d.AllFinite
  | .name seen _ => SeenFinite seen
  | .colon seen _ => SeenFinite seen

/-- The invariant of the machine. -/
def Progress.AllFinite : Progress → Prop
  | .running expecting stack => expecting.AllFinite ∧ StackFinite stack
  | .stopped reading => reading.root.AllFinite

section Steps

variable {stack : List Container} {token : Token}

theorem allFinite_stepValue (orEnd : Bool) (hstack : StackFinite stack)
    (htoken : token.AllFinite) : (stepValue orEnd stack token).AllFinite := by
  have hbreak : (breakOff .broken stack).AllFinite := hstack.closeAround trivial
  cases token with
  | null => exact ⟨trivial, hstack⟩
  | bool b => exact ⟨trivial, hstack⟩
  | number amount => cases amount <;> exact ⟨htoken, hstack⟩
  | text s => exact ⟨trivial, hstack⟩
  | openArray =>
      exact ⟨trivial, List.forall_mem_cons.mpr ⟨fun _ h => absurd h List.not_mem_nil, hstack⟩⟩
  | openObject => exact ⟨fun _ h => absurd h List.not_mem_nil, hstack⟩
  | closeArray =>
      unfold stepValue
      dsimp only
      split
      · exact ⟨trivial, (List.forall_mem_cons.mp hstack).2⟩
      · exact hbreak
  | closeObject => exact hbreak
  | comma => exact hbreak
  | colon => exact hbreak
  | bad => exact hbreak

theorem allFinite_stepAfter {d : Draft} (hd : d.AllFinite) (hstack : StackFinite stack)
    (token : Token) : (stepAfter d stack token).AllFinite := by
  cases stack with
  | nil => exact hd
  | cons container rest =>
      obtain ⟨hcontainer, hrest⟩ := List.forall_mem_cons.mp hstack
      cases container with
      | items seen =>
          have hall : ∀ e ∈ d :: seen, e.AllFinite := List.forall_mem_cons.mpr ⟨hd, hcontainer⟩
          unfold stepAfter
          dsimp only
          split
          · exact ⟨trivial, List.forall_mem_cons.mpr ⟨hall, hrest⟩⟩
          · exact ⟨Items.allFinite_before hall .ended trivial, hrest⟩
          · exact StackFinite.closeAround hrest (Items.allFinite_before hall .broken trivial)
      | fields seen name =>
          have hall : SeenFinite ((name, d) :: seen) := SeenFinite.cons hcontainer name hd
          unfold stepAfter
          dsimp only
          split
          · exact ⟨hall, hrest⟩
          · exact ⟨hall.before .ended trivial, hrest⟩
          · exact StackFinite.closeAround hrest (hall.before .broken trivial)

theorem allFinite_stepName {seen : List (Option String × Draft)} (hseen : SeenFinite seen)
    (orEnd : Bool) (hstack : StackFinite stack) (token : Token) :
    (stepName seen orEnd stack token).AllFinite := by
  have hfields : (Draft.object (Fields.before .broken seen)).AllFinite :=
    hseen.before .broken trivial
  have hbreak := hstack.closeAround hfields
  unfold stepName
  split
  · exact ⟨hseen, hstack⟩
  · split
    · exact ⟨trivial, hstack⟩
    · exact hbreak
  · exact hbreak

theorem allFinite_stepColon {seen : List (Option String × Draft)} (hseen : SeenFinite seen)
    (name : Option String) (hstack : StackFinite stack) (token : Token) :
    (stepColon seen name stack token).AllFinite := by
  have hfields : (Draft.object (Fields.before .broken ((name, .broken) :: seen))).AllFinite :=
    (hseen.cons name (d := .broken) trivial).before .broken trivial
  unfold stepColon
  split
  · exact ⟨trivial, List.forall_mem_cons.mpr ⟨hseen, hstack⟩⟩
  · exact hstack.closeAround hfields

end Steps

namespace Progress

theorem AllFinite.advance {progress : Progress} (h : progress.AllFinite) {token : Token}
    (htoken : token.AllFinite) : (progress.advance token).AllFinite := by
  cases progress with
  | stopped reading => exact h
  | running expecting stack =>
      obtain ⟨hexpecting, hstack⟩ := h
      cases expecting with
      | value orEnd => exact allFinite_stepValue orEnd hstack htoken
      | after d => exact allFinite_stepAfter hexpecting hstack token
      | name seen orEnd => exact allFinite_stepName hexpecting orEnd hstack token
      | colon seen name => exact allFinite_stepColon hexpecting name hstack token

theorem AllFinite.foldl {progress : Progress} (h : progress.AllFinite) {ts : List Token}
    (hts : ∀ t ∈ ts, t.AllFinite) : (ts.foldl Progress.advance progress).AllFinite := by
  induction ts generalizing progress with
  | nil => exact h
  | cons t ts ih =>
      rw [List.forall_mem_cons] at hts
      exact ih (h.advance hts.1) hts.2

theorem AllFinite.finish {progress : Progress} (h : progress.AllFinite) :
    progress.finish.root.AllFinite := by
  have hbad : (progress.advance .bad).AllFinite := h.advance trivial
  unfold Progress.finish
  split
  · exact h.1
  · split
    · rename_i reading hstopped
      rw [hstopped] at hbad
      exact hbad
    · trivial

end Progress

theorem allFinite_ofText (text : String) : (Reading.ofText text).root.AllFinite := by
  have hstart : Progress.AllFinite (.running (.value false) []) :=
    ⟨trivial, fun _ h => absurd h List.not_mem_nil⟩
  exact (hstart.foldl (allFinite_tokens text)).finish

/-! ## Trees -/

mutual
/-- Arrays and objects nest no deeper than `room` in a tree, and its numbers are finite. -/
def Within (room : Nat) : Json → Prop
  | number amount => amount.toNumber.isFinite = true
  | array items =>
    match room with
    | 0 => False
    | inner + 1 => WithinItems inner items
  | object fields =>
    match room with
    | 0 => False
    | inner + 1 => WithinFields inner fields
  | _ => True

def WithinItems (room : Nat) : List Json → Prop
  | [] => True
  | item :: rest => Within room item ∧ WithinItems room rest

def WithinFields (room : Nat) : List (String × Json) → Prop
  | [] => True
  | (_, value) :: rest => Within room value ∧ WithinFields room rest
end

/-- An array takes one of the levels. -/
theorem exists_withinItems {room : Nat} {items : List Json} (h : (array items).Within room) :
    ∃ inner, room = inner + 1 ∧ WithinItems inner items := by
  cases room with
  | zero => exact h.elim
  | succ inner => exact ⟨inner, rfl, h⟩

/-- An object takes one of the levels. -/
theorem exists_withinFields {room : Nat} {fields : List (String × Json)}
    (h : (object fields).Within room) : ∃ inner, room = inner + 1 ∧ WithinFields inner fields := by
  cases room with
  | zero => exact h.elim
  | succ inner => exact ⟨inner, rfl, h⟩

theorem withinFields_insertField {room : Nat} (name : String) {json : Json}
    (hjson : json.Within room) {fields : List (String × Json)} (h : WithinFields room fields) :
    WithinFields room (insertField name json fields) := by
  induction fields with
  | nil => exact ⟨hjson, h⟩
  | cons field rest ih =>
      obtain ⟨other, kept⟩ := field
      rw [insertField]
      split
      · exact ⟨hjson, h.2⟩
      · split
        · exact ⟨hjson, h⟩
        · exact ⟨h.1, ih h.2⟩

mutual
theorem within_of_ofDraft? {room : Nat} {d : Draft} {json : Json} (hd : d.AllFinite)
    (h : ofDraft? room d = some json) : json.Within room := by
  cases d with
  | broken => cases h
  | null => cases h; trivial
  | bool b => cases h; trivial
  | number amount =>
      obtain ⟨amount, rfl, rfl⟩ := Option.map_eq_some_iff.mp h
      exact hd
  | text s =>
      obtain ⟨s, -, rfl⟩ := Option.map_eq_some_iff.mp h
      trivial
  | array items =>
      cases room with
      | zero => cases h
      | succ inner =>
          obtain ⟨list, hlist, rfl⟩ := Option.map_eq_some_iff.mp h
          exact withinItems_of_ofItems? hd hlist
  | object fields =>
      cases room with
      | zero => cases h
      | succ inner =>
          obtain ⟨list, hlist, rfl⟩ := Option.map_eq_some_iff.mp h
          have hnone : WithinFields inner [] := trivial
          exact withinFields_of_ofFields? hd hnone hlist

theorem withinItems_of_ofItems? {room : Nat} {items : Items} {list : List Json}
    (hitems : items.AllFinite) (h : ofItems? room items = some list) :
    WithinItems room list := by
  cases items with
  | ended => cases h; trivial
  | broken => cases h
  | item value rest =>
      rw [ofItems?] at h
      split at h
      · cases h
      · rename_i json hjson
        obtain ⟨others, hothers, rfl⟩ := Option.map_eq_some_iff.mp h
        exact ⟨within_of_ofDraft? hitems.1 hjson, withinItems_of_ofItems? hitems.2 hothers⟩

theorem withinFields_of_ofFields? {room : Nat} {sofar list : List (String × Json)}
    {fields : Fields} (hfields : fields.AllFinite) (hsofar : WithinFields room sofar)
    (h : ofFields? room sofar fields = some list) : WithinFields room list := by
  cases fields with
  | ended => cases h; exact hsofar
  | broken => cases h
  | field name value rest =>
      cases name with
      | none => cases h
      | some s =>
          cases hjson : ofDraft? room value with
          | none => simp [ofFields?, hjson] at h
          | some json =>
              simp only [ofFields?, hjson] at h
              exact withinFields_of_ofFields? hfields.2
                (withinFields_insertField s (within_of_ofDraft? hfields.1 hjson) hsofar) h
end

/-- A tree that is read is within the depth that a reader goes. -/
theorem within_of_read? {text : String} {json : Json} (h : read? text = some json) :
    json.Within depthLimit := by
  unfold read? at h
  dsimp only at h
  split at h
  · cases h
  · exact within_of_ofDraft? (allFinite_ofText text) h

end Json
end SolidScript
