import Mathlib.Tactic
import SolidScript.Script.Document

/-!
# Scripts of equal trees

Trees are equal when they have the same shape and their numbers are equal as numbers
(`Node.equal`).  That is not the same as being the same tree: the two zeros are equal, and a
not-a-number is not equal to itself.  No script tells equal trees apart, for the zeros have one
text.  So they have the same lines in either style, or the same first fault
(`nodesLines_of_equalAll`).
-/

namespace SolidScript
namespace Script

/-- Equal numbers have one text, and those without a text are the same number. -/
theorem numeral?_of_equal {x y : Number} (h : x.equal y = true) :
    numeral? x = numeral? y ∧ (numeral? x = none → x = y) := by
  have hzero : ∀ (a b : Bool) (code : Fin magnitudeCount), code.val = 0 →
      Number.trimmed 10 a code = Number.trimmed 10 b code := by
    intro a b code hcode
    rw [hcode]
    cases a <;> cases b <;> decide +kernel
  cases x with
  | nan => cases y <;> cases h
  | infinity a =>
      cases y with
      | infinity b =>
          have hsign : a = b := by simpa [Number.equal] using h
          rw [hsign]
          exact ⟨rfl, fun _ => rfl⟩
      | nan => cases h
      | finite b d => cases h
  | finite a c =>
      cases y with
      | finite b d =>
          obtain ⟨rfl, hsign⟩ : c = d ∧ (a = b ∨ c.val = 0) := by
            simpa [Number.equal] using h
          refine ⟨congrArg some ?_, fun hnone => by cases hnone⟩
          rcases hsign with rfl | hcode
          · rfl
          · exact hzero a b c hcode
      | nan => cases h
      | infinity b => cases h

mutual
/-- Equal values have one text, or the same fault. -/
theorem valueText_of_equal {node param : String} {path : List Nat} {v w : Value}
    (h : v.equal w = true) : valueText node param path v = valueText node param path w := by
  cases v with
  | undef =>
      cases w with
      | undef => rfl
      | _ => cases h
  | bool a =>
      cases w with
      | bool b => rw [show a = b from beq_iff_eq.mp h]
      | _ => cases h
  | number x =>
      cases w with
      | number y =>
          obtain ⟨htext, hsame⟩ := numeral?_of_equal h
          rw [valueText, valueText, ← htext]
          cases hnone : numeral? x with
          | none => rw [hsame hnone]
          | some text => rfl
      | _ => cases h
  | text s =>
      cases w with
      | text t => rw [show s = t from beq_iff_eq.mp h]
      | _ => cases h
  | vector xs =>
      cases w with
      | vector ys => rw [valueText, valueText, itemTexts_of_equalAll h]
      | _ => cases h

theorem itemTexts_of_equalAll {node param : String} {path : List Nat} {index : Nat}
    {xs ys : List Value} (h : Value.equalAll xs ys = true) :
    itemTexts node param path index xs = itemTexts node param path index ys := by
  cases xs with
  | nil =>
      cases ys with
      | nil => rfl
      | cons y ys => cases h
  | cons x xs =>
      cases ys with
      | nil => cases h
      | cons y ys =>
          obtain ⟨hfirst, hrest⟩ := (Bool.and_eq_true _ _).mp h
          rw [itemTexts, itemTexts, valueText_of_equal hfirst, itemTexts_of_equalAll hrest]
end

theorem argumentTexts_of_equalEntries {node : String} {xs ys : List (String × Value)}
    (h : Params.equalEntries xs ys = true) : argumentTexts node xs = argumentTexts node ys := by
  induction xs generalizing ys with
  | nil =>
      cases ys with
      | nil => rfl
      | cons y ys => cases h
  | cons x xs ih =>
      cases ys with
      | nil => cases h
      | cons y ys =>
          obtain ⟨hfirst, hrest⟩ := (Bool.and_eq_true _ _).mp h
          obtain ⟨hname, hvalue⟩ := (Bool.and_eq_true _ _).mp hfirst
          obtain ⟨name, v⟩ := x
          obtain ⟨other, w⟩ := y
          obtain rfl : name = other := beq_iff_eq.mp hname
          rw [argumentTexts, argumentTexts, valueText_of_equal hvalue, ih hrest]

theorem callText_of_equal {name : String} {p q : Params} (h : p.equal q = true) :
    callText name p = callText name q := by
  rw [callText, callText, argumentTexts_of_equalEntries h]

/-- Equal composites have one call, and they do without braces alike. -/
theorem frame_of_equal {f g : Frame} (h : f.equal g = true) :
    callText f.name f.params = callText g.name g.params ∧ f.isTransform = g.isTransform := by
  cases f with
  | transform a p =>
      cases g with
      | transform b q =>
          obtain ⟨hop, hparams⟩ := (Bool.and_eq_true _ _).mp h
          obtain rfl : a = b := beq_iff_eq.mp hop
          exact ⟨callText_of_equal hparams, rfl⟩
      | _ => cases h
  | combinator a =>
      cases g with
      | combinator b =>
          obtain rfl : a = b := beq_iff_eq.mp h
          exact ⟨rfl, rfl⟩
      | _ => cases h
  | extrusion a p =>
      cases g with
      | extrusion b q =>
          obtain ⟨hop, hparams⟩ := (Bool.and_eq_true _ _).mp h
          obtain rfl : a = b := beq_iff_eq.mp hop
          exact ⟨callText_of_equal hparams, rfl⟩
      | _ => cases h
  | moduleCall a p =>
      cases g with
      | moduleCall b q =>
          obtain ⟨hname, hparams⟩ := (Bool.and_eq_true _ _).mp h
          obtain rfl : a = b := beq_iff_eq.mp hname
          exact ⟨callText_of_equal hparams, rfl⟩
      | _ => cases h

/-- Equal nodes are of one kind. -/
theorem kind_of_equal {a b : Node} (h : a.equal b = true) :
    hasLines a = hasLines b ∧ isCall a = isCall b := by
  cases a with
  | primitive s p =>
      cases b with
      | primitive t q => exact ⟨rfl, rfl⟩
      | _ => cases h
  | call m p =>
      cases b with
      | call n q => exact ⟨rfl, rfl⟩
      | _ => cases h
  | composite f xs =>
      cases b with
      | composite g ys => exact ⟨rfl, rfl⟩
      | _ => cases h
  | reference r =>
      cases b with
      | reference t => exact ⟨rfl, rfl⟩
      | _ => cases h
  | comment s =>
      cases b with
      | comment t => exact ⟨rfl, rfl⟩
      | _ => cases h

theorem any_hasLines_of_equalAll {xs ys : List Node} (h : Node.equalAll xs ys = true) :
    xs.any hasLines = ys.any hasLines := by
  induction xs generalizing ys with
  | nil =>
      cases ys with
      | nil => rfl
      | cons y ys => cases h
  | cons x xs ih =>
      cases ys with
      | nil => cases h
      | cons y ys =>
          obtain ⟨hfirst, hrest⟩ := (Bool.and_eq_true _ _).mp h
          rw [List.any_cons, List.any_cons, (kind_of_equal hfirst).1, ih hrest]

theorem isBraceless_of_equal {style : TransformStyle} {f g : Frame} {xs ys : List Node}
    (hframe : f.equal g = true) (hnodes : Node.equalAll xs ys = true) :
    isBraceless style f xs = isBraceless style g ys := by
  unfold isBraceless
  rw [(frame_of_equal hframe).2]
  -- what counts is whether there is exactly one child, and then that one
  rcases xs with _ | ⟨x, _ | ⟨x', xs⟩⟩ <;> rcases ys with _ | ⟨y, _ | ⟨y', ys⟩⟩
  · rfl
  · cases hnodes
  · cases hnodes
  · cases hnodes
  · exact congrArg (_ && ·) (kind_of_equal ((Bool.and_eq_true _ _).mp hnodes).1).2
  · cases ((Bool.and_eq_true _ _).mp hnodes).2
  · cases hnodes
  · cases ((Bool.and_eq_true _ _).mp hnodes).2
  · rfl

mutual
/-- Equal nodes have the same lines, or the same fault, in either style. -/
theorem nodeLines_of_equal {style : TransformStyle} {depth : Nat} {a b : Node}
    (h : a.equal b = true) : nodeLines style depth a = nodeLines style depth b := by
  -- nodes of two kinds are never equal
  cases a with
  | primitive s p =>
      cases b with
      | primitive t q =>
          obtain ⟨hshape, hparams⟩ := (Bool.and_eq_true _ _).mp h
          rw [nodeLines, nodeLines, show s = t from beq_iff_eq.mp hshape,
            callText_of_equal hparams]
      | _ => cases h
  | call m p =>
      cases b with
      | call n q =>
          obtain ⟨hname, hparams⟩ := (Bool.and_eq_true _ _).mp h
          rw [nodeLines, nodeLines, show m = n from beq_iff_eq.mp hname,
            callText_of_equal hparams]
      | _ => cases h
  | composite f xs =>
      cases b with
      | composite g ys =>
          obtain ⟨hframe, hnodes⟩ := (Bool.and_eq_true _ _).mp h
          have hcall := (frame_of_equal hframe).1
          have hinner : nodesLines style (depth + 1) xs = nodesLines style (depth + 1) ys :=
            nodesLines_of_equalAll hnodes
          rw [nodeLines, nodeLines, hcall, hinner]
          simp only [compositeLines, isBraceless_of_equal hframe hnodes,
            any_hasLines_of_equalAll hnodes]
      | _ => cases h
  | reference r =>
      cases b with
      | reference t => rfl
      | _ => cases h
  | comment s =>
      cases b with
      | comment t => rw [show s = t from beq_iff_eq.mp h]
      | _ => cases h

theorem nodesLines_of_equalAll {style : TransformStyle} {depth : Nat} {xs ys : List Node}
    (h : Node.equalAll xs ys = true) :
    nodesLines style depth xs = nodesLines style depth ys := by
  cases xs with
  | nil =>
      cases ys with
      | nil => rfl
      | cons y ys => cases h
  | cons x xs =>
      cases ys with
      | nil => cases h
      | cons y ys =>
          obtain ⟨hfirst, hrest⟩ := (Bool.and_eq_true _ _).mp h
          rw [nodesLines, nodesLines, nodeLines_of_equal hfirst, nodesLines_of_equalAll hrest]
end

end Script
end SolidScript
