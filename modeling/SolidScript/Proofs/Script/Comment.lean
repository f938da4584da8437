import Mathlib.Tactic
import SolidScript.Proofs.Script.RoundTrip

/-!
# Comments and line endings

A comment is laid out line by line, and its lines are those that a line feed ends.  A reader of
scripts also ends a line at a carriage return that stands alone, so a comment may go on for it on a
line that is no comment.  `pieces` cuts a text at every line ending of such a reader.  The pieces of
a comment all begin with the indentation and two slashes exactly where what follows a carriage
return inside a line of the comment does so by itself (`comment_pieces_are_commented_iff`).

Whether a carriage return and a line feed count as one ending or as two makes no difference but for
an empty piece (`mem_pieces_iff`), so the proofs cut at every single one of the two.
-/

namespace SolidScript
namespace Script

/-! ## Cutting at line endings -/

/-- The pieces of a text, given the characters already read of its first piece, last one first. -/
def piecesFrom (seen : List Char) : List Char → List (List Char)
  | [] => [seen.reverse]
  | '\r' :: '\n' :: rest => seen.reverse :: piecesFrom [] rest
  | c :: rest =>
    if c = '\n' ∨ c = '\r' then seen.reverse :: piecesFrom [] rest else piecesFrom (c :: seen) rest

/-- The pieces of a text between its line endings, which are a line feed, a carriage return with a
line feed after it, and a carriage return alone. -/
def pieces (cs : List Char) : List (List Char) := piecesFrom [] cs

/-- Is the character the end of a line, or a part of it? -/
def isEnding (c : Char) : Bool := c == '\n' || c == '\r'

theorem mem_piecesFrom_iff {piece : List Char} (hne : piece ≠ []) (seen cs : List Char) :
    piece ∈ piecesFrom seen cs ↔ piece ∈ cs.splitOnPPrepend isEnding seen := by
  induction seen, cs using piecesFrom.induct with
  | case1 seen => rw [piecesFrom, List.splitOnPPrepend_nil]
  | case2 seen rest ih =>
      -- between the two characters there is an empty piece more
      rw [piecesFrom, List.splitOnPPrepend_cons_pos rfl, List.splitOnP_eq_splitOnPPrepend,
        List.splitOnPPrepend_cons_pos rfl, List.mem_cons, List.mem_cons, List.mem_cons, ih,
        List.reverse_nil, List.splitOnPPrepend_nil_right]
      simp only [hne, false_or]
  | case3 seen c rest hpair hc ih =>
      have hending : isEnding c = true := by simpa [isEnding] using hc
      rw [piecesFrom.eq_3 _ _ _ hpair, if_pos hc, List.splitOnPPrepend_cons_pos hending,
        List.mem_cons, List.mem_cons, ih, List.splitOnPPrepend_nil_right]
  | case4 seen c rest hpair hc ih =>
      have hending : isEnding c = false := by simpa [isEnding] using hc
      rw [piecesFrom.eq_3 _ _ _ hpair, if_neg hc, List.splitOnPPrepend_cons_neg hending, ih]

/-- Apart from empty ones, the pieces are those between single characters that end lines. -/
theorem mem_pieces_iff {piece : List Char} (hne : piece ≠ []) (cs : List Char) :
    piece ∈ pieces cs ↔ piece ∈ cs.splitOnP isEnding :=
  mem_piecesFrom_iff hne [] cs

/-- A text without endings in front belongs to the first piece. -/
theorem splitOnP_append_of_forall {p : Char → Bool} {front : List Char}
    (h : ∀ c ∈ front, p c = false) (cs : List Char) :
    (front ++ cs).splitOnP p = (cs.splitOnP p).modifyHead (front ++ ·) := by
  induction front with
  | nil =>
      obtain ⟨first, rest, hsplit⟩ := List.exists_cons_of_ne_nil (List.splitOnP_ne_nil p cs)
      rw [List.nil_append, hsplit, List.modifyHead_cons, List.nil_append]
  | cons c front ih =>
      rw [List.forall_mem_cons] at h
      rw [List.cons_append, List.splitOnP_cons_eq_if_modifyHead, h.1, if_neg Bool.false_ne_true,
        ih h.2, List.modifyHead_modifyHead]
      rfl

theorem splitOnPPrepend_congr {p q : Char → Bool} {cs : List Char} (h : ∀ c ∈ cs, p c = q c)
    (seen : List Char) : cs.splitOnPPrepend p seen = cs.splitOnPPrepend q seen := by
  induction cs generalizing seen with
  | nil => rfl
  | cons c cs ih =>
      rw [List.forall_mem_cons] at h
      rw [List.splitOnPPrepend, List.splitOnPPrepend, h.1, ih h.2, ih h.2]

/-- Without line feeds only carriage returns are left to cut at. -/
theorem splitOnP_isEnding_of_notMem {cs : List Char} (h : '\n' ∉ cs) :
    cs.splitOnP isEnding = cs.splitOn '\r' := by
  refine splitOnPPrepend_congr (fun c hc => ?_) []
  have hne : c ≠ '\n' := fun heq => h (heq ▸ hc)
  simp [isEnding, hne]

/-! ## Pieces of a comment -/

/-- The spaces before a comment and its two slashes. -/
def commentFront (indent depth : Nat) : List Char :=
  List.replicate (depth * indent) ' ' ++ ['/', '/']

/-- Does a piece of a script begin as a comment does at this depth? -/
def IsCommented (indent depth : Nat) (piece : List Char) : Prop :=
  commentFront indent depth <+: piece

instance (indent depth : Nat) (piece : List Char) : Decidable (IsCommented indent depth piece) :=
  inferInstanceAs (Decidable (_ <+: _))

theorem isEnding_eq_false_of_mem_commentFront {indent depth : Nat} {c : Char}
    (h : c ∈ commentFront indent depth) : isEnding c = false := by
  rcases List.mem_append.mp h with hspace | hslash
  · rw [List.eq_of_mem_replicate hspace]
    rfl
  · have hc : c = '/' := by simpa using hslash
    rw [hc]
    rfl

/-- What a comment says in one line, as it is written behind the slashes. -/
def commentTail (content : String) : List Char :=
  if content = "" then [] else ' ' :: content.toList

/-- A line with the spaces in front of it and without the line feed after it. -/
def Line.chars (indent : Nat) (line : Line) : List Char :=
  List.replicate (line.depth * indent) ' ' ++ line.text.toList

theorem toList_renderLines (indent : Nat) (lines : List Line) :
    (renderLines indent lines).toList = lines.flatMap (·.chars indent ++ ['\n']) := by
  induction lines with
  | nil => rfl
  | cons line rest ih =>
      rw [renderLines] at ih ⊢
      rw [List.map_cons, String.join_cons, String.toList_append, ih, List.flatMap_cons]
      simp [Line.render, Line.chars]

theorem toList_renderLines_comment (indent depth : Nat) (text : String) :
    (renderLines indent (commentLines depth text)).toList =
      (commentContents text).flatMap fun content =>
        commentFront indent depth ++ commentTail content ++ ['\n'] := by
  have hline (line : List Char) : (commentLine depth line).chars indent =
      commentFront indent depth ++ commentTail (String.ofList (Text.trimEnd line)) := by
    unfold commentLine Line.chars commentFront commentTail
    cases Text.trimEnd line <;> simp
  rw [toList_renderLines]
  unfold commentLines commentContents
  cases Text.lines text.toList with
  | nil =>
      rw [List.flatMap_singleton, List.flatMap_singleton, hline]
      rfl
  | cons line rest =>
      dsimp only
      rw [List.flatMap_map, List.flatMap_map]
      simp only [hline]

theorem newline_notMem_of_mem_commentContents {text content : String}
    (h : content ∈ commentContents text) : '\n' ∉ content.toList := by
  have hline : ∀ line ∈ Text.lines text.toList, '\n' ∉ Text.trimEnd line := fun line hline hmem =>
    Reading.newline_notMem_of_mem_linesFrom List.not_mem_nil hline
      (Reading.mem_of_mem_trimEnd hmem)
  unfold commentContents at h
  split at h
  · rw [List.mem_singleton.mp h]
    exact List.not_mem_nil
  · obtain ⟨line, hmem, rfl⟩ := List.mem_map.mp h
    rw [String.toList_ofList]
    exact hline line hmem

/-- A text of several lines is cut within its lines. -/
theorem mem_splitOnP_flatMap_iff {α : Type} (f : α → List Char) (xs : List α) {piece : List Char}
    (hne : piece ≠ []) :
    piece ∈ (xs.flatMap fun x => f x ++ ['\n']).splitOnP isEnding ↔
      ∃ x ∈ xs, piece ∈ (f x).splitOnP isEnding := by
  induction xs with
  | nil => simp [hne]
  | cons x xs ih =>
      rw [List.flatMap_cons, List.append_assoc, List.singleton_append,
        List.splitOnP_append_cons _ _ rfl, List.mem_append, ih, List.exists_mem_cons_iff]

/-- The first piece of a line stands behind the slashes, and the others come as they are. -/
theorem splitOnP_commentFront (indent depth : Nat) {content : String}
    (h : '\n' ∉ content.toList) :
    ∃ first, (commentFront indent depth ++ commentTail content).splitOnP isEnding =
      (commentFront indent depth ++ first) :: (content.toList.splitOn '\r').tail := by
  rw [splitOnP_append_of_forall fun c hc => isEnding_eq_false_of_mem_commentFront hc, commentTail,
    ← splitOnP_isEnding_of_notMem h]
  split
  · rename_i hempty
    rw [hempty]
    exact ⟨[], rfl⟩
  · obtain ⟨first, rest, hsplit⟩ :=
      List.exists_cons_of_ne_nil (List.splitOnP_ne_nil isEnding content.toList)
    rw [List.splitOnP_cons_eq_if_modifyHead, if_neg (by decide), hsplit]
    exact ⟨' ' :: first, rfl⟩

/-- When the text of a comment is cut at every line ending, each piece that is not empty begins with
the indentation and two slashes, exactly where this holds of all that stands behind a carriage
return in what the comment says in a line. -/
theorem comment_pieces_are_commented_iff (indent depth : Nat) (text : String) :
    (∀ piece ∈ pieces (renderLines indent (commentLines depth text)).toList,
        piece ≠ [] → IsCommented indent depth piece) ↔
      ∀ content ∈ commentContents text, ∀ piece ∈ (content.toList.splitOn '\r').tail,
        piece ≠ [] → IsCommented indent depth piece := by
  rw [toList_renderLines_comment]
  constructor
  · intro h content hcontent piece hpiece hne
    obtain ⟨first, hsplit⟩ :=
      splitOnP_commentFront indent depth (newline_notMem_of_mem_commentContents hcontent)
    refine h piece ?_ hne
    rw [mem_pieces_iff hne, mem_splitOnP_flatMap_iff _ _ hne]
    exact ⟨content, hcontent, hsplit ▸ List.mem_cons_of_mem _ hpiece⟩
  · intro h piece hpiece hne
    rw [mem_pieces_iff hne, mem_splitOnP_flatMap_iff _ _ hne] at hpiece
    obtain ⟨content, hcontent, hmem⟩ := hpiece
    obtain ⟨first, hsplit⟩ :=
      splitOnP_commentFront indent depth (newline_notMem_of_mem_commentContents hcontent)
    rw [hsplit, List.mem_cons] at hmem
    rcases hmem with rfl | hrest
    · exact List.prefix_append _ first
    · exact h content hcontent piece hrest hne

/-- A carriage return in the middle of a comment lets what follows it out. -/
theorem comment_lets_statement_out :
    "cube();".toList ∈ pieces (renderLines 2 (commentLines 0 "a\rcube();")).toList ∧
      "cube();".toList ≠ [] ∧ ¬ IsCommented 2 0 "cube();".toList := by
  decide +kernel

end Script
end SolidScript
