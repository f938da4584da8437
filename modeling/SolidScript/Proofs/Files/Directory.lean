import Mathlib.Tactic
import SolidScript.Files.Directory
import SolidScript.Proofs.Result

/-!
# Reading what was written

A path leads to a spot where a file is or can be made, or to the null device (`spot`).  Writing to
the path never turns a directory into something else, so the same names lead to the same spot
afterwards.  Where there is a place for a file (`HasPlace`), what is read at the path then is what
was written (`read_written`), and of two writes to the path only the second one is left
(`write_write`).
-/

namespace SolidScript
namespace Directory

/-! ## Putting a file -/

variable {dir : Directory} {position : Position} {bytes : ByteArray}

/-- The entry of a file with other bytes when it is the one at the position. -/
def replaced (position : Position) (bytes : ByteArray) (entry : Position × ByteArray) :
    Position × ByteArray :=
  if entry.1 == position then (position, bytes) else entry

theorem replaced_fst (entry : Position × ByteArray) :
    (replaced position bytes entry).1 = entry.1 := by
  unfold replaced
  split
  · rename_i heq
    exact (beq_iff_eq.mp heq).symm
  · rfl

theorem put_of_any (h : dir.files.any (·.1 == position) = true) :
    dir.put position bytes = { dir with files := dir.files.map (replaced position bytes) } :=
  if_pos h

theorem put_of_not_any (h : ¬ dir.files.any (·.1 == position) = true) :
    dir.put position bytes = { dir with files := dir.files ++ [(position, bytes)] } :=
  if_neg h

theorem directories_put : (dir.put position bytes).directories = dir.directories := by
  unfold put
  split <;> rfl

theorem find?_map_replaced (other : Position) :
    (dir.files.map (replaced position bytes)).find? (·.1 == other) =
      (dir.files.find? (·.1 == other)).map (replaced position bytes) := by
  rw [List.find?_map]
  congr 2
  funext entry
  rw [Function.comp_apply, replaced_fst]

theorem bytes?_put_self : (dir.put position bytes).bytes? position = some bytes := by
  by_cases hany : dir.files.any (·.1 == position) = true
  · obtain ⟨entry, hmem, hentry⟩ := List.any_eq_true.mp hany
    have hsome : (dir.files.find? (·.1 == position)).isSome = true :=
      List.find?_isSome.mpr ⟨entry, hmem, hentry⟩
    obtain ⟨found, hfound⟩ := Option.isSome_iff_exists.mp hsome
    have hposition : (found.1 == position) = true :=
      List.find?_some (p := fun entry : Position × ByteArray => entry.1 == position) hfound
    rw [put_of_any hany, bytes?, find?_map_replaced, hfound]
    simp [replaced, beq_iff_eq.mp hposition]
  · have hnone : dir.files.find? (·.1 == position) = none := by
      rw [List.find?_eq_none]
      exact fun entry hmem hentry => hany (List.any_eq_true.mpr ⟨entry, hmem, hentry⟩)
    rw [put_of_not_any hany, bytes?, List.find?_append, hnone]
    simp

theorem bytes?_put_of_ne {other : Position} (h : other ≠ position) :
    (dir.put position bytes).bytes? other = dir.bytes? other := by
  by_cases hany : dir.files.any (·.1 == position) = true
  · rw [put_of_any hany, bytes?, find?_map_replaced, bytes?]
    cases hfound : dir.files.find? (·.1 == other) with
    | none => rfl
    | some entry =>
        have hother : (entry.1 == other) = true :=
          List.find?_some (p := fun file : Position × ByteArray => file.1 == other) hfound
        simp [replaced, beq_iff_eq.mp hother, h]
  · rw [put_of_not_any hany, bytes?, List.find?_append, bytes?]
    cases hfound : dir.files.find? (·.1 == other) with
    | none => simp [Ne.symm h]
    | some entry => rfl

theorem put_put (dir : Directory) (position : Position) (first second : ByteArray) :
    (dir.put position first).put position second = dir.put position second := by
  by_cases hany : dir.files.any (·.1 == position) = true
  · -- the file is there and is replaced twice
    have hreplaced : (dir.files.map (replaced position first)).any (·.1 == position) = true := by
      obtain ⟨entry, hmem, hentry⟩ := List.any_eq_true.mp hany
      refine List.any_eq_true.mpr ⟨_, List.mem_map_of_mem hmem, ?_⟩
      rwa [replaced_fst]
    have hsecond : replaced position second ∘ replaced position first =
        replaced position second := by
      funext entry
      by_cases hentry : (entry.1 == position) = true
      · simp [replaced, hentry]
      · simp [replaced, hentry]
    rw [put_of_any hany, put_of_any hany, put_of_any hreplaced, List.map_map, hsecond]
  · -- the first write adds the file that the second one replaces
    have hadded : (dir.files ++ [(position, first)]).any (·.1 == position) = true := by
      simp
    have hothers : dir.files.map (replaced position second) = dir.files.map id := by
      apply List.map_congr_left
      intro entry hmem
      exact if_neg fun hentry => hany (List.any_eq_true.mpr ⟨entry, hmem, hentry⟩)
    rw [put_of_not_any hany, put_of_not_any hany, put_of_any hadded, List.map_append, hothers,
      List.map_id]
    simp [replaced]

/-- A file more makes no directory vanish. -/
theorem isDirectory_put {other : Position} (h : dir.isDirectory other = true) :
    (dir.put position bytes).isDirectory other = true := by
  unfold isDirectory at h ⊢
  rw [directories_put]
  rw [Bool.or_eq_true] at h ⊢
  -- what is below the directory is still among the positions
  refine h.imp_right fun hbelow => ?_
  obtain ⟨below, hmem, hprefix⟩ := List.any_eq_true.mp hbelow
  refine List.any_eq_true.mpr ⟨below, ?_, hprefix⟩
  rcases List.mem_cons.mp hmem with hnull | hfile
  · exact hnull ▸ List.mem_cons_self
  · apply List.mem_cons_of_mem
    by_cases hany : dir.files.any (·.1 == position) = true
    · rw [put_of_any hany, List.map_map]
      have hfst : Prod.fst ∘ replaced position bytes = Prod.fst :=
        funext fun entry => replaced_fst entry
      rwa [hfst]
    · rw [put_of_not_any hany, List.map_append]
      exact List.mem_append_left _ hfile

/-! ## Following names -/

/-- The place is taken by a file or is free for one. -/
def IsFileSpot (dir : Directory) (there : Position) : Prop :=
  (dir.bytes? there).isSome = true ∨ dir.isDirectory there = false

/-- What a name that is neither `.` nor `..` stands for. -/
theorem entry_of_name {name : String} (hdot : name ≠ ".") (hdots : name ≠ "..")
    (hlimit : ¬ nameLimit < name.utf8ByteSize) :
    dir.entry position name =
      if (dir.bytes? (position ++ [name])).isSome then .ok (.file (position ++ [name]))
      else if position ++ [name] = nullDevice then .ok .null
      else if dir.isDirectory (position ++ [name]) then .ok (.directory (position ++ [name]))
      else .ok (.vacant (position ++ [name])) := by
  rw [entry, if_neg hdot, if_neg hdots, if_neg hlimit]

/-- What does not lead to a directory by `.` or `..` has a name short enough. -/
theorem name_of_entry {name : String} {found : Entry}
    (h : dir.entry position name = .ok found) (hfound : ∀ next, found ≠ .directory next) :
    name ≠ "." ∧ name ≠ ".." ∧ ¬ nameLimit < name.utf8ByteSize := by
  unfold entry at h
  split at h
  · cases h
    exact absurd rfl (hfound position)
  · rename_i hdot
    split at h
    · cases h
      exact absurd rfl (hfound _)
    · rename_i hdots
      split at h
      · cases h
      · rename_i hlimit
        exact ⟨hdot, hdots, hlimit⟩

theorem entry_put_directory {there next : Position} {name : String}
    (hspot : dir.IsFileSpot there) (h : dir.entry position name = .ok (.directory next)) :
    (dir.put there bytes).entry position name = .ok (.directory next) := by
  by_cases hdot : name = "."
  · rw [entry, if_pos hdot] at h ⊢
    exact h
  by_cases hdots : name = ".."
  · rw [entry, if_neg hdot, if_pos hdots] at h ⊢
    exact h
  by_cases hlimit : nameLimit < name.utf8ByteSize
  · rw [entry, if_neg hdot, if_neg hdots, if_pos hlimit] at h
    cases h
  rw [entry_of_name hdot hdots hlimit] at h ⊢
  split at h
  · cases h
  rename_i hbytes
  split at h
  · cases h
  rename_i hnull
  split at h
  · rename_i hdirectory
    -- a directory is no spot for a file, so the new file is somewhere else
    have hne : position ++ [name] ≠ there := by
      rintro rfl
      rcases hspot with hfile | hfree
      · exact hbytes hfile
      · rw [hdirectory] at hfree
        cases hfree
    rw [bytes?_put_of_ne hne, if_neg hbytes, if_neg hnull, if_pos (isDirectory_put hdirectory)]
    exact h
  · cases h

theorem follow_put {there next : Position} {names : List String} (hspot : dir.IsFileSpot there)
    (h : dir.follow position names = .ok next) :
    (dir.put there bytes).follow position names = .ok next := by
  induction names generalizing position with
  | nil => exact h
  | cons name rest ih =>
      rw [follow] at h ⊢
      split at h
      · rename_i inner hentry
        rw [entry_put_directory hspot hentry]
        exact ih h
      · cases h
      · cases h
      · cases h

/-! ## Reading and writing -/

/-- A file can only be put at a spot for files, and it is found there afterwards. -/
theorem entry_put {there : Position} {name : String}
    (h : dir.entry position name = .ok (.file there) ∨
      dir.entry position name = .ok (.vacant there)) :
    dir.IsFileSpot there ∧ (dir.put there bytes).entry position name = .ok (.file there) := by
  have hname : name ≠ "." ∧ name ≠ ".." ∧ ¬ nameLimit < name.utf8ByteSize := by
    rcases h with hfile | hvacant
    · exact name_of_entry hfile fun _ => Entry.noConfusion
    · exact name_of_entry hvacant fun _ => Entry.noConfusion
  obtain ⟨hdot, hdots, hlimit⟩ := hname
  rw [entry_of_name hdot hdots hlimit] at h
  have hspot : there = position ++ [name] ∧ dir.IsFileSpot there := by
    split_ifs at h with hbytes hnull hdirectory
    · rcases h with h | h <;> cases h
      exact ⟨rfl, .inl hbytes⟩
    · rcases h with h | h <;> cases h
    · rcases h with h | h <;> cases h
    · rcases h with h | h <;> cases h
      exact ⟨rfl, .inr (Bool.eq_false_iff.mpr hdirectory)⟩
  obtain ⟨rfl, hspot⟩ := hspot
  refine ⟨hspot, ?_⟩
  rw [entry_of_name hdot hdots hlimit, bytes?_put_self]
  rfl

theorem read_of_entry {path : String} {route : Route} {place : Position} {found : Entry}
    (hroute : Route.ofPath path = .ok route) (hslashed : route.slashed = false)
    (hfollow : dir.follow route.start route.way = .ok place)
    (hentry : dir.entry place route.last = .ok found) :
    dir.read path = match found with
      | .directory _ => .error .isDirectory
      | .vacant _ => .error .notFound
      | .file there => .ok ((dir.bytes? there).getD ByteArray.empty)
      | .null => .ok ByteArray.empty := by
  have hresolve : dir.resolve route = .ok found := by
    rw [resolve, hfollow]
    exact hentry
  have hplain : ¬ route.slashed = true := by
    rw [hslashed]
    exact Bool.false_ne_true
  rw [read, hroute]
  change (dir.resolve route >>= _) = _
  rw [hresolve]
  cases found with
  | directory next => rfl
  | vacant there => rfl
  | file there => exact if_neg hplain
  | null => exact if_neg hplain

/-- Where a file at the path is or can be made; there is no such place for the null device. -/
def spot (dir : Directory) (path : String) : Except FileError (Option Position) := do
  let route ← Route.ofPath path
  let position ← dir.follow route.start route.way
  if route.slashed && !route.toDirectory then .error .isDirectory
  else
    match ← dir.entry position route.last with
    | .directory _ => .error .isDirectory
    | .file there => .ok (some there)
    | .vacant there => .ok (some there)
    | .null => .ok none

/-- The directory with the bytes at a spot. -/
def putAt (dir : Directory) (spot : Option Position) (bytes : ByteArray) : Directory :=
  match spot with
  | some there => dir.put there bytes
  | none => dir

theorem write_eq_map_spot (path : String) :
    dir.write path bytes = (dir.spot path).map (dir.putAt · bytes) := by
  unfold write spot
  cases Route.ofPath path with
  | error e => rfl
  | ok route =>
      change (dir.follow route.start route.way >>= _) =
        (dir.follow route.start route.way >>= _).map _
      cases dir.follow route.start route.way with
      | error e => rfl
      | ok position =>
          change (if _ then _ else _) = (if _ then _ else _ : Except FileError _).map _
          split
          · rfl
          · cases dir.entry position route.last with
            | error e => rfl
            | ok found => cases found <;> rfl

/-- What leads to a spot ends with the name of it. -/
theorem exists_of_spot {path : String} {place : Option Position} (h : dir.spot path = .ok place) :
    ∃ route position, Route.ofPath path = .ok route ∧ route.slashed = false ∧
      dir.follow route.start route.way = .ok position ∧
      match place with
      | some there => dir.entry position route.last = .ok (.file there) ∨
          dir.entry position route.last = .ok (.vacant there)
      | none => dir.entry position route.last = .ok .null := by
  unfold spot at h
  obtain ⟨route, hroute, h⟩ := exists_of_bind_eq_ok h
  obtain ⟨position, hfollow, h⟩ := exists_of_bind_eq_ok h
  split at h
  · cases h
  rename_i hslash
  obtain ⟨found, hentry, h⟩ := exists_of_bind_eq_ok h
  -- a path to a directory is refused above, so the path ends without a slash
  have hslashed (hfound : ∀ next, found ≠ .directory next) : route.slashed = false := by
    obtain ⟨hdot, hdots, -⟩ := name_of_entry hentry hfound
    simpa [Route.toDirectory, hdot, hdots] using hslash
  refine ⟨route, position, hroute, ?_, hfollow, ?_⟩
  · cases found with
    | directory next => cases h
    | file there => exact hslashed fun _ => Entry.noConfusion
    | vacant there => exact hslashed fun _ => Entry.noConfusion
    | null => exact hslashed fun _ => Entry.noConfusion
  · cases found with
    | directory next => cases h
    | file there =>
        cases h
        exact .inl hentry
    | vacant there =>
        cases h
        exact .inr hentry
    | null =>
        cases h
        exact hentry

/-- The path leads to the same spot after something has been put there. -/
theorem spot_put {path : String} {there : Position} (h : dir.spot path = .ok (some there)) :
    (dir.put there bytes).spot path = .ok (some there) := by
  obtain ⟨route, position, hroute, hslashed, hfollow, hentry⟩ := exists_of_spot h
  have hput : dir.IsFileSpot there ∧
      (dir.put there bytes).entry position route.last = .ok (.file there) := entry_put hentry
  unfold spot
  rw [hroute]
  change ((dir.put there bytes).follow route.start route.way >>= _) = _
  rw [follow_put hput.1 hfollow]
  change (if (route.slashed && !route.toDirectory) = true then _ else _) = _
  rw [hslashed, if_neg (by simp), hput.2]
  rfl

/-- The path leads to a place where a file is or can be made. -/
def HasPlace (dir : Directory) (path : String) : Prop := ∃ there, dir.spot path = .ok (some there)

theorem read_put {path : String} {there : Position} (h : dir.spot path = .ok (some there)) :
    (dir.put there bytes).read path = .ok bytes := by
  obtain ⟨route, position, hroute, hslashed, hfollow, hentry⟩ := exists_of_spot h
  have hput : dir.IsFileSpot there ∧
      (dir.put there bytes).entry position route.last = .ok (.file there) := entry_put hentry
  rw [read_of_entry hroute hslashed (follow_put hput.1 hfollow) hput.2]
  dsimp only
  rw [bytes?_put_self]
  rfl

/-- What is read after a write to a place for a file is what was written. -/
theorem read_written {path : String} {after : Directory} (hplace : dir.HasPlace path)
    (h : dir.write path bytes = .ok after) : after.read path = .ok bytes := by
  obtain ⟨there, hspot⟩ := hplace
  rw [write_eq_map_spot, hspot] at h
  cases h
  exact read_put hspot

/-- What is read after a successful write is what was written, or nothing from the null device. -/
theorem read_of_write {path : String} {after : Directory} (h : dir.write path bytes = .ok after) :
    after.read path = .ok bytes ∨ after = dir ∧ dir.read path = .ok ByteArray.empty := by
  rw [write_eq_map_spot] at h
  obtain ⟨place, hplace, rfl⟩ := map_eq_ok h
  cases place with
  | none =>
      obtain ⟨route, position, hroute, hslashed, hfollow, hentry⟩ := exists_of_spot hplace
      exact .inr ⟨rfl, read_of_entry hroute hslashed hfollow hentry⟩
  | some there => exact .inl (read_put hplace)

/-- A second write leaves what it would have left without the first one. -/
theorem write_write {path : String} {first : ByteArray} {between : Directory}
    (h : dir.write path first = .ok between) (second : ByteArray) :
    between.write path second = dir.write path second := by
  rw [write_eq_map_spot] at h ⊢
  obtain ⟨place, hplace, rfl⟩ := map_eq_ok h
  rw [write_eq_map_spot]
  cases place with
  | none => rfl
  | some there =>
      rw [putAt, spot_put hplace, hplace]
      exact congrArg _ (put_put dir there first second)

/-- A place for a file takes all bytes. -/
theorem HasPlace.exists_write {path : String} (h : dir.HasPlace path) (bytes : ByteArray) :
    ∃ after, dir.write path bytes = .ok after := by
  obtain ⟨there, hspot⟩ := h
  rw [write_eq_map_spot, hspot]
  exact ⟨_, rfl⟩

end Directory
end SolidScript
