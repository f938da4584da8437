import SolidScript.CommandLine.Log
import SolidScript.Files.Directory
import SolidScript.Files.Load

/-!
# Workspaces

What a run of the program can see and do, as operations in a monad, and the workspace in which
nothing but a directory, two texts of output and a log change.
-/

namespace SolidScript
namespace CommandLine

/-- The operations of a run. -/
structure Workspace (m : Type → Type) where
  /-- Is there a file or directory at the path? -/
  has : String → m Bool
  read : String → m FileContents
  /-- Writes a file, making it if it is not there. -/
  write : String → ByteArray → m (Except FileError Unit)
  /-- Adds text to the standard output. -/
  print : String → m (Except FileError Unit)
  /-- Adds text to the standard error. -/
  tell : String → m Unit
  /-- Adds notes to the log. -/
  log : List Note → m Unit
  /-- The time in microseconds since some fixed moment. -/
  now : m Nat

/-- A directory, and what has been put out so far. -/
structure Surroundings where
  directory : Directory
  printed : String := ""
  /-- The text on the standard error.  What is shown of the log there is not counted. -/
  told : String := ""
  logged : List Note := []

namespace Surroundings

variable (s : Surroundings) (notes more : List Note)

/-- The surroundings with more notes in the log. -/
def note : Surroundings := { s with logged := s.logged ++ notes }

@[simp]
theorem directory_note : (s.note notes).directory = s.directory := rfl

@[simp]
theorem printed_note : (s.note notes).printed = s.printed := rfl

@[simp]
theorem told_note : (s.note notes).told = s.told := rfl

@[simp]
theorem logged_note : (s.note notes).logged = s.logged ++ notes := rfl

@[simp]
theorem note_note : (s.note notes).note more = s.note (notes ++ more) := by
  rw [note, logged_note, List.append_assoc]
  rfl

end Surroundings

/-- The workspace of a directory, in which no time passes. -/
def Workspace.inDirectory : Workspace (StateM Surroundings) where
  has path := fun s => (s.directory.has path, s)
  read path := fun s => (s.directory.read path, s)
  write path bytes := fun s =>
    match s.directory.write path bytes with
    | .ok directory => (.ok (), { s with directory := directory })
    | .error e => (.error e, s)
  print text := fun s => (.ok (), { s with printed := s.printed ++ text })
  tell text := fun s => ((), { s with told := s.told ++ text })
  log notes := fun s => ((), s.note notes)
  now := fun s => (0, s)

end CommandLine
end SolidScript
