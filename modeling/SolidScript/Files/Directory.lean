import SolidScript.Files.Failure

/-!
# Directories

A working directory as a list of files and a list of directories, with the outcome of looking at,
reading and writing a path in it.  A path is followed name by name: `.` stays, `..` goes up, and any
other name has to be a directory unless it is the last one.  There is a directory wherever one is
listed, empty or not, and above everything that there is.  The directories above the working
directory and the root always are; of devices only the null device is known.
-/

namespace SolidScript

/-- Where something is: the names that lead to it from the working directory.  For what is outside,
the first of them is `..`, or `/` if they start at the root. -/
abbrev Position := List String

/-- The names in a path.  Slashes that follow one another have no name between them. -/
def namesIn (path : String) : List String :=
  ((path.toList.splitOn '/').filter (!·.isEmpty)).map String.ofList

/-- A path, taken apart. -/
structure Route where
  start : Position
  /-- The names to pass on the way to the last one. -/
  way : List String
  last : String
  /-- Does the path end in a slash? -/
  slashed : Bool
  deriving DecidableEq, Repr

namespace Route

/-- How many bytes a path may have. -/
def pathLimit : Nat := 4095

/-- Takes a path apart.  The root is its own last name. -/
def ofPath (path : String) : Except FileError Route :=
  if path.toList.contains '\x00' then .error .nulInName
  else if path = "" then .error .notFound
  else if pathLimit < path.utf8ByteSize then .error .nameTooLong
  else
    let names := namesIn path
    .ok {
      start := if path.toList.head? = some '/' then ["/"] else []
      way := names.dropLast
      last := names.getLast?.getD "."
      slashed := path.toList.getLast? = some '/' }

/-- Can the path lead to nothing but a directory, whatever is there? -/
def toDirectory (route : Route) : Bool := route.last = "." || route.last = ".."

end Route

/-- What there is in a working directory. -/
structure Directory where
  /-- The positions of the files and their bytes. -/
  files : List (Position × ByteArray)
  /-- The positions of directories.  One that holds something need not be listed. -/
  directories : List Position := []

/-- What a name stands for in a directory. -/
inductive Entry where
  | directory (position : Position)
  | file (position : Position)
  /-- The null device, in which nothing is and nothing stays. -/
  | null
  /-- There is nothing, but a file can be made. -/
  | vacant (position : Position)
  deriving DecidableEq, Repr

namespace Directory

/-- The directory with the given files. -/
def ofFiles (files : List (String × ByteArray)) : Directory :=
  { files := files.map fun (name, bytes) => (namesIn name, bytes) }

/-- The bytes of a file. -/
def bytes? (dir : Directory) (position : Position) : Option ByteArray :=
  (dir.files.find? (·.1 == position)).map Prod.snd

/-- Where the null device is. -/
def nullDevice : Position := ["/", "dev", "null"]

/-- Is there a directory?  The working directory, those above it and the root always are; any other
is listed, or it is above a file, a device or a directory that is listed. -/
def isDirectory (dir : Directory) (position : Position) : Bool :=
  position.all (fun name => name == ".." || name == "/") ||
    dir.directories.any position.isPrefixOf ||
    (nullDevice :: dir.files.map Prod.fst).any fun below =>
      position.isPrefixOf below && position != below

/-- The directory above a directory.  The root is above itself. -/
def above (position : Position) : Position :=
  match position.getLast? with
  | none => [".."]
  | some ".." => position ++ [".."]
  | some "/" => position
  | some _ => position.dropLast

/-- How many bytes a name may have. -/
def nameLimit : Nat := 255

/-- What a name stands for in the directory at a position. -/
def entry (dir : Directory) (position : Position) (name : String) : Except FileError Entry :=
  if name = "." then .ok (.directory position)
  else if name = ".." then .ok (.directory (above position))
  else if nameLimit < name.utf8ByteSize then .error .nameTooLong
  else
    let there := position ++ [name]
    if (dir.bytes? there).isSome then .ok (.file there)
    else if there = nullDevice then .ok .null
    else if dir.isDirectory there then .ok (.directory there)
    else .ok (.vacant there)

/-- Goes through directories by their names. -/
def follow (dir : Directory) (position : Position) : List String → Except FileError Position
  | [] => .ok position
  | name :: rest =>
    match dir.entry position name with
    | .ok (.directory next) => dir.follow next rest
    | .ok (.vacant _) => .error .notFound
    | .ok _ => .error .notDirectory
    | .error e => .error e

/-- What a path leads to. -/
def resolve (dir : Directory) (route : Route) : Except FileError Entry := do
  dir.entry (← dir.follow route.start route.way) route.last

/-- Reads a file. -/
def read (dir : Directory) (path : String) : Except FileError ByteArray := do
  let route ← Route.ofPath path
  match ← dir.resolve route with
  | .directory _ => .error .isDirectory
  | .vacant _ => .error .notFound
  | .file position =>
    if route.slashed then .error .notDirectory
    else .ok ((dir.bytes? position).getD ByteArray.empty)
  | .null => if route.slashed then .error .notDirectory else .ok ByteArray.empty

/-- Is there anything at the path? -/
def has (dir : Directory) (path : String) : Bool :=
  match dir.read path with
  | .ok _ => true
  | .error e => e = .isDirectory

/-- Gives a file new bytes, making it if it is not there. -/
def put (dir : Directory) (position : Position) (bytes : ByteArray) : Directory :=
  if dir.files.any (·.1 == position) then
    { dir with
      files := dir.files.map fun entry =>
        if entry.1 == position then (position, bytes) else entry }
  else { dir with files := dir.files ++ [(position, bytes)] }

/-- Writes a file, making it if it is not there.  No file can be made at a path that ends in a
slash, whatever its last name stands for. -/
def write (dir : Directory) (path : String) (bytes : ByteArray) :
    Except FileError Directory := do
  let route ← Route.ofPath path
  let position ← dir.follow route.start route.way
  if route.slashed && !route.toDirectory then .error .isDirectory
  else
    match ← dir.entry position route.last with
    | .directory _ => .error .isDirectory
    | .file there => .ok (dir.put there bytes)
    | .vacant there => .ok (dir.put there bytes)
    | .null => .ok dir

/-- Is the position inside the working directory? -/
def isInside (position : Position) : Bool :=
  match position.head? with
  | some ".." => false
  | some "/" => false
  | _ => true

/-- The files with other bytes than before, and the new ones, of those inside the working
directory. -/
def changedSince (dir before : Directory) : List (String × ByteArray) :=
  (dir.files.filter fun (position, bytes) =>
      isInside position && before.bytes? position != some bytes).map
    fun (position, bytes) => ("/".intercalate position, bytes)

end Directory
end SolidScript
