import Brainfuck.CommandLine.Session

/-!
# A directory in memory

A working directory with its files and subdirectories, in which paths are followed one name at a
time. Nothing is known of what lies outside.
-/

namespace Brainfuck.CommandLine

inductive Entry where
  | file (contents : List UInt8)
  | directory
deriving DecidableEq, Repr

/-- Entries by the names on the way to them. Names do not hold a slash. -/
structure Directory where
  entries : List (List String × Entry)
deriving DecidableEq, Repr

namespace Directory

def notFound : IoError := ⟨.notFound, "No such file or directory (os error 2)"⟩

def notADirectory : IoError := ⟨.notADirectory, "Not a directory (os error 20)"⟩

def isADirectory : IoError := ⟨.isADirectory, "Is a directory (os error 21)"⟩

def nameTooLong : IoError := ⟨.invalidFilename, "File name too long (os error 36)"⟩

/-- Where a path leads. -/
inductive Place where
  /-- A directory outside of the working directory. -/
  | outside
  | inside (names : List String)
deriving DecidableEq, Repr

def entry? (d : Directory) : List String → Option Entry
  | [] => some .directory
  | names => d.entries.lookup names

/-- One step along a path. The place it starts from has to be a directory. -/
def enter (d : Directory) (place : Place) (name : String) : Except IoError Place :=
  match place with
  | .outside => if name = "" || name = "." || name = ".." then .ok .outside else .error notFound
  | .inside names =>
    match d.entry? names with
    | none => .error notFound
    | some (.file _) => .error notADirectory
    | some .directory =>
      if name = "" || name = "." then .ok place
      else if name = ".." then .ok (if names.isEmpty then .outside else .inside names.dropLast)
      else if 255 < name.utf8ByteSize then .error nameTooLong
      else .ok (.inside (names ++ [name]))

/-- Follows names from the working directory, or from the root if the first one is empty. -/
def follow (d : Directory) (names : List String) : Except IoError Place :=
  names.foldlM d.enter (if names.head? = some "" then .outside else .inside [])

/-- The parts of a text between its slashes, of which there is always at least one. -/
def betweenSlashes : List Char → List (List Char)
  | [] => [[]]
  | '/' :: rest => [] :: betweenSlashes rest
  | c :: rest => (betweenSlashes rest).modifyHead (c :: ·)

/-- The names on a path. One that ends in a slash has an empty last name. -/
def pathNames (path : String) : Except IoError (List String) :=
  if 4096 ≤ path.utf8ByteSize then .error nameTooLong
  else .ok ((betweenSlashes path.toList).map String.ofList)

/-- The contents of the file that a path leads to. -/
def contents? (d : Directory) (path : String) : Option (List UInt8) :=
  match pathNames path >>= d.follow with
  | .ok (.inside names) =>
    match d.entry? names with
    | some (.file contents) => some contents
    | _ => none
  | _ => none

/-- How a path opens for reading. A directory opens and then cannot be read. -/
def open? (d : Directory) (path : String) : Except IoError (List ReadAnswer) := do
  match ← d.follow (← pathNames path) with
  | .outside => pure [.failed isADirectory]
  | .inside names =>
    match d.entry? names with
    | some (.file contents) => pure (contents.map .byte)
    | some .directory => pure [.failed isADirectory]
    | none => throw notFound

/-- The names of the file to write at a path. What ends in a slash or in dots is a directory. -/
def target (d : Directory) (path : String) : Except IoError (List String) := do
  let names := (← pathNames path).reverse
  match names.dropWhile (· = "") with
  | [] => throw isADirectory
  | last :: above =>
    match ← d.enter (← d.follow above.reverse) last with
    | .outside => throw isADirectory
    | .inside found =>
      if names.head? = some "" || last = "." || last = ".." then throw isADirectory
      else if d.entry? found = some .directory then throw isADirectory
      else pure found

/-- Writes a file, in place of the one that was there. -/
def save (d : Directory) (path : String) (contents : List UInt8) : Except IoError Directory := do
  let names ← d.target path
  pure ⟨(names, .file contents) :: d.entries.filter (·.1 != names)⟩

/-- The files of a session in the directory. -/
def host (d : Directory) : Host where
  opening path _ := d.open? path
  saving path := (d.target path).map fun _ => ()

end Directory

end Brainfuck.CommandLine
