import FreightPromotion.Failure
import FreightPromotion.Files.Path

/-!
# File trees

A file tree holds files and directories at locations, which are lists of names
from the root.  A path leads to a location from the root or from the working
directory, one name after the other; every name but the last must be that of a
directory, a single dot stays and a double dot goes up.

The operations are those of a file system, each a step of its own: a file is
made empty, bytes are appended to it, and it is renamed.  An operation that
fails leaves the tree as it was.
-/

namespace FreightPromotion.Files

open FreightPromotion.Text (Bytes)

/-- The names that lead from the root to a file or directory. -/
abbrev Location := List String

/-- What is at a location. -/
inductive Entry where
  | file (content : Bytes)
  | directory
deriving DecidableEq

/-- The files and directories, and the working directory.  The root is always a
directory and is not listed. -/
structure Tree where
  entries : List (Location × Entry) := []
  workingDirectory : Location := []

namespace Tree

/-- What is at a location. -/
def entry? (tree : Tree) (location : Location) : Option Entry :=
  if location = [] then some .directory else tree.entries.lookup location

/-- Puts an entry at a location, in place of what was there. -/
def put (tree : Tree) (location : Location) (entry : Entry) : Tree :=
  { tree with
    entries := (location, entry) :: tree.entries.filter fun present => present.1 ≠ location }

/-- Removes what is at a location. -/
def remove (tree : Tree) (location : Location) : Tree :=
  { tree with entries := tree.entries.filter fun present => present.1 ≠ location }

/-! ## Resolving paths -/

/-- The longest name that a directory can hold, in bytes. -/
def longestName : Nat := 255

/-- The number of bytes that a path has to stay below. -/
def pathLimit : Nat := 4096

/-- The names in a path, without the empty ones between adjacent slashes. -/
def names (path : String) : List String :=
  ((path.toList.splitOn '/').filter fun name => !name.isEmpty).map String.ofList

/-- Follows names, all of which have to be those of directories. -/
def walk (tree : Tree) (location : Location) : List String → Except FileFault Location
  | [] => .ok location
  | name :: rest =>
    if name = "." then tree.walk location rest
    else if name = ".." then tree.walk location.dropLast rest
    else if longestName < name.utf8ByteSize then .error .nameTooLong
    else
      match tree.entry? (location ++ [name]) with
      | none => .error .notFound
      | some (.file _) => .error .notDirectory
      | some .directory => tree.walk (location ++ [name]) rest

/-- Where a path leads: to a name in a directory, which may be marked as that of
a directory by a slash after it, or to a directory reached by steps alone. -/
inductive Target where
  | name (directory : Location) (name : String) (marked : Bool)
  | steps (directory : Location)
deriving DecidableEq

/-- Follows a path up to its last name. -/
def resolve (tree : Tree) (path : String) : Except FileFault Target :=
  if path.toList.contains '\x00' then .error .nulInName
  else if path.isEmpty then .error .notFound
  else if pathLimit ≤ path.utf8ByteSize then .error .nameTooLong
  else
    let start := if path.startsWith '/' then [] else tree.workingDirectory
    match (names path).getLast? with
    | none => .ok (.steps start)
    | some last =>
      match tree.walk start (names path).dropLast with
      | .error fault => .error fault
      | .ok directory =>
        if last = "." then .ok (.steps directory)
        else if last = ".." then .ok (.steps directory.dropLast)
        else if longestName < last.utf8ByteSize then .error .nameTooLong
        else .ok (.name directory last (path.endsWith '/'))

/-! ## Operations -/

/-- The content of a file. -/
def read (tree : Tree) (path : String) : Except FileFault Bytes :=
  match tree.resolve path with
  | .error fault => .error fault
  | .ok (.steps _) => .error .isDirectory
  | .ok (.name directory name marked) =>
    match tree.entry? (directory ++ [name]) with
    | none => .error .notFound
    | some .directory => .error .isDirectory
    | some (.file content) => if marked then .error .notDirectory else .ok content

/-- Whether a path leads to a directory. -/
def isDirectory (tree : Tree) (path : String) : Bool :=
  match tree.resolve path with
  | .error _ => false
  | .ok (.steps _) => true
  | .ok (.name directory name _) => tree.entry? (directory ++ [name]) = some .directory

/-- Makes a directory. -/
def makeDirectory (tree : Tree) (path : String) : Except FileFault Tree :=
  match tree.resolve path with
  | .error fault => .error fault
  | .ok (.steps _) => .error .alreadyExists
  | .ok (.name directory name _) =>
    match tree.entry? (directory ++ [name]) with
    | some _ => .error .alreadyExists
    | none => .ok (tree.put (directory ++ [name]) .directory)

/-- Makes an empty file, or makes a file empty. -/
def truncate (tree : Tree) (path : String) : Except FileFault Tree :=
  match tree.resolve path with
  | .error fault => .error fault
  | .ok (.steps _) => .error .isDirectory
  | .ok (.name directory name marked) =>
    if marked then .error .isDirectory
    else if tree.entry? (directory ++ [name]) = some .directory then .error .isDirectory
    else .ok (tree.put (directory ++ [name]) (.file []))

/-- Appends bytes to a file that exists. -/
def append (tree : Tree) (path : String) (more : Bytes) : Except FileFault Tree :=
  match tree.resolve path with
  | .error fault => .error fault
  | .ok (.steps _) => .error .isDirectory
  | .ok (.name directory name marked) =>
    match tree.entry? (directory ++ [name]) with
    | none => .error .notFound
    | some .directory => .error .isDirectory
    | some (.file content) =>
      if marked then .error .notDirectory
      else .ok (tree.put (directory ++ [name]) (.file (content ++ more)))

/-- Moves a file to another path, in place of a file that is there. -/
def rename (tree : Tree) (source destination : String) : Except FileFault Tree :=
  match tree.resolve source, tree.resolve destination with
  | .error fault, _ => .error fault
  | _, .error fault => .error fault
  | .ok (.steps _), _ => .error .busy
  | _, .ok (.steps _) => .error .busy
  | .ok (.name directory name _), .ok (.name target targetName marked) =>
    match tree.entry? (directory ++ [name]) with
    | none => .error .notFound
    | some .directory => .error .invalid
    | some (.file content) =>
      if marked then .error .notDirectory
      else if tree.entry? (target ++ [targetName]) = some .directory then .error .isDirectory
      else
        .ok ((tree.remove (directory ++ [name])).put (target ++ [targetName]) (.file content))

/-- Makes a directory unless it is there, and those above it first if they are
missing.  The paths are the directory and those above it, innermost first. -/
def makeDirectories (tree : Tree) : List String → Tree × Except FileFault Unit
  | [] => (tree, .error .notFound)
  | path :: above =>
    if path.isEmpty then (tree, .ok ())
    else
      match tree.makeDirectory path with
      | .ok tree => (tree, .ok ())
      | .error .notFound =>
        match tree.makeDirectories above with
        | (tree, .error fault) => (tree, .error fault)
        | (tree, .ok ()) =>
          match tree.makeDirectory path with
          | .ok tree => (tree, .ok ())
          | .error fault =>
            (tree, if tree.isDirectory path then .ok () else .error fault)
      | .error fault => (tree, if tree.isDirectory path then .ok () else .error fault)

end Tree

end FreightPromotion.Files
