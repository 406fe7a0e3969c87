/-!
# Files

A command names files by paths. `Files` is what reading them gives; `FileTree.read` is that for the
files of a known tree: a path is walked name by name, from the root or from the working directory,
and the walk ends at the first name that leads nowhere.
-/

namespace RoutePlan

/-- Why a file cannot be read. -/
inductive FileError
  | notFound
  | permissionDenied
  | notADirectory
  | isADirectory
  | nameTooLong
  | notText
  | other (reason : String)
  deriving DecidableEq

def FileError.message : FileError → String
  | notFound => "No such file or directory (os error 2)"
  | permissionDenied => "Permission denied (os error 13)"
  | notADirectory => "Not a directory (os error 20)"
  | isADirectory => "Is a directory (os error 21)"
  | nameTooLong => "File name too long (os error 36)"
  | notText => "stream did not contain valid UTF-8"
  | other reason => reason

/-- The texts of files by their paths. -/
abbrev Files := String → Except FileError String

/-- What a path leads to. -/
inductive FileNode
  | file (text : String)
  /-- A folder, known by the names that lead to it, the innermost one first. -/
  | folder (place : List String)

/-- The files and folders below the root, each with the names that lead to it, the innermost one
first, and the working directory. -/
structure FileTree where
  files : List (List String × String)
  folders : List (List String)
  workingDirectory : List String

namespace FileTree

/-- Paths are shorter than this, in bytes. -/
def pathLimit : Nat := 4096

/-- Names are at most this long, in bytes. -/
def nameLimit : Nat := 255

/-- What a name in a folder leads to. -/
def enter (t : FileTree) (place : List String) (name : String) : Except FileError FileNode :=
  if name = "" ∨ name = "." then .ok (.folder place)
  else if name = ".." then .ok (.folder place.tail)
  else if nameLimit < name.utf8ByteSize then .error .nameTooLong
  else
    match t.files.lookup (name :: place) with
    | some text => .ok (.file text)
    | none =>
      if t.folders.contains (name :: place) then .ok (.folder (name :: place))
      else .error .notFound

/-- Follows names from a file or folder; nothing can follow a file, not even an empty name. -/
def walk (t : FileTree) : FileNode → List String → Except FileError FileNode
  | node, [] => .ok node
  | .file _, _ :: _ => .error .notADirectory
  | .folder place, name :: rest => do t.walk (← t.enter place name) rest

/-- Reads the file at a path. -/
def read (t : FileTree) : Files := fun path =>
  if path = "" then .error .notFound
  else if pathLimit ≤ path.utf8ByteSize then .error .nameTooLong
  else
    let start := if path.startsWith "/" then [] else t.workingDirectory
    match t.walk (.folder start) (path.splitOn "/") with
    | .ok (.file text) => .ok text
    | .ok (.folder _) => .error .isADirectory
    | .error e => .error e

/-- The names of a path below a place, the innermost one first. -/
def below (place : List String) (path : String) : List String :=
  (path.splitOn "/").foldl (fun place name => name :: place) place

/-- The folders that lead to a place. -/
def above : List String → List (List String)
  | [] => []
  | _ :: place => place :: above place

/-- A working directory with files in and below it, in a system where the usual folders and the
empty device can be found. -/
def ofFiles (files : List (String × String)) : FileTree :=
  let workingDirectory := ["work", "tmp"]
  let placed := files.map fun (path, text) => (below workingDirectory path, text)
  { files := (["null", "dev"], "") :: placed
    folders := workingDirectory :: placed.flatMap (fun file => above file.1) ++
      ["bin", "boot", "dev", "etc", "home", "lib", "media", "mnt", "opt", "proc", "root", "run",
        "sbin", "srv", "sys", "tmp", "usr", "var"].map fun name => [name]
    workingDirectory }

end FileTree
end RoutePlan
