/-
Files by their paths. A path is a row of names between slashes, walked
from the left: an empty name and a lone dot stay where they are, two
dots go to the directory above, and every other name is looked up. All
of them need a directory to stand in, so a slash after the name of a
file is a fault.

A path that starts with a slash is walked from the root, any other from
the place where the program runs.
-/
import Attestation.Bytes.Basic

namespace Attestation

/-- Why a file cannot be read. -/
inductive FileFault where
  | notFound
  | forbidden
  | notDirectory
  | isDirectory
  | nameTooLong
  /-- Any other cause, in the system's words. -/
  | other (words : String)
deriving DecidableEq

def FileFault.message : FileFault → String
  | .notFound => "No such file or directory (os error 2)"
  | .forbidden => "Permission denied (os error 13)"
  | .notDirectory => "Not a directory (os error 20)"
  | .isDirectory => "Is a directory (os error 21)"
  | .nameTooLong => "File name too long (os error 36)"
  | .other words => words

/-- A file, or a directory with what it holds. -/
inductive FileTree where
  | file (content : Bytes)
  | directory (entries : List (String × FileTree))

namespace FileTree

/-- A place in a tree: a file or directory, and the directories around
it, the nearest first. -/
structure Place where
  here : FileTree
  above : List FileTree

/-- The longest name that can be looked up, in bytes. -/
def maxName : Nat := 255

/-- The longest path that can be walked, in bytes. -/
def maxPath : Nat := 4095

def names : List Char → List (List Char)
  | [] => [[]]
  | c :: rest =>
    match names rest with
    | [] => [[c]]
    | name :: later =>
      if c = '/' then [] :: name :: later else (c :: name) :: later

/-- The entries of a directory with one more file, at a path through
directories that are made where there are none. -/
def put (content : Bytes) :
    List String → List (String × FileTree) → List (String × FileTree)
  | [], entries => entries
  | [name], entries => (name, file content) :: entries
  | name :: path, entries =>
    let inside :=
      match entries.lookup name with
      | some (directory inside) => inside
      | _ => []
    (name, directory (put content path inside)) :: entries

/-- The directory that holds files at the given paths. -/
def ofFiles (files : List (String × Bytes)) : FileTree :=
  directory (files.foldl (fun entries (path, content) =>
    put content ((names path.toList).map String.ofList) entries) [])

namespace Place

/-- The place at the root of the tree. -/
def root (p : Place) : Place :=
  ⟨p.above.getLast?.getD p.here, []⟩

/-- The place that a name leads to. The directory above the root is the
root. -/
def step (p : Place) (name : String) : Except FileFault Place :=
  match p.here with
  | .file _ => .error .notDirectory
  | .directory entries =>
    if name = "" ∨ name = "." then .ok p
    else if name = ".." then
      match p.above with
      | [] => .ok p
      | up :: above => .ok ⟨up, above⟩
    else if maxName < name.utf8ByteSize then .error .nameTooLong
    else
      match entries.lookup name with
      | none => .error .notFound
      | some there => .ok ⟨there, p.here :: p.above⟩

def walk (p : Place) (path : String) : Except FileFault Place :=
  if path = "" then .error .notFound
  else if maxPath < path.utf8ByteSize then .error .nameTooLong
  else
    let start := if path.toList.head? = some '/' then p.root else p
    ((names path.toList).map String.ofList).foldlM step start

def read (p : Place) (path : String) : Except FileFault Bytes := do
  let place ← p.walk path
  match place.here with
  | .file content => .ok content
  | .directory _ => .error .isDirectory

end Place

end FileTree

end Attestation
