import SegmentWire.CommandLine.Files
import SegmentWire.Text.Parts

/-!
# A directory in memory

A directory holds files under their names and no other directories. A path leads
to a file of the directory, to the directory itself or one that it lies in, or to
nothing that is there.
-/
namespace SegmentWire

structure Directory where
  files : List (String × Bytes)

namespace Directory

def find? (directory : Directory) (name : String) : Option Bytes :=
  directory.files.lookup name

/-- Replaces the file of the given name, or adds it at the end. -/
def put (directory : Directory) (name : String) (contents : Bytes) : Directory :=
  if (directory.find? name).isSome then
    ⟨directory.files.map fun file => if file.1 == name then (name, contents) else file⟩
  else ⟨directory.files ++ [(name, contents)]⟩

/-- Where a path leads. -/
inductive Place
  /-- The directory itself, or one that it lies in. -/
  | top
  | file (name : String)
  /-- A name with nothing but slashes after it, which has to be that of a directory. -/
  | subdirectory (name : String)
  /-- Something in a directory of the given name. -/
  | within (name : String)
  /-- Something in another directory, with its name followed by slashes or not. -/
  | elsewhere (name : String) (slashed : Bool)
  deriving DecidableEq, Repr

/-- Whether a part of a path stays where it is: nothing between two slashes, or a dot. -/
def isIdle (part : List Char) : Bool :=
  part == [] || part == ['.']

/-- Whether the parts after a name are slashes and nothing else. -/
def isSlashed (rest : List (List Char)) : Bool :=
  !rest.isEmpty && rest.all (· == [])

/-- Follows a path from the first name in it, given the parts after the name. -/
def placeFrom (name : String) (rest : List (List Char)) : Place :=
  if rest.isEmpty then .file name
  else if isSlashed rest then .subdirectory name
  else .within name

/-- Follows a path. -/
def place (path : String) : Place :=
  let parts := Text.parts '/' path.toList
  let isUpward (part : List Char) := isIdle part || part == ['.', '.']
  match parts.dropWhile isIdle, parts.dropWhile isUpward with
  | _, [] => .top
  | first :: rest, name :: after =>
    if parts.head? == some [] || first == ['.', '.'] then
      .elsewhere (String.ofList name) (isSlashed after)
    else placeFrom (String.ofList first) rest
  | [], _ => .top

/-- The longest name of a file, in bytes. -/
def maxNameLength : Nat := 255

/-- The longest path, in bytes. -/
def maxPathLength : Nat := 4095

/-- What is wrong with a name that is not there. -/
def absence (name : String) : FileFault :=
  if maxNameLength < name.utf8ByteSize then .nameTooLong else .notFound

/-- What is wrong with a name that should be that of a directory. -/
def subdirectoryFault (directory : Directory) (name : String) : FileFault :=
  if (directory.find? name).isSome then .notDirectory else absence name

def read (directory : Directory) (path : String) : Except FileFault Bytes :=
  if maxPathLength < path.utf8ByteSize then .error .nameTooLong
  else match place path with
    | .top => .error .isDirectory
    | .elsewhere name _ => .error (absence name)
    | .within name | .subdirectory name => .error (directory.subdirectoryFault name)
    | .file name =>
      match directory.find? name with
      | some contents => .ok contents
      | none => .error (absence name)

def write (directory : Directory) (path : String) (contents : Bytes) :
    Except FileFault Directory :=
  if maxPathLength < path.utf8ByteSize then .error .nameTooLong
  else match place path with
    | .top | .subdirectory _ | .elsewhere _ true => .error .isDirectory
    | .elsewhere name false => .error (absence name)
    | .within name => .error (directory.subdirectoryFault name)
    | .file name =>
      if maxNameLength < name.utf8ByteSize then .error .nameTooLong
      else .ok (directory.put name contents)

/-- Access to the files of a directory that is passed on from one step to the next. -/
def access : FileAccess (StateM Directory) where
  read path := do
    return (← get).read path
  write path contents := do
    match (← get).write path contents with
    | .ok directory =>
      set directory
      return .ok ()
    | .error fault => return .error fault

end Directory

end SegmentWire
