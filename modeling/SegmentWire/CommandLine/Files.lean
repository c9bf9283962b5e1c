import SegmentWire.BigEndian

/-!
# Access to files

The commands read and write whole files. They do it through an interface, so that
they run the same on the files of a machine and on a directory in memory.
-/
namespace SegmentWire

/-- Why a file cannot be read or written. -/
inductive FileFault
  | notFound
  | permissionDenied
  | notDirectory
  | isDirectory
  | nameTooLong
  /-- Any other failure of the device. -/
  | deviceError
  deriving DecidableEq, Repr

namespace FileFault

/-- The number of the fault. -/
def code : FileFault → Nat
  | notFound => 2
  | permissionDenied => 13
  | notDirectory => 20
  | isDirectory => 21
  | nameTooLong => 36
  | deviceError => 5

def name : FileFault → String
  | notFound => "NotFound"
  | permissionDenied => "PermissionDenied"
  | notDirectory => "NotADirectory"
  | isDirectory => "IsADirectory"
  | nameTooLong => "InvalidFilename"
  | deviceError => "Uncategorized"

def message : FileFault → String
  | notFound => "No such file or directory"
  | permissionDenied => "Permission denied"
  | notDirectory => "Not a directory"
  | isDirectory => "Is a directory"
  | nameTooLong => "File name too long"
  | deviceError => "Input/output error"

/-- The fault with its fields named. -/
def dump (fault : FileFault) : String :=
  "Os \x7b code: " ++ Nat.repr fault.code ++ ", kind: " ++ fault.name ++ ", message: \"" ++
    fault.message ++ "\" \x7d"

end FileFault

/-- How files are read and written. -/
structure FileAccess (m : Type → Type) where
  read : String → m (Except FileFault Bytes)
  write : String → Bytes → m (Except FileFault Unit)

end SegmentWire
