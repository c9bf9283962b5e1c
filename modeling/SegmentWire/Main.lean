import SegmentWire.CommandLine.Run

/-!
# The program

Runs the command that the arguments give on the files of the machine.
-/
namespace SegmentWire

/-- What a failure of the machine means to a command. -/
def FileFault.ofError : IO.Error → FileFault
  | .noFileOrDirectory .. => .notFound
  | .permissionDenied .. => .permissionDenied
  | .inappropriateType _ code _ => if code = 20 then .notDirectory else .isDirectory
  | .invalidArgument _ code _ => if code = 36 then .nameTooLong else .deviceError
  | _ => .deviceError

/-- Access to the files of the machine. -/
def FileAccess.machine : FileAccess IO where
  read path := do
    match ← (IO.FS.readBinFile path).toBaseIO with
    | .ok contents => return .ok contents.toList
    | .error e => return .error (.ofError e)
  write path bs := do
    match ← (IO.FS.writeBinFile path ⟨bs.toArray⟩).toBaseIO with
    | .ok () => return .ok ()
    | .error e => return .error (.ofError e)

end SegmentWire

def main (arguments : List String) : IO UInt32 := do
  let report ← SegmentWire.runProgram .machine arguments
  IO.print report.output
  if let some text := report.error then IO.eprint text
  return UInt32.ofNat report.code
