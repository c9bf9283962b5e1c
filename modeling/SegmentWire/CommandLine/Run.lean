import SegmentWire.CommandLine.Command
import SegmentWire.CommandLine.Files
import SegmentWire.Message.Delivery
import SegmentWire.Message.Inspection
import SegmentWire.Segment.Json

/-!
# Running commands

A command reads the file that it is about, then the cache, works on both, and
writes its own file last. The first failure ends it.
-/
namespace SegmentWire

/-- Why a command fails. -/
inductive CommandFault
  | file (name : String) (cause : FileFault)
  /-- A file of segments does not hold a list of segments. -/
  | json
  | codec (cause : CodecError)
  deriving DecidableEq, Repr

namespace CommandFault

def dump : CommandFault → String
  | file name cause =>
    "Io \x7b path: " ++ Text.quote name ++ ", source: " ++ cause.dump ++ " \x7d"
  | json => "Json"
  | codec cause => "Codec(" ++ cause.dump ++ ")"

def message (fault : CommandFault) : String :=
  "Error: " ++ fault.dump

end CommandFault

/-- The name of the program and its release. -/
def releaseLine : String :=
  "pathseg 0.3.0"

/-- What the program tells about itself as a command. -/
def versionLine : String :=
  "pathseg CLI v0.3.0"

namespace Command

variable {m : Type → Type} [Monad m]

def readFile (files : FileAccess m) (name : String) : ExceptT CommandFault m Bytes := do
  match ← files.read name with
  | .ok bs => return bs
  | .error cause => throw (.file name cause)

def writeFile (files : FileAccess m) (name : String) (bs : Bytes) :
    ExceptT CommandFault m Unit := do
  match ← files.write name bs with
  | .ok () => return
  | .error cause => throw (.file name cause)

def loadSegments (files : FileAccess m) (name : String) :
    ExceptT CommandFault m (List Segment) := do
  match Segment.listOfBytes? (← readFile files name) with
  | some segments => return segments
  | none => throw .json

/-- Loads the cache, which is empty without a file. -/
def loadCache (files : FileAccess m) (name? : Option String) :
    ExceptT CommandFault m (List Segment) :=
  match name? with
  | some name => loadSegments files name
  | none => return []

def orCodecFault {α : Type} : Except CodecError α → ExceptT CommandFault m α
  | .ok a => return a
  | .error cause => throw (.codec cause)

/-- Announces segments in a message that is written to a file. -/
def encodeToFile (files : FileAccess m) (cache segments : List Segment)
    (source destination : IsdAsn) (output : String) : ExceptT CommandFault m Delivery := do
  let message ← orCodecFault (SegmentWire.encode {} cache segments source destination)
  writeFile files output message.bytes
  return .ofMessage output cache segments message

/-- Text of which every line is ended. -/
def endLines (lines : List String) : String :=
  String.join (lines.map fun line => line ++ "\n")

/-- The output of a command in either format. -/
def display (format : OutputFormat) (lines : List String) (value : Json) : String :=
  match format with
  | .text => endLines lines
  | .json => endLines [value.render .indented]

/-- Runs a command and returns its output. -/
def run (files : FileAccess m) : Command → ExceptT CommandFault m String
  | inspect file cache format => do
    let bs ← readFile files file
    let cache ← loadCache files cache
    let inspection ← orCodecFault (Inspection.ofMessage bs cache)
    return display format inspection.lines inspection.toJson
  | encode segments cache source destination output format => do
    let segments ← loadSegments files segments
    let cache ← loadCache files cache
    let delivery ← encodeToFile files cache segments source destination output
    return display format delivery.lines delivery.toJson
  | fingerprint segments format => do
    let summaries := Summary.ofList 0 (← loadSegments files segments)
    return display format (summaries.map Summary.fingerprintLine) (Summary.listToJson summaries)
  | version => return endLines [versionLine]

end Command

/-- How a run of the program ends. -/
structure ExitReport where
  code : Nat
  output : String
  /-- What is reported if the run fails. -/
  error : Option String
  deriving DecidableEq, Repr

/-- How the program is used. -/
def usage : String :=
  Command.endLines [
    "Usage: pathseg [-v] COMMAND",
    "",
    "  inspect FILE [--old FILE] [-f FORMAT]",
    "  encode -s FILE [--old FILE] --src IA --dst IA -o FILE [-f FORMAT]",
    "  fingerprint -s FILE [-f FORMAT]",
    "  version"]

/-- Runs the program with the given arguments. -/
def runProgram {m : Type → Type} [Monad m] (files : FileAccess m) (arguments : List String) :
    m ExitReport := do
  match Command.ofArguments .nothing arguments with
  | .error .misuse => return ⟨2, "", some usage⟩
  | .error .help => return ⟨0, usage, none⟩
  | .error .version => return ⟨0, Command.endLines [releaseLine], none⟩
  | .ok command =>
    match ← (command.run files).run with
    | .ok output => return ⟨0, output, none⟩
    | .error fault => return ⟨1, "", some (Command.endLines [fault.message])⟩

end SegmentWire
