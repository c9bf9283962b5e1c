import SegmentWire.CommandLine.Arguments
import SegmentWire.IsdAsn.Text

/-!
# Commands

The commands of the program and how they are given on the command line.
-/
namespace SegmentWire

/-- How a command shows its result. -/
inductive OutputFormat
  | text
  | json
  deriving DecidableEq, Repr

/-- Any name but that of the other format means text. -/
def OutputFormat.ofName (name : String) : OutputFormat :=
  if name = "json" then json else text

inductive Command
  | inspect (file : String) (cache : Option String) (format : OutputFormat)
  | encode (segments : String) (cache : Option String) (source destination : IsdAsn)
    (output : String) (format : OutputFormat)
  | fingerprint (segments : String) (format : OutputFormat)
  | version
  deriving DecidableEq, Repr

namespace Command

open Arguments

/-- An option whose value is the name of a file. -/
def fileOption (name : String) (letter : Option Char) : ValueOption :=
  ⟨name, letter, fun value => !value.isEmpty⟩

def isdAsnOption (name : String) : ValueOption :=
  ⟨name, none, fun value => (IsdAsn.ofText value).toOption.isSome⟩

def formatOption : ValueOption :=
  ⟨"format", some 'f', fun _ => true⟩

def inspectGrammar : Grammar :=
  ⟨[fileOption "old" none, formatOption], 1, false⟩

def encodeGrammar : Grammar :=
  ⟨[fileOption "segments" (some 's'), fileOption "old" none, isdAsnOption "src",
    isdAsnOption "dst", fileOption "output" (some 'o'), formatOption], 0, false⟩

def fingerprintGrammar : Grammar :=
  ⟨[fileOption "segments" (some 's'), formatOption], 0, false⟩

def versionGrammar : Grammar :=
  ⟨[], 0, false⟩

/-- What may be given before the name of a command. -/
def topGrammar : Grammar :=
  ⟨[], 0, true⟩

def needed {α : Type} : Option α → Except Stop α
  | some a => .ok a
  | none => .error .misuse

def isdAsn (given : Given) (name : String) : Except Stop IsdAsn := do
  needed (IsdAsn.ofText (← needed (given.value? name))).toOption

def format (given : Given) : OutputFormat :=
  .ofName ((given.value? "format").getD "text")

def inspectOf (given : Given) : Except Stop Command := do
  let file ← needed given.operands.head?
  if file.isEmpty then .error .misuse
  else .ok (.inspect file (given.value? "old") (format given))

def encodeOf (given : Given) : Except Stop Command := do
  let segments ← needed (given.value? "segments")
  let source ← isdAsn given "src"
  let destination ← isdAsn given "dst"
  let output ← needed (given.value? "output")
  .ok (.encode segments (given.value? "old") source destination output (format given))

def fingerprintOf (given : Given) : Except Stop Command := do
  let segments ← needed (given.value? "segments")
  .ok (.fingerprint segments (format given))

/-- The names of the commands. -/
def names : List String :=
  ["inspect", "encode", "fingerprint", "version", "help"]

/-- Reads the arguments of a request for help: nothing, or the name of a command. -/
def helpOf : List String → Stop
  | [] => .help
  | [name] => if name ∈ names then .help else .misuse
  | _ => .misuse

/-- Reads the arguments after the name of a command. -/
def ofName (name : String) (arguments : List String) : Except Stop Command :=
  match name with
  | "inspect" => do inspectOf (← inspectGrammar.take .nothing arguments)
  | "encode" => do encodeOf (← encodeGrammar.take .nothing arguments)
  | "fingerprint" => do fingerprintOf (← fingerprintGrammar.take .nothing arguments)
  | "version" => do
    let _ ← versionGrammar.take .nothing arguments
    .ok .version
  | "help" => .error (helpOf arguments)
  | _ => .error .misuse

/-- Reads the arguments of the program: flags, the name of a command, its arguments. -/
def ofArguments (given : Given) : List String → Except Stop Command
  | [] => .error .misuse
  | argument :: rest =>
    match topGrammar.items argument with
    | [.operand name] => ofName name rest
    | items =>
      match topGrammar.takeItems given items with
      | .ok (given, .arguments) => ofArguments given rest
      | .ok _ => .error .misuse
      | .error stop => .error stop

end Command

end SegmentWire
