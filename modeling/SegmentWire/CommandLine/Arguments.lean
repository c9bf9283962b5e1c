/-!
# Command-line arguments

A command has flags, options that take a value, and operands. A flag or option is
given by its long name after two hyphens or by its letter after one. Letters may
stand together, and the first one of an option ends the group. The value of an
option follows it, after an equals sign, directly after the letter, or as the next
argument, which must not look like a flag. After two hyphens alone all arguments
are operands. Nothing may be given twice.
-/
namespace SegmentWire.Arguments

/-- An option that takes a value. -/
structure ValueOption where
  name : String
  letter : Option Char
  /-- Whether the option takes the value. -/
  accepts : String → Bool

/-- What may be given to a command. -/
structure Grammar where
  options : List ValueOption
  /-- Operands that are taken at most. -/
  operands : Nat
  /-- Whether the command tells its version. -/
  hasVersion : Bool

/-- What has been given to a command. -/
structure Given where
  verbose : Bool
  values : List (String × String)
  operands : List String

namespace Given

def nothing : Given :=
  ⟨false, [], []⟩

def value? (given : Given) (name : String) : Option String :=
  given.values.lookup name

end Given

/-- Why the arguments do not make up a command. -/
inductive Stop
  | misuse
  | help
  | version
  deriving DecidableEq, Repr

/-- What an argument stands for, from left to right. -/
inductive Item
  | verbose
  | help
  | version
  /-- An option with its value. -/
  | setting (option : ValueOption) (value : String)
  /-- An option whose value is the next argument. -/
  | pending (option : ValueOption)
  | operand (text : String)
  /-- Two hyphens alone. -/
  | endOfOptions
  | unknown

namespace Grammar

/-- What the letters of a group stand for. -/
def lettersToItems (grammar : Grammar) : List Char → List Item
  | [] => []
  | c :: cs =>
    if c = 'v' then .verbose :: grammar.lettersToItems cs
    else if c = 'h' then .help :: grammar.lettersToItems cs
    else if c = 'V' ∧ grammar.hasVersion then .version :: grammar.lettersToItems cs
    else match grammar.options.find? fun option => option.letter == some c with
      | none => [.unknown]
      | some option =>
        match cs with
        | [] => [.pending option]
        | '=' :: value => [.setting option (String.ofList value)]
        | value => [.setting option (String.ofList value)]

/-- What a long name stands for, with the value after the equals sign if there is one. -/
def nameToItem (grammar : Grammar) (name : String) (value? : Option String) : Item :=
  match grammar.options.find? fun option => option.name == name with
  | some option =>
    match value? with
    | some value => .setting option value
    | none => .pending option
  | none =>
    if value?.isSome then .unknown
    else if name = "verbose" then .verbose
    else if name = "help" then .help
    else if name = "version" ∧ grammar.hasVersion then .version
    else .unknown

/-- What an argument stands for. A single hyphen is an operand. -/
def items (grammar : Grammar) (argument : String) : List Item :=
  match argument.toList with
  | ['-', '-'] => [.endOfOptions]
  | '-' :: '-' :: text =>
    match text.span (· != '=') with
    | (name, _ :: value) => [grammar.nameToItem (String.ofList name) (some (String.ofList value))]
    | (name, []) => [grammar.nameToItem (String.ofList name) none]
  | '-' :: c :: letters => grammar.lettersToItems (c :: letters)
  | _ => [.operand argument]

def addOperand (grammar : Grammar) (given : Given) (operand : String) : Except Stop Given :=
  if given.operands.length < grammar.operands then
    .ok { given with operands := given.operands ++ [operand] }
  else .error .misuse

def addValue (given : Given) (option : ValueOption) (value : String) : Except Stop Given :=
  if (given.value? option.name).isSome || !option.accepts value then .error .misuse
  else .ok { given with values := given.values ++ [(option.name, value)] }

def addVerbose (given : Given) : Except Stop Given :=
  if given.verbose then .error .misuse else .ok { given with verbose := true }

/-- Whether an argument cannot be the value of the option before it. -/
def looksLikeFlag (argument : String) : Bool :=
  match argument.toList with
  | '-' :: _ :: _ => true
  | _ => false

/-- What follows the items of an argument. -/
inductive Next
  | arguments
  | value (option : ValueOption)
  | operands

/-- Takes the items of one argument. -/
def takeItems (grammar : Grammar) : Given → List Item → Except Stop (Given × Next)
  | given, [] => .ok (given, .arguments)
  | _, .help :: _ => .error .help
  | _, .version :: _ => .error .version
  | _, .unknown :: _ => .error .misuse
  | given, .endOfOptions :: _ => .ok (given, .operands)
  | given, .pending option :: _ => .ok (given, .value option)
  | given, .verbose :: items => do
    let given ← addVerbose given
    grammar.takeItems given items
  | given, .setting option value :: items => do
    let given ← addValue given option value
    grammar.takeItems given items
  | given, .operand text :: items => do
    let given ← grammar.addOperand given text
    grammar.takeItems given items

/-- Takes arguments that are all operands. -/
def takeOperands (grammar : Grammar) : Given → List String → Except Stop Given
  | given, [] => .ok given
  | given, operand :: rest => do
    let given ← grammar.addOperand given operand
    grammar.takeOperands given rest

/-- Takes all arguments of a command. -/
def take (grammar : Grammar) : Given → List String → Except Stop Given
  | given, [] => .ok given
  | given, argument :: rest =>
    match grammar.takeItems given (grammar.items argument) with
    | .error stop => .error stop
    | .ok (given, .arguments) => grammar.take given rest
    | .ok (given, .operands) => grammar.takeOperands given rest
    | .ok (given, .value option) =>
      match rest with
      | [] => .error .misuse
      | value :: rest =>
        if looksLikeFlag value then .error .misuse
        else match addValue given option value with
          | .ok given => grammar.take given rest
          | .error stop => .error stop

end Grammar

end SegmentWire.Arguments
