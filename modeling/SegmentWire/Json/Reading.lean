import SegmentWire.BigEndian
import SegmentWire.Json.Basic
import SegmentWire.Json.Quoted

/-!
# Reading JSON

A text is one value with blanks around its tokens. Containers nest at most
`maxNesting` deep, and the one beyond is refused as soon as it opens.
-/
namespace SegmentWire.Json

/-- Containers that may be open at the same time. -/
def maxNesting : Nat := 127

def isBlank (c : Char) : Bool :=
  c == ' ' || c == '\n' || c == '\t' || c == '\r'

def skipBlanks (cs : List Char) : List Char :=
  cs.dropWhile isBlank

/-- Reads items with commas between them and the closing bracket after them. No more items are
read than `bound`. -/
def readItems {α : Type} (readItem : List Char → Option (α × List Char)) (closing : Char) :
    Nat → List α → List Char → Option (List α × List Char)
  | 0, _, _ => none
  | bound + 1, items, cs =>
    match readItem cs with
    | none => none
    | some (item, rest) =>
      match skipBlanks rest with
      | [] => none
      | c :: rest =>
        if c = ',' then readItems readItem closing bound (item :: items) rest
        else if c = closing then some ((item :: items).reverse, rest)
        else none

/-- Reads the rest of a container whose opening bracket has been read. -/
def readContainer {α : Type} (readItem : List Char → Option (α × List Char)) (closing : Char)
    (cs : List Char) : Option (List α × List Char) :=
  match skipBlanks cs with
  | [] => none
  | c :: rest =>
    if c = closing then some ([], rest)
    else readItems readItem closing cs.length [] (c :: rest)

/-- Reads a name, a colon and a value. -/
def readField (readValue : List Char → Option (Json × List Char)) (cs : List Char) :
    Option ((String × Json) × List Char) :=
  match skipBlanks cs with
  | '"' :: rest => do
    let (name, rest) ← Quoted.read rest
    match skipBlanks rest with
    | ':' :: rest =>
      let (value, rest) ← readValue rest
      some ((name, value), rest)
    | _ => none
  | _ => none

/-- Reads a number, which has to be finite. -/
def readNumber (cs : List Char) : Option (Json × List Char) := do
  let (numeral, rest) ← Numeral.read cs
  match numeral.unsigned? with
  | some value => some (unsigned value, rest)
  | none => if numeral.isFinite then some (number numeral, rest) else none

/-- Reads a value in which at most `nesting` containers are open at the same time. -/
def readValue (nesting : Nat) (cs : List Char) : Option (Json × List Char) :=
  match skipBlanks cs with
  | '"' :: rest => (Quoted.read rest).map fun (text, rest) => (string text, rest)
  | '[' :: rest =>
    match nesting with
    | 0 => none
    | nesting + 1 =>
      (readContainer (readValue nesting) ']' rest).map fun (items, rest) => (array items, rest)
  | '\x7b' :: rest =>
    match nesting with
    | 0 => none
    | nesting + 1 =>
      (readContainer (readField (readValue nesting)) '\x7d' rest).map fun (fields, rest) =>
        (object fields, rest)
  | 'n' :: 'u' :: 'l' :: 'l' :: rest => some (null, rest)
  | 't' :: 'r' :: 'u' :: 'e' :: rest => some (bool true, rest)
  | 'f' :: 'a' :: 'l' :: 's' :: 'e' :: rest => some (bool false, rest)
  | cs => readNumber cs

/-- The value of a whole text. -/
def ofText? (cs : List Char) : Option Json := do
  let (value, rest) ← readValue maxNesting cs
  if (skipBlanks rest).isEmpty then some value else none

/-- The value of a whole text in UTF-8. -/
def ofBytes? (bs : Bytes) : Option Json := do
  let text ← String.fromUTF8? ⟨bs.toArray⟩
  ofText? text.toList

end SegmentWire.Json
