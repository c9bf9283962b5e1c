import SegmentWire.Json.Basic
import SegmentWire.Json.Quoted

/-!
# Writing JSON

There are two layouts. The compact one has no blanks. The indented one gives each
item and each field a line, two spaces deeper than the line that opens the
container. An empty container is two brackets in both.
-/
namespace SegmentWire.Json

inductive Layout
  | compact
  | indented
  deriving DecidableEq, Repr

namespace Layout

/-- What stands before an item at the given level. -/
def lineBreak (layout : Layout) (level : Nat) : List Char :=
  match layout with
  | compact => []
  | indented => '\n' :: List.replicate (2 * level) ' '

/-- What stands between the name of a field and its value. -/
def colon : Layout → List Char
  | compact => [':']
  | indented => [':', ' ']

end Layout

mutual

/-- The text of a value that stands at the given level, and after it `rest`. -/
def write (layout : Layout) (level : Nat) : Json → List Char → List Char
  | null, rest => 'n' :: 'u' :: 'l' :: 'l' :: rest
  | bool true, rest => 't' :: 'r' :: 'u' :: 'e' :: rest
  | bool false, rest => 'f' :: 'a' :: 'l' :: 's' :: 'e' :: rest
  | unsigned value, rest => Nat.toDigits 10 value.toNat ++ rest
  | number numeral, rest => numeral.write ++ rest
  | string value, rest => Quoted.write value ++ rest
  | array [], rest => '[' :: ']' :: rest
  | array (item :: items), rest =>
    '[' :: (layout.lineBreak (level + 1) ++
      write layout (level + 1) item (writeItems layout level items rest))
  | object [], rest => '\x7b' :: '\x7d' :: rest
  | object ((name, value) :: fields), rest =>
    '\x7b' :: (layout.lineBreak (level + 1) ++ (Quoted.write name ++ (layout.colon ++
      write layout (level + 1) value (writeFields layout level fields rest))))

/-- The items after the first one of an array at the given level, and the end of the array. -/
def writeItems (layout : Layout) (level : Nat) : List Json → List Char → List Char
  | [], rest => layout.lineBreak level ++ ']' :: rest
  | item :: items, rest =>
    ',' :: (layout.lineBreak (level + 1) ++
      write layout (level + 1) item (writeItems layout level items rest))

/-- The fields after the first one of an object at the given level, and the end of the object. -/
def writeFields (layout : Layout) (level : Nat) : List (String × Json) → List Char → List Char
  | [], rest => layout.lineBreak level ++ '\x7d' :: rest
  | (name, value) :: fields, rest =>
    ',' :: (layout.lineBreak (level + 1) ++ (Quoted.write name ++ (layout.colon ++
      write layout (level + 1) value (writeFields layout level fields rest))))

end

/-- The text of a value. -/
def render (layout : Layout) (value : Json) : String :=
  String.ofList (write layout 0 value [])

end SegmentWire.Json
