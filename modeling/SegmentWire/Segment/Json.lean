import SegmentWire.Json.Reading
import SegmentWire.Json.Writing
import SegmentWire.Segment.Basic

/-!
# Segments in JSON

A segment is written as an object with its kind under `type` and its entries under
`interfaces` or `segments`; an interface as an object with `id` and `ia`.

When one is read the fields may stand in any order and further fields are passed
over, but those that count may not be repeated. A segment may also be an array of
the kind and the entries, an interface an array of its two numbers. The kind is
given by its name, within a composition also by its number, 0 or 1.
-/
namespace SegmentWire

namespace SegmentKind

/-- The name under which the entries of a segment stand. -/
def entriesName : SegmentKind → String
  | .literal => "interfaces"
  | .composition => "segments"

/-- Reads a kind. Numbers are allowed if `numbered` is set. -/
def ofJson? (numbered : Bool) : Json → Option SegmentKind
  | .string name =>
    if name = literal.name then some literal
    else if name = composition.name then some composition
    else none
  | .unsigned n =>
    if !numbered then none
    else if n = 0 then some literal
    else if n = 1 then some composition
    else none
  | _ => none

end SegmentKind

namespace Json

/-- The value of the only field with the given name. -/
def onlyField? (name : String) (fields : List (String × Json)) : Option Json :=
  match fields.filter fun field => field.1 == name with
  | [(_, value)] => some value
  | _ => none

def unsigned? : Json → Option UInt64
  | unsigned value => some value
  | _ => none

end Json

namespace PathInterface

def toJson (hop : PathInterface) : Json :=
  .object [("id", .unsigned hop.id), ("ia", .unsigned hop.ia.packed)]

def ofJson? : Json → Option PathInterface
  | .object fields => do
    let id ← (← Json.onlyField? "id" fields).unsigned?
    let ia ← (← Json.onlyField? "ia" fields).unsigned?
    some ⟨id, ⟨ia⟩⟩
  | .array [id, ia] => do
    let id ← id.unsigned?
    let ia ← ia.unsigned?
    some ⟨id, ⟨ia⟩⟩
  | _ => none

def listOfJson? : Json → Option (List PathInterface)
  | .array items => items.mapM ofJson?
  | _ => none

end PathInterface

mutual

def Segment.toJson : Segment → Json
  | .literal interfaces =>
    .object [("type", .string SegmentKind.literal.name),
      (SegmentKind.literal.entriesName, .array (interfaces.map PathInterface.toJson))]
  | .composition segments =>
    .object [("type", .string SegmentKind.composition.name),
      (SegmentKind.composition.entriesName, .array segments.toJsonItems)]

def SegmentList.toJsonItems : SegmentList → List Json
  | .nil => []
  | .cons head tail => head.toJson :: tail.toJsonItems

end

mutual

/-- Reads a segment. `nested` is set for one within a composition. -/
def Segment.ofJson? (nested : Bool) : Json → Option Segment
  | .object fields => do
    match ← SegmentKind.ofJson? nested (← Json.onlyField? "type" fields) with
    | .literal =>
      let entries ← Json.onlyField? SegmentKind.literal.entriesName fields
      (PathInterface.listOfJson? entries).map .literal
    | .composition => (SegmentList.ofFields? fields).map .composition
  | .array [kind, entries] => do
    match ← SegmentKind.ofJson? nested kind with
    | .literal => (PathInterface.listOfJson? entries).map .literal
    | .composition => (SegmentList.ofJson? entries).map .composition
  | _ => none

def SegmentList.ofJson? : Json → Option SegmentList
  | .array items => SegmentList.ofItems? items
  | _ => none

def SegmentList.ofItems? : List Json → Option SegmentList
  | [] => some .nil
  | item :: items => do
    let head ← Segment.ofJson? true item
    let tail ← SegmentList.ofItems? items
    some (.cons head tail)

/-- Reads the children from the only field that holds them. -/
def SegmentList.ofFields? : List (String × Json) → Option SegmentList
  | [] => none
  | (name, value) :: fields =>
    if name = SegmentKind.composition.entriesName then
      if fields.any fun field => field.1 == SegmentKind.composition.entriesName then none
      else SegmentList.ofJson? value
    else SegmentList.ofFields? fields

end

namespace Segment

def listToJson (segments : List Segment) : Json :=
  .array (segments.map toJson)

def listOfJson? : Json → Option (List Segment)
  | .array items => items.mapM (ofJson? false)
  | _ => none

/-- The list of segments in a segment file. -/
def listOfBytes? (bs : Bytes) : Option (List Segment) := do
  listOfJson? (← Json.ofBytes? bs)

end Segment

end SegmentWire
