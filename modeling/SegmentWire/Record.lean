import SegmentWire.Segment.Basic

/-!
# Segment records

```text
0      flags: bit 0 the kind, bit 1 set if accepted
1      number of entries
2..4   length of the options
       entries, then options
```

The entries of a literal are interfaces, those of a composition are positions in
the sequence of segments that sender and receiver number together. Records are
written without options.
-/
namespace SegmentWire

/-- Bytes before the entries of a record. -/
def recordHeadLength : Nat := 4

/-- Bytes in the wire form of a position. -/
def referenceLength : Nat := 2

structure RecordFlags where
  kind : SegmentKind
  accepted : Bool
  deriving DecidableEq, Repr

namespace RecordFlags

def kindMask : UInt8 := 1

def acceptedMask : UInt8 := 2

/-- The six other bits are ignored. -/
def ofByte (b : UInt8) : RecordFlags where
  kind := if b &&& kindMask = 0 then .literal else .composition
  accepted := b &&& acceptedMask != 0

def toByte (flags : RecordFlags) : UInt8 :=
  (match flags.kind with
    | .literal => 0
    | .composition => kindMask) ||| (if flags.accepted then acceptedMask else 0)

@[simp] theorem ofByte_toByte (flags : RecordFlags) : ofByte flags.toByte = flags := by
  obtain ⟨kind, accepted⟩ := flags
  cases kind <;> cases accepted <;> decide

end RecordFlags

/-- The entries of a record. -/
inductive Payload
  | interfaces (hops : List PathInterface)
  | references (positions : List UInt16)
  deriving DecidableEq, Repr

namespace Payload

def kind : Payload → SegmentKind
  | interfaces _ => .literal
  | references _ => .composition

def count : Payload → Nat
  | interfaces hops => hops.length
  | references positions => positions.length

def toBytes : Payload → Bytes
  | interfaces hops => PathInterface.encodeList hops
  | references positions => positions.flatMap BigEndian.u16

end Payload

/-- Bytes taken by one entry of a record. -/
def SegmentKind.entryLength : SegmentKind → Nat
  | .literal => PathInterface.wireLength
  | .composition => referenceLength

structure Record where
  accepted : Bool
  payload : Payload
  deriving DecidableEq, Repr

namespace Record

def flags (r : Record) : RecordFlags :=
  ⟨r.payload.kind, r.accepted⟩

def toBytes (r : Record) : Bytes :=
  r.flags.toByte :: UInt8.ofNat r.payload.count :: (BigEndian.u16 0 ++ r.payload.toBytes)

/-- The accepted one-child composition that announces a segment the receiver knows. -/
def wrapper (position : UInt16) : Record :=
  ⟨true, .references [position]⟩

end Record

end SegmentWire
