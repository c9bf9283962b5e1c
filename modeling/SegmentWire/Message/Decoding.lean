import SegmentWire.Config
import SegmentWire.Header
import SegmentWire.Record

/-!
# Decoding messages

The receiver numbers its cache first and then the records, in order. A record's
references must name segments that are numbered already, and no segment may be
taller than the depth limit. References are resolved before the options of their
record are read, so of several faults the first in that order is reported.
-/
namespace SegmentWire

structure DecodedMessage where
  /-- The segments of all records, in record order. -/
  newSegments : List Segment
  /-- The segments of the records marked as accepted, in record order. -/
  acceptedSegments : List Segment
  source : IsdAsn
  destination : IsdAsn
  deriving DecidableEq

/-- A place in a message: the bytes before it, counted, and the bytes from it on. -/
structure Cursor where
  offset : Nat
  rest : Bytes
  deriving DecidableEq, Repr

/-- Takes the next `n` bytes. -/
def Cursor.take (cursor : Cursor) (n : Nat) : Except CodecError (Bytes × Cursor) :=
  let taken := cursor.rest.take n
  if taken.length = n then .ok (taken, ⟨cursor.offset + n, cursor.rest.drop n⟩)
  else .error (.malformed (.recordTruncated n cursor.offset taken.length))

/-- The fixed part of a record. -/
structure RecordHead where
  flags : RecordFlags
  count : Nat
  optionLength : Nat
  deriving DecidableEq, Repr

def RecordHead.read (cursor : Cursor) : Except CodecError (RecordHead × Cursor) := do
  let (flags, cursor) ← cursor.take 1
  let (count, cursor) ← cursor.take 1
  let (optionLength, cursor) ← cursor.take 2
  .ok (⟨.ofByte (flags.headD 0), (count.headD 0).toNat, (BigEndian.toU16 optionLength).toNat⟩,
    cursor)

/-- Reads bytes two at a time as positions. -/
def readReferences : Bytes → List UInt16
  | high :: low :: rest => BigEndian.toU16 [high, low] :: readReferences rest
  | _ => []

/-- The segments that a receiver has numbered, and those among the records it has accepted. -/
structure Incoming where
  known : Array Segment
  accepted : Array Segment

namespace Incoming

/-- The segment at a position, which must not be taller than the limit. -/
def resolve (config : Config) (inc : Incoming) (position : UInt16) : Except CodecError Segment :=
  match inc.known[position.toNat]? with
  | some s =>
    if config.maxDepth < s.height then .error (.nestingTooDeep config.maxDepth) else .ok s
  | none => .error (.invalidReference position.toNat inc.known.size)

/-- Reads the entries of a record and builds its segment. -/
def readSegment (config : Config) (inc : Incoming) (head : RecordHead) (cursor : Cursor) :
    Except CodecError (Segment × Cursor) := do
  let (payload, cursor) ← cursor.take (head.count * head.flags.kind.entryLength)
  match head.flags.kind with
  | .literal =>
    let interfaces ← PathInterface.decodeList payload head.count
    .ok (.literal interfaces, cursor)
  | .composition =>
    let children ← (readReferences payload).mapM (inc.resolve config)
    let s := Segment.ofSegments children
    if config.maxDepth < s.height then .error (.nestingTooDeep config.maxDepth)
    else .ok (s, cursor)

/-- Numbers the segment of a record. -/
def add (inc : Incoming) (flags : RecordFlags) (s : Segment) : Incoming :=
  ⟨inc.known.push s, if flags.accepted then inc.accepted.push s else inc.accepted⟩

/-- Reads one record with its options. -/
def readRecord (config : Config) (inc : Incoming) (cursor : Cursor) :
    Except CodecError (Incoming × Cursor) := do
  let (head, cursor) ← RecordHead.read cursor
  let (s, cursor) ← inc.readSegment config head cursor
  let (_, cursor) ← cursor.take head.optionLength
  .ok (inc.add head.flags s, cursor)

/-- Reads the given number of records. -/
def readRecords (config : Config) : Nat → Incoming → Cursor →
    Except CodecError (Incoming × Cursor)
  | 0, inc, cursor => .ok (inc, cursor)
  | n + 1, inc, cursor =>
    match inc.readRecord config cursor with
    | .ok (inc, cursor) => readRecords config n inc cursor
    | .error e => .error e

end Incoming

/-- Reads a message to a receiver that holds `cache`. -/
def decode (config : Config) (bs : Bytes) (cache : List Segment) :
    Except CodecError DecodedMessage := do
  let header ← Header.parse bs
  let total := header.total.toNat
  let cached := cache.length
  if total < cached then .error (.malformed (.totalBelowCache total cached))
  let start : Cursor := ⟨header.length.toNat, bs.drop header.length.toNat⟩
  let (inc, cursor) ← Incoming.readRecords config (total - cached) ⟨cache.toArray, #[]⟩ start
  let trailing := cursor.rest.length
  if !config.allowTrailing && 0 < trailing then .error (.trailingBytes trailing)
  .ok {
    newSegments := inc.known.toList.drop cached
    acceptedSegments := inc.accepted.toList
    source := header.source
    destination := header.destination }

end SegmentWire
