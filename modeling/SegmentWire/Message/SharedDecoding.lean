import SegmentWire.Message.Decoding
import SegmentWire.Segment.Node.Heights

/-!
# Decoding against a cache of shared nodes

The cache lies in memory. One guard finds the heights of the cached nodes that a
message refers to. The height of a record follows from those of its children, which
are known when the record is read, and it is kept for the records that refer to it.
-/
namespace SegmentWire

/-- A segment with its height. -/
structure Measured where
  segment : Segment
  height : Nat

/-- The cache, the segments of the records that were read, and what is known of the nodes in
memory. -/
structure SharedIncoming where
  cache : Array Node
  decoded : Array Measured
  accepted : Array Segment
  guard : HeightGuard

namespace SharedIncoming

/-- The segment at a position. The cache comes first. -/
def resolve (inc : SharedIncoming) (position : UInt16) :
    Except CodecError (Measured × SharedIncoming) :=
  match inc.cache[position.toNat]? with
  | some node => do
    let (result, guard) := inc.guard.height node
    let height ← result
    .ok (⟨node.segment, height⟩, { inc with guard })
  | none =>
    match inc.decoded[position.toNat - inc.cache.size]? with
    | some measured => .ok (measured, inc)
    | none => .error (.invalidReference position.toNat (inc.cache.size + inc.decoded.size))

def resolveAll (inc : SharedIncoming) :
    List UInt16 → Except CodecError (List Measured × SharedIncoming)
  | [] => .ok ([], inc)
  | position :: positions => do
    let (child, inc) ← inc.resolve position
    let (children, inc) ← inc.resolveAll positions
    .ok (child :: children, inc)

/-- The composition over segments, which must not be taller than the limit. -/
def compose (inc : SharedIncoming) (children : List Measured) : Except CodecError Measured :=
  let height := children.foldr (fun child height => max (child.height + 1) height) 0
  if inc.guard.limit < height then .error inc.guard.refusal
  else .ok ⟨.ofSegments (children.map Measured.segment), height⟩

/-- Reads the entries of a record and builds its segment. -/
def readSegment (inc : SharedIncoming) (head : RecordHead) (cursor : Cursor) :
    Except CodecError ((Measured × SharedIncoming) × Cursor) := do
  let (payload, cursor) ← cursor.take (head.count * head.flags.kind.entryLength)
  match head.flags.kind with
  | .literal =>
    let interfaces ← PathInterface.decodeList payload head.count
    .ok ((⟨.literal interfaces, 0⟩, inc), cursor)
  | .composition =>
    let (children, inc) ← inc.resolveAll (readReferences payload)
    let composition ← inc.compose children
    .ok ((composition, inc), cursor)

/-- Numbers the segment of a record. -/
def add (inc : SharedIncoming) (flags : RecordFlags) (measured : Measured) : SharedIncoming :=
  { inc with
    decoded := inc.decoded.push measured
    accepted := if flags.accepted then inc.accepted.push measured.segment else inc.accepted }

/-- Reads one record with its options. -/
def readRecord (inc : SharedIncoming) (cursor : Cursor) :
    Except CodecError (SharedIncoming × Cursor) := do
  let (head, cursor) ← RecordHead.read cursor
  let ((measured, inc), cursor) ← inc.readSegment head cursor
  let (_, cursor) ← cursor.take head.optionLength
  .ok (inc.add head.flags measured, cursor)

/-- Reads the given number of records. -/
def readRecords : Nat → SharedIncoming → Cursor → Except CodecError (SharedIncoming × Cursor)
  | 0, inc, cursor => .ok (inc, cursor)
  | n + 1, inc, cursor => do
    let (inc, cursor) ← inc.readRecord cursor
    readRecords n inc cursor

end SharedIncoming

/-- Reads a message to a receiver that holds `cache`. -/
def decodeNodes (config : Config) (bs : Bytes) (cache : List Node) :
    Except CodecError DecodedMessage := do
  let header ← Header.parse bs
  let total := header.total.toNat
  let cached := cache.length
  if total < cached then .error (.malformed (.totalBelowCache total cached))
  let start : Cursor := ⟨header.length.toNat, bs.drop header.length.toNat⟩
  let (inc, cursor) ← SharedIncoming.readRecords (total - cached)
    ⟨cache.toArray, #[], #[], .start config.maxDepth⟩ start
  let trailing := cursor.rest.length
  if !config.allowTrailing && 0 < trailing then .error (.trailingBytes trailing)
  .ok {
    newSegments := inc.decoded.toList.map Measured.segment
    acceptedSegments := inc.accepted.toList
    source := header.source
    destination := header.destination }

end SegmentWire
