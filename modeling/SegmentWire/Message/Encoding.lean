import SegmentWire.Config
import SegmentWire.Header
import SegmentWire.IndexTable

/-!
# Encoding messages

A message announces a list of segments to a receiver that holds a cache. Each
segment goes out as one accepted record. Before it go the proper subsegments that
the receiver does not know, in post-order and not accepted; a subsegment that has
a position is only referred to, and its own subsegments are left alone. A listed
segment that is already known goes out as a one-child composition around it, so
that every listed segment takes exactly one position.
-/
namespace SegmentWire

structure EncodedMessage where
  bytes : Bytes
  /-- The segments that the records stand for, in record order. -/
  sent : List Segment

/-- A message in the making. -/
structure Outgoing where
  table : IndexTable
  records : Array Record
  sent : Array Segment

namespace Outgoing

/-- Registers a segment and adds its record. -/
def emit (out : Outgoing) (accepted : Bool) (s : Segment) : Except CodecError Outgoing := do
  let (_, table) ← out.table.assign s.fingerprint
  let record ← table.record accepted s
  .ok ⟨table, out.records.push record, out.sent.push s⟩

/-- Adds the wrapper record of a segment whose position is known. -/
def emitWrapper (out : Outgoing) (s : Segment) (position : UInt16) :
    Except CodecError Outgoing := do
  let (_, table) ← out.table.reserve
  .ok ⟨table, out.records.push (.wrapper position), out.sent.push s.wrapper⟩

mutual

/-- Emits the proper subsegments of a segment that have no position yet. -/
def introduce (out : Outgoing) : Segment → Except CodecError Outgoing
  | .literal _ => .ok out
  | .composition segments => out.introduceEach segments

/-- Emits the segments of a list that have no position yet, each after its own subsegments. -/
def introduceEach (out : Outgoing) : SegmentList → Except CodecError Outgoing
  | .nil => .ok out
  | .cons head tail =>
    if out.table.contains head.fingerprint then out.introduceEach tail
    else do
      let out ← out.introduce head
      let out ← out.emit false head
      out.introduceEach tail

end

/-- Announces one listed segment. A wrapper adds a level, so a known segment must stay below the
depth limit. -/
def announce (config : Config) (out : Outgoing) (s : Segment) : Except CodecError Outgoing :=
  if config.maxDepth < s.height then .error (.nestingTooDeep config.maxDepth)
  else match out.table.get? s.fingerprint with
    | some position =>
      if config.maxDepth ≤ s.height then .error (.nestingTooDeep config.maxDepth)
      else out.emitWrapper s position
    | none => do
      let out ← out.introduce s
      out.emit true s

def announceAll (config : Config) (out : Outgoing) : List Segment → Except CodecError Outgoing
  | [] => .ok out
  | s :: segments =>
    match out.announce config s with
    | .ok out => out.announceAll config segments
    | .error e => .error e

/-- A message to a receiver that holds the given cache, without records. -/
def start (cache : List Segment) : Except CodecError Outgoing := do
  let table ← IndexTable.ofCache cache
  .ok ⟨table, #[], #[]⟩

/-- The finished message. The header counts all positions in 16 bits, one less than the table
can hand out. -/
def finish (out : Outgoing) (source destination : IsdAsn) : Except CodecError EncodedMessage :=
  if out.table.next < 65536 then
    let header := Header.standard (UInt16.ofNat out.table.next) source destination
    .ok ⟨header.toBytes ++ out.records.toList.flatMap Record.toBytes, out.sent.toList⟩
  else .error (.indexOverflow out.table.next)

end Outgoing

/-- Announces `segments` to a receiver that holds `cache`. -/
def encode (config : Config) (cache segments : List Segment) (source destination : IsdAsn) :
    Except CodecError EncodedMessage := do
  let out ← Outgoing.start cache
  let out ← out.announceAll config segments
  out.finish source destination

end SegmentWire
