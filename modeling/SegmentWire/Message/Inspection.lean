import SegmentWire.Message.Decoding
import SegmentWire.Summary

/-!
# Inspecting messages

An inspection describes a message that decodes: its header and a summary of each
record. Which records are accepted is read from the bytes in a pass of its own,
which looks at nothing but the fixed part of each record.
-/
namespace SegmentWire

structure InspectedRecord where
  /-- The position is that in the common numbering of cache and records. -/
  summary : Summary
  accepted : Bool
  deriving DecidableEq

structure Inspection where
  /-- Bytes in the message. -/
  size : Nat
  header : Header
  /-- Segments in the cache. -/
  cached : Nat
  records : List InspectedRecord
  deriving DecidableEq

namespace Inspection

/-- The accepted flags of the first `count` records, from the first record on. The list is shorter
if the bytes end before. -/
def acceptedFlags : Nat → Bytes → List Bool
  | 0, _ => []
  | count + 1, flags :: length :: high :: low :: rest =>
    let flags := RecordFlags.ofByte flags
    let entries := length.toNat * flags.kind.entryLength
    let options := (BigEndian.toU16 [high, low]).toNat
    flags.accepted :: acceptedFlags count (rest.drop (entries + options))
  | _, _ => []

/-- Describes a message to a receiver that holds `cache`. -/
def ofMessage (bs : Bytes) (cache : List Segment) : Except CodecError Inspection := do
  let decoded ← decode {} bs cache
  let header ← Header.parse bs
  let summaries := Summary.ofList cache.length decoded.newSegments
  let flags := acceptedFlags decoded.newSegments.length (bs.drop header.length.toNat)
  .ok {
    size := bs.length
    header
    cached := cache.length
    records := summaries.zipWith InspectedRecord.mk flags }

end Inspection

namespace InspectedRecord

def toJson (record : InspectedRecord) : Json :=
  .object (record.summary.fields ++ [("accepted", .bool record.accepted)])

def line (record : InspectedRecord) : String :=
  record.summary.columns ++ " " ++ (if record.accepted then "accepted" else "        ") ++ " " ++
    record.summary.fingerprint.hex

end InspectedRecord

namespace Inspection

def toJson (inspection : Inspection) : Json := .object [
  ("size", .nat inspection.size),
  ("hdrlen", .nat inspection.header.length.toNat),
  ("numsegs", .nat inspection.header.total.toNat),
  ("src_ia", .unsigned inspection.header.source.packed),
  ("dst_ia", .unsigned inspection.header.destination.packed),
  ("cache_len", .nat inspection.cached),
  ("records", .array (inspection.records.map InspectedRecord.toJson))]

def lines (inspection : Inspection) : List String := [
  "Message",
  "=======",
  "Size:         " ++ Nat.repr inspection.size ++ " bytes",
  "Header len:   " ++ Nat.repr inspection.header.length.toNat,
  "numsegs:      " ++ Nat.repr inspection.header.total.toNat,
  "Source:       " ++ inspection.header.source.displayPacked,
  "Destination:  " ++ inspection.header.destination.displayPacked,
  "Cache:        " ++ Nat.repr inspection.cached ++ " segments",
  "",
  "Records (" ++ Nat.repr inspection.records.length ++ ")",
  "-------"] ++ inspection.records.map InspectedRecord.line

end Inspection

end SegmentWire
