import SegmentWire.Error
import SegmentWire.IsdAsn

/-!
# Message headers

```text
0       reserved
1       header length, padding included
2..4    segments covered by the message
4..12   source ISD-AS
12..20  destination ISD-AS
20..    padding up to the header length
```
-/
namespace SegmentWire

structure Header where
  /-- Declared length in bytes, padding included. -/
  length : UInt8
  /-- Segments covered by the message: the receiver's cache and the records. -/
  total : UInt16
  source : IsdAsn
  destination : IsdAsn
  deriving DecidableEq, Repr

namespace Header

/-- Bytes in a header without padding. -/
def fixedLength : Nat := 20

/-- A header without padding. -/
def standard (total : UInt16) (source destination : IsdAsn) : Header :=
  ⟨20, total, source, destination⟩

/-- Reads the header at the start of a message. -/
def parse (bs : Bytes) : Except CodecError Header :=
  let size := bs.length
  let length := bs.getD 1 0
  if size < fixedLength then .error (.malformed (.headerTruncated size))
  else if length.toNat < fixedLength then
    .error (.malformed (.headerLengthTooSmall length.toNat))
  else if size < length.toNat then
    .error (.malformed (.headerLengthTooLarge length.toNat size))
  else .ok {
    length
    total := BigEndian.toU16 ((bs.drop 2).take 2)
    source := ⟨BigEndian.toU64 ((bs.drop 4).take 8)⟩
    destination := ⟨BigEndian.toU64 ((bs.drop 12).take 8)⟩ }

/-- The length that is written: never less than the fixed part. -/
def writtenLength (h : Header) : Nat :=
  max h.length.toNat fixedLength

/-- The wire form, with zeros for the reserved bytes and the padding. -/
def toBytes (h : Header) : Bytes :=
  0 :: UInt8.ofNat h.writtenLength :: (BigEndian.u16 h.total ++
    (BigEndian.u64 h.source.packed ++ (BigEndian.u64 h.destination.packed ++
      List.replicate (h.writtenLength - fixedLength) 0)))

theorem length_toBytes (h : Header) : h.toBytes.length = h.writtenLength := by
  have hle : fixedLength ≤ h.writtenLength := Nat.le_max_right ..
  simp only [toBytes, List.length_cons, List.length_append, BigEndian.length_u16,
    BigEndian.length_u64, List.length_replicate]
  simp only [fixedLength] at *
  omega

end Header

end SegmentWire
