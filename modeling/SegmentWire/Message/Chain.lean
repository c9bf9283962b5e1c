import SegmentWire.Header
import SegmentWire.Record

/-!
# Chain messages

The deepest message for its number of records: a literal and then compositions
that each refer to the record before them. Only the last record is accepted.
-/
namespace SegmentWire.Chain

/-- The record at position `k` of `total`. -/
def record (total k : Nat) : Record where
  accepted := k + 1 == total
  payload :=
    match k with
    | 0 => .interfaces [⟨1, ⟨1⟩⟩]
    | k + 1 => .references [UInt16.ofNat k]

def message (total : UInt16) : Bytes :=
  (Header.standard total ⟨1⟩ ⟨2⟩).toBytes ++
    (List.range total.toNat).flatMap fun k => (record total.toNat k).toBytes

end SegmentWire.Chain
