/-!
# Configuration

The limits that sender and receiver apply to a message.
-/
namespace SegmentWire

structure Config where
  /-- The greatest height of a segment in a message. -/
  maxDepth : Nat := 64
  /-- Whether bytes may follow the last record. -/
  allowTrailing : Bool := true
  deriving DecidableEq, Repr

end SegmentWire
