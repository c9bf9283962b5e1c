import SegmentWire.Error
import SegmentWire.IsdAsn

/-!
# Path interfaces

A hop of a path: an interface number and the AS that the interface belongs to.
Its wire form is the two words, big-endian, one after the other.
-/
namespace SegmentWire

structure PathInterface where
  id : UInt64
  ia : IsdAsn
  deriving DecidableEq, Repr

namespace PathInterface

/-- Bytes in the wire form of one interface. -/
def wireLength : Nat := 16

def toBytes (hop : PathInterface) : Bytes :=
  BigEndian.u64 hop.id ++ BigEndian.u64 hop.ia.packed

def ofBytes (bs : Bytes) : PathInterface :=
  ⟨BigEndian.toU64 (bs.take 8), ⟨BigEndian.toU64 (bs.drop 8)⟩⟩

/-- The wire form of a list of interfaces, word by word. -/
def encodeList : List PathInterface → Bytes
  | [] => []
  | hop :: hops => BigEndian.u64 hop.id ++ (BigEndian.u64 hop.ia.packed ++ encodeList hops)

/-- The interfaces in the first `count` chunks of 16 bytes. -/
def ofChunks : Nat → Bytes → List PathInterface
  | 0, _ => []
  | count + 1, bs => ofBytes (bs.take wireLength) :: ofChunks count (bs.drop wireLength)

/-- Bytes in the wire form of `count` interfaces, as a word of 64 bits: a product that is too large
for it wraps around. -/
def listLength (count : Nat) : Nat :=
  count * wireLength % 0x10000000000000000

/-- Reads `count` interfaces from the start of `bs`, which may be longer. -/
def decodeList (bs : Bytes) (count : Nat) : Except CodecError (List PathInterface) :=
  let needed := listLength count
  if bs.length < needed then
    .error (.malformed (.interfacesTruncated count needed bs.length))
  else .ok (ofChunks (needed / wireLength) bs)

@[simp] theorem length_toBytes (hop : PathInterface) : hop.toBytes.length = wireLength := by
  simp [toBytes, wireLength]

end PathInterface

end SegmentWire
