import SegmentWire.Hex

/-!
# ISD-AS numbers

An ISD-AS number names an autonomous system within an isolation domain. It is
packed into 64 bits: the isolation domain in the upper 16, the AS in the lower 48.
-/
namespace SegmentWire

structure IsdAsn where
  packed : UInt64
  deriving DecidableEq, Repr

namespace IsdAsn

def isd (ia : IsdAsn) : Nat :=
  ia.packed.toNat / 0x1000000000000

def asn (ia : IsdAsn) : Nat :=
  ia.packed.toNat % 0x1000000000000

/-- Both parts in decimal, joined by a hyphen. -/
def display (ia : IsdAsn) : String :=
  Nat.repr ia.isd ++ "-" ++ Nat.repr ia.asn

/-- The parts, followed by the packed value as sixteen hexadecimal digits. -/
def displayPacked (ia : IsdAsn) : String :=
  ia.display ++ " (0x" ++ Hex.encode (BigEndian.u64 ia.packed) ++ ")"

theorem isd_lt (ia : IsdAsn) : ia.isd < 0x10000 := by
  have h := ia.packed.toNat_lt
  simp only [isd]
  omega

theorem asn_lt (ia : IsdAsn) : ia.asn < 0x1000000000000 := by
  simp only [asn]
  omega

theorem isd_asn_packed (ia : IsdAsn) : ia.isd * 0x1000000000000 + ia.asn = ia.packed.toNat := by
  simp only [isd, asn]
  omega

end IsdAsn

end SegmentWire
