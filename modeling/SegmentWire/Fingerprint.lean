import SegmentWire.Hex
import SegmentWire.PathInterface
import SegmentWire.Sha256

/-!
# Fingerprints

A fingerprint is the SHA-256 digest of a segment's content. The digest covers a
tag for the kind of segment, the number of entries modulo 2^32 and the entries:
the wire form of each interface of a literal, the fingerprint of each child of a
composition.
-/
namespace SegmentWire

structure Fingerprint where
  bytes : Bytes
  length_bytes : bytes.length = 32
  deriving DecidableEq

namespace Fingerprint

@[ext] theorem ext {f g : Fingerprint} (h : f.bytes = g.bytes) : f = g := by
  cases f; cases g; cases h; rfl

/-- Fingerprints are ordered as byte strings. -/
instance : Ord Fingerprint where
  compare f g := compare f.bytes g.bytes

theorem compare_def (f g : Fingerprint) : compare f g = compare f.bytes g.bytes := rfl

instance : Std.OrientedOrd Fingerprint where
  eq_swap {f g} := by
    simp only [compare_def]
    exact Std.OrientedCmp.eq_swap

instance : Std.TransOrd Fingerprint where
  isLE_trans {f g h} := by
    simp only [compare_def]
    exact Std.TransCmp.isLE_trans

instance : Std.LawfulEqOrd Fingerprint where
  eq_of_compare {f g} h := ext (by
    simp only [compare_def] at h
    exact Std.LawfulEqCmp.eq_of_compare h)

/-- The digest of the given bytes. -/
def ofPreimage (preimage : Bytes) : Fingerprint :=
  ⟨Sha256.digest preimage, Sha256.length_digest preimage⟩

/-- What the fingerprint of a literal covers: an `L`, the count, the wire form. -/
def literalPreimage (interfaces : List PathInterface) : Bytes :=
  0x4c :: BigEndian.bytes 4 interfaces.length ++ interfaces.flatMap PathInterface.toBytes

/-- What the fingerprint of a composition covers: a `C`, the count, the fingerprints. -/
def compositionPreimage (children : List Fingerprint) : Bytes :=
  0x43 :: BigEndian.bytes 4 children.length ++ children.flatMap Fingerprint.bytes

def hex (f : Fingerprint) : String :=
  Hex.encode f.bytes

/-- A short form for diagnostics: the first eight bytes. -/
def abbreviation (f : Fingerprint) : String :=
  "Fingerprint(" ++ Hex.encode (f.bytes.take 8) ++ ")"

/-- Reads 32 pairs of hexadecimal text. -/
def ofHex? (text : String) : Option Fingerprint := do
  let bs ← Hex.decode? text.toList
  if h : bs.length = 32 then some ⟨bs, h⟩ else none

/-- What is reported for a text that is no fingerprint. -/
def invalidHexMessage (text : String) : String :=
  "invalid fingerprint hex: " ++ text

theorem ofHex?_hex (f : Fingerprint) : ofHex? f.hex = some f := by
  simp [ofHex?, hex, Hex.encode, Hex.decode?_digits, f.length_bytes]

end Fingerprint

end SegmentWire
