/-!
# Big-endian words

A word of fixed width is written with its most significant byte first. Both
directions work on natural numbers, so that one pair of functions serves every
width.
-/
namespace SegmentWire

abbrev Bytes := List UInt8

namespace BigEndian

/-- The number whose base-256 digits are the given bytes. -/
def value (bs : Bytes) : Nat :=
  bs.foldl (fun n b => n * 256 + b.toNat) 0

/-- The last `width` base-256 digits of a number. -/
def bytes : Nat → Nat → Bytes
  | 0, _ => []
  | width + 1, n => bytes width (n / 256) ++ [UInt8.ofNat n]

@[simp] theorem length_bytes (width n : Nat) : (bytes width n).length = width := by
  induction width generalizing n with
  | zero => rfl
  | succ width ih => simp [bytes, ih]

@[simp] theorem value_nil : value [] = 0 := rfl

@[simp] theorem value_concat (bs : Bytes) (b : UInt8) :
    value (bs ++ [b]) = value bs * 256 + b.toNat := by
  simp [value]

def u16 (n : UInt16) : Bytes := bytes 2 n.toNat

def u64 (n : UInt64) : Bytes := bytes 8 n.toNat

def toU16 (bs : Bytes) : UInt16 := UInt16.ofNat (value bs)

def toU64 (bs : Bytes) : UInt64 := UInt64.ofNat (value bs)

@[simp] theorem length_u16 (n : UInt16) : (u16 n).length = 2 := length_bytes ..

@[simp] theorem length_u64 (n : UInt64) : (u64 n).length = 8 := length_bytes ..

end BigEndian

end SegmentWire
