import SegmentWire.BigEndian
import SegmentWire.Text.Blank
import SegmentWire.Text.Unsigned

/-!
# Bytes as hexadecimal text

Bytes are written as two lower-case digits each. Reading takes two characters to
a byte and reads each pair as an unsigned number, so a pair may also be a plus
sign and one digit.
-/
namespace SegmentWire.Hex

def byteDigits (b : UInt8) : List Char :=
  [Nat.digitChar (b.toNat / 16), Nat.digitChar (b.toNat % 16)]

def digits (bs : Bytes) : List Char :=
  bs.flatMap byteDigits

def encode (bs : Bytes) : String :=
  String.ofList (digits bs)

def byte? (high low : Char) : Option UInt8 :=
  (Unsigned.read 16 256 [high, low]).toOption.map UInt8.ofNat

/-- Reads pairs of characters until the text ends. -/
def decode? : List Char → Option Bytes
  | [] => some []
  | [_] => none
  | high :: low :: rest => do
    let b ← byte? high low
    let bs ← decode? rest
    some (b :: bs)

/-- Reads a text in which white space separates bytes anywhere. -/
def decodeSpaced? (text : String) : Option Bytes :=
  decode? (text.toList.filter fun c => !Text.isBlank c)

theorem byte?_byteDigits (b : UInt8) :
    byte? (Nat.digitChar (b.toNat / 16)) (Nat.digitChar (b.toNat % 16)) = some b := by
  have all : ∀ n < 256,
      byte? (Nat.digitChar (n / 16)) (Nat.digitChar (n % 16)) = some (UInt8.ofNat n) := by
    decide +kernel
  rw [all b.toNat b.toNat_lt, UInt8.ofNat_toNat]

theorem decode?_digits (bs : Bytes) : decode? (digits bs) = some bs := by
  induction bs with
  | nil => rfl
  | cons b bs ih =>
    have step : digits (b :: bs) = Nat.digitChar (b.toNat / 16) ::
        Nat.digitChar (b.toNat % 16) :: digits bs := rfl
    rw [step, decode?, byte?_byteDigits, ih]
    rfl

@[simp] theorem length_digits (bs : Bytes) : (digits bs).length = 2 * bs.length := by
  induction bs with
  | nil => rfl
  | cons b bs ih =>
    have step : digits (b :: bs) = byteDigits b ++ digits bs := rfl
    rw [step, List.length_append, ih, List.length_cons]
    simp only [byteDigits, List.length_cons, List.length_nil]
    omega

end SegmentWire.Hex
