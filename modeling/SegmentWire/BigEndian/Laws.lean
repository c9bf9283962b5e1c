import Mathlib.Algebra.Order.Group.Nat
import SegmentWire.BigEndian

/-!
# Laws of big-endian words

Writing and reading are inverse to each other: `value_bytes` and `bytes_value` for
any width, and the same for the words of 16 and 64 bits.
-/
namespace SegmentWire.BigEndian

theorem value_bytes (width n : Nat) : value (bytes width n) = n % 256 ^ width := by
  induction width generalizing n with
  | zero => simp [bytes, Nat.mod_one]
  | succ width ih =>
    have byte : (UInt8.ofNat n).toNat = n % 256 := rfl
    rw [bytes, value_concat, ih, byte, Nat.pow_succ, Nat.mul_comm (256 ^ width) 256, Nat.mod_mul]
    omega

theorem value_lt (bs : Bytes) : value bs < 256 ^ bs.length := by
  obtain ⟨n, hn⟩ : ∃ n, bs.length = n := ⟨_, rfl⟩
  induction n generalizing bs with
  | zero => simp [List.length_eq_zero_iff.mp hn]
  | succ n ih =>
    obtain h | ⟨init, b, h⟩ := List.eq_nil_or_concat bs
    · simp [h] at hn
    · rw [List.concat_eq_append] at h
      subst h
      have hinit := ih init (by simpa using hn)
      have hb := b.toNat_lt
      simp only [value_concat, List.length_append, List.length_singleton, Nat.pow_succ] at *
      omega

theorem bytes_value (bs : Bytes) : bytes bs.length (value bs) = bs := by
  obtain ⟨n, hn⟩ : ∃ n, bs.length = n := ⟨_, rfl⟩
  induction n generalizing bs with
  | zero => simp [List.length_eq_zero_iff.mp hn, bytes]
  | succ n ih =>
    obtain h | ⟨init, b, h⟩ := List.eq_nil_or_concat bs
    · simp [h] at hn
    · rw [List.concat_eq_append] at h
      subst h
      have hinit := ih init (by simpa using hn)
      have hb := b.toNat_lt
      have hquot : (value init * 256 + b.toNat) / 256 = value init := by omega
      have hlast : UInt8.ofNat (value init * 256 + b.toNat) = b := by
        apply UInt8.toNat_inj.mp
        show (value init * 256 + b.toNat) % 256 = b.toNat
        omega
      rw [value_concat, List.length_append, List.length_singleton, bytes, hquot, hlast, hinit]

@[simp] theorem toU16_u16 (n : UInt16) : toU16 (u16 n) = n := by
  have h := n.toNat_lt
  rw [toU16, u16, value_bytes, Nat.mod_eq_of_lt (by omega), UInt16.ofNat_toNat]

@[simp] theorem toU64_u64 (n : UInt64) : toU64 (u64 n) = n := by
  have h := n.toNat_lt
  rw [toU64, u64, value_bytes, Nat.mod_eq_of_lt (by omega), UInt64.ofNat_toNat]

theorem u16_toU16 {bs : Bytes} (h : bs.length = 2) : u16 (toU16 bs) = bs := by
  have hlt := value_lt bs
  rw [h] at hlt
  rw [u16, toU16, UInt16.toNat_ofNat_of_lt' (by omega), ← h, bytes_value]

theorem u64_toU64 {bs : Bytes} (h : bs.length = 8) : u64 (toU64 bs) = bs := by
  have hlt := value_lt bs
  rw [h] at hlt
  rw [u64, toU64, UInt64.toNat_ofNat_of_lt' (by omega), ← h, bytes_value]

end SegmentWire.BigEndian
