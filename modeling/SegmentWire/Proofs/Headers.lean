import Mathlib.Data.List.Basic
import Mathlib.Tactic.SplitIfs
import SegmentWire.BigEndian.Laws
import SegmentWire.Header
import SegmentWire.Sample

/-!
# Headers on the wire

A header that is written can be read again, whatever follows it. Only the declared
length may differ: it is never less than what was written. What can be read is
decided by two lengths, that of the bytes and the declared one. What was read is
written again as it was, but with zeros where a reader looks at nothing.
-/
namespace SegmentWire.Header

lemma writtenLength_le (h : Header) : h.writtenLength ≤ 255 := by
  have hlt := h.length.toNat_lt
  rw [writtenLength, fixedLength]
  omega

theorem parse_toBytes_append (h : Header) (rest : Bytes) :
    parse (h.toBytes ++ rest) = .ok { h with length := UInt8.ofNat h.writtenLength } := by
  have hmin : fixedLength ≤ h.writtenLength := Nat.le_max_right _ _
  have hbyte : (UInt8.ofNat h.writtenLength).toNat = h.writtenLength :=
    UInt8.toNat_ofNat_of_lt' (Nat.lt_of_le_of_lt h.writtenLength_le (by decide))
  have hsize : (h.toBytes ++ rest).length = h.writtenLength + rest.length := by
    rw [List.length_append, length_toBytes]
  have hlength : (h.toBytes ++ rest).getD 1 0 = UInt8.ofNat h.writtenLength := rfl
  have htotal : ((h.toBytes ++ rest).drop 2).take 2 = BigEndian.u16 h.total := by
    unfold toBytes
    simp [List.take_left']
  have hsource : ((h.toBytes ++ rest).drop 4).take 8 = BigEndian.u64 h.source.packed := by
    unfold toBytes
    simp [List.take_left']
  have hdestination : ((h.toBytes ++ rest).drop 12).take 8 =
      BigEndian.u64 h.destination.packed := by
    have hsplit : h.toBytes ++ rest = (0 :: UInt8.ofNat h.writtenLength ::
        (BigEndian.u16 h.total ++ BigEndian.u64 h.source.packed)) ++
        (BigEndian.u64 h.destination.packed ++
          (List.replicate (h.writtenLength - fixedLength) 0 ++ rest)) := by
      simp [toBytes]
    rw [hsplit, List.drop_left' (by simp), List.take_left' (by simp)]
  simp only [parse, hsize, hlength, hbyte, htotal, hsource, hdestination, BigEndian.toU16_u16,
    BigEndian.toU64_u64]
  rw [if_neg (by omega), if_neg (by omega), if_neg (by omega)]

/-- The header whose fields stand at the start of a byte string. -/
def ofBytes (bs : Bytes) : Header where
  length := bs.getD 1 0
  total := BigEndian.toU16 ((bs.drop 2).take 2)
  source := ⟨BigEndian.toU64 ((bs.drop 4).take 8)⟩
  destination := ⟨BigEndian.toU64 ((bs.drop 12).take 8)⟩

/-- A header can be read exactly if its fixed part and its declared length fit the bytes. -/
theorem parse_eq_ok_iff {bs : Bytes} {h : Header} :
    parse bs = .ok h ↔ (20 ≤ bs.length ∧ 20 ≤ (ofBytes bs).length.toNat ∧
      (ofBytes bs).length.toNat ≤ bs.length) ∧ h = ofBytes bs := by
  have hlength : (ofBytes bs).length = bs.getD 1 0 := rfl
  simp only [parse, fixedLength, ← hlength]
  split_ifs with hsize hsmall hlarge
  · rw [false_iff]
    omega
  · rw [false_iff]
    omega
  · rw [false_iff]
    omega
  · rw [and_iff_right (by omega), Except.ok.injEq, eq_comm]
    rfl

lemma total_ofBytes_toBytes_append (h : Header) (rest : Bytes) :
    (ofBytes (h.toBytes ++ rest)).total = h.total := by
  rw [← (parse_eq_ok_iff.mp (parse_toBytes_append h rest)).2]

lemma malformed_of_parse {bs : Bytes} {e : CodecError} (h : parse bs = .error e) :
    ∃ cause, e = .malformed cause := by
  simp only [parse] at h
  split_ifs at h
  · cases h
    exact ⟨_, rfl⟩
  · cases h
    exact ⟨_, rfl⟩
  · cases h
    exact ⟨_, rfl⟩

/-- The fields stand in the fixed part. -/
lemma ofBytes_append {start : Bytes} (h : 20 ≤ start.length) (rest : Bytes) :
    ofBytes (start ++ rest) = ofBytes start := by
  have hlength : (start ++ rest).getD 1 0 = start.getD 1 0 := by
    rw [List.getD_eq_getElem?_getD, List.getElem?_append_left (by omega),
      List.getD_eq_getElem?_getD]
  have hfield : ∀ i n, i + n ≤ 20 → ((start ++ rest).drop i).take n = (start.drop i).take n := by
    intro i n hfits
    rw [List.drop_append_of_le_length (by omega), List.take_append_of_le_length]
    rw [List.length_drop]
    omega
  simp only [ofBytes, hlength, hfield 2 2 (by omega), hfield 4 8 (by omega),
    hfield 12 8 (by omega)]

/-- A header that fits a start of the bytes is read from it, whatever follows. -/
lemma parse_append {start rest : Bytes} {h : Header} (hparse : parse (start ++ rest) = .ok h)
    (hlength : h.length.toNat ≤ start.length) (more : Bytes) :
    parse (start ++ more) = .ok h := by
  obtain ⟨⟨-, hge, -⟩, rfl⟩ := parse_eq_ok_iff.mp hparse
  have hstart : 20 ≤ start.length := by omega
  rw [ofBytes_append hstart] at hge hlength ⊢
  rw [parse_eq_ok_iff, ofBytes_append hstart, List.length_append]
  exact ⟨⟨by omega, hge, by omega⟩, rfl⟩

/-! ### Writing what was read -/

lemma fields_ofBytes {bs : Bytes} (h : 20 ≤ bs.length) :
    BigEndian.u16 (ofBytes bs).total ++ (BigEndian.u64 (ofBytes bs).source.packed ++
      BigEndian.u64 (ofBytes bs).destination.packed) = (bs.drop 2).take 18 := by
  have htotal : BigEndian.u16 (ofBytes bs).total = (bs.drop 2).take 2 :=
    BigEndian.u16_toU16 (by rw [List.length_take, List.length_drop]; omega)
  have hsource : BigEndian.u64 (ofBytes bs).source.packed = (bs.drop 4).take 8 :=
    BigEndian.u64_toU64 (by rw [List.length_take, List.length_drop]; omega)
  have hdestination : BigEndian.u64 (ofBytes bs).destination.packed = (bs.drop 12).take 8 :=
    BigEndian.u64_toU64 (by rw [List.length_take, List.length_drop]; omega)
  rw [htotal, hsource, hdestination, show 18 = 2 + (8 + 8) from rfl, List.take_add, List.take_add,
    List.drop_drop, List.drop_drop]

/-- A header is written as the bytes that it was read from, apart from the reserved byte and the
padding. -/
lemma toBytes_ofBytes {bs : Bytes} (hsize : 20 ≤ bs.length)
    (hlength : 20 ≤ (ofBytes bs).length.toNat) :
    (ofBytes bs).toBytes =
      0 :: (bs.drop 1).take 19 ++ List.replicate ((ofBytes bs).length.toNat - 20) 0 := by
  have hwritten : (ofBytes bs).writtenLength = (ofBytes bs).length.toNat :=
    Nat.max_eq_left hlength
  obtain ⟨reserved, length, rest, rfl⟩ : ∃ reserved length rest, bs = reserved :: length :: rest :=
    match bs, hsize with
    | reserved :: length :: rest, _ => ⟨reserved, length, rest, rfl⟩
  have hbyte : UInt8.ofNat (ofBytes (reserved :: length :: rest)).writtenLength = length := by
    rw [hwritten, UInt8.ofNat_toNat]
    rfl
  have hfields := fields_ofBytes hsize
  rw [toBytes, hbyte, hwritten, fixedLength, ← List.append_assoc (BigEndian.u64 _),
    ← List.append_assoc (BigEndian.u16 _), hfields]
  rfl

/-- The first bytes of a byte string, with zeros for the reserved byte and the padding. -/
def cleared (length : Nat) (bs : Bytes) : Bytes :=
  (bs.take length).mapIdx fun i b => if i = 0 ∨ fixedLength ≤ i then 0 else b

lemma cleared_eq {length : Nat} {bs : Bytes} (hlow : 20 ≤ length) (hhigh : length ≤ bs.length) :
    cleared length bs = 0 :: (bs.drop 1).take 19 ++ List.replicate (length - 20) 0 := by
  rw [cleared, List.mapIdx_eq_iff, fixedLength]
  intro i
  rw [List.getElem?_take]
  have hfixed : ((bs.drop 1).take 19).length = 19 := by
    rw [List.length_take, List.length_drop]
    omega
  cases i with
  | zero =>
    have hfirst : 0 < bs.length := by omega
    rw [if_pos (by omega), List.getElem?_eq_getElem hfirst]
    rfl
  | succ i =>
    rw [List.cons_append, List.getElem?_cons_succ, List.getElem?_append, hfixed]
    by_cases hfield : i < 19
    · rw [if_pos hfield, if_pos (by omega), List.getElem?_take, if_pos hfield, List.getElem?_drop,
        Nat.add_comm 1 i]
      have hkept : ¬ (i + 1 = 0 ∨ 20 ≤ i + 1) := by omega
      simp only [if_neg hkept, Option.map_id']
    · rw [if_neg hfield, List.getElem?_replicate]
      have hcleared : i + 1 = 0 ∨ 20 ≤ i + 1 := by omega
      by_cases hpadding : i + 1 < length
      · have hinside : i + 1 < bs.length := by omega
        rw [if_pos (by omega), if_pos hpadding, List.getElem?_eq_getElem hinside]
        exact congrArg some (if_pos hcleared).symm
      · rw [if_neg (by omega), if_neg hpadding]
        rfl

/-- A header is read back from what is written for it, whatever follows, with the length that was
written. Conversely, what is written for a header that was read are the bytes of its length, with
zeros for the reserved byte and the padding. Bytes without a header are too few for the fixed part,
or their declared length is below it or beyond their end. -/
theorem parse_toBytes_exact (h : Header) (rest bs : Bytes) :
    (parse (h.toBytes ++ rest) = .ok { h with length := max h.length 20 } ∧
      h.toBytes.length = (max h.length 20).toNat) ∧
    (∀ g, parse bs = .ok g → 20 ≤ g.length.toNat ∧ g.length.toNat ≤ bs.length ∧
      g.toBytes = cleared g.length.toNat bs) ∧
    ((∃ e, parse bs = .error e) ↔
      bs.length < 20 ∨ (bs.getD 1 0).toNat < 20 ∨ bs.length < (bs.getD 1 0).toNat) := by
  refine ⟨?_, fun g hparse => ?_, ?_⟩
  · have hlength : UInt8.ofNat h.writtenLength = max h.length 20 := by
      rw [← UInt8.toNat_inj, UInt8.toNat_max,
        UInt8.toNat_ofNat_of_lt' (Nat.lt_of_le_of_lt h.writtenLength_le (by decide))]
      rfl
    refine ⟨by rw [parse_toBytes_append, hlength], ?_⟩
    rw [length_toBytes, UInt8.toNat_max]
    rfl
  · obtain ⟨⟨hsize, hlow, hhigh⟩, rfl⟩ := parse_eq_ok_iff.mp hparse
    exact ⟨hlow, hhigh, (toBytes_ofBytes hsize hlow).trans (cleared_eq hlow hhigh).symm⟩
  · have hbyte : (ofBytes bs).length = bs.getD 1 0 := rfl
    rw [← hbyte]
    constructor
    · rintro ⟨e, herror⟩
      by_contra hfits
      have hok : parse bs = .ok (ofBytes bs) := parse_eq_ok_iff.mpr ⟨by omega, rfl⟩
      rw [herror] at hok
      cases hok
    · intro hunfit
      cases hparse : parse bs with
      | error e => exact ⟨e, rfl⟩
      | ok g =>
        have hfits := (parse_eq_ok_iff.mp hparse).1
        omega

/-- A header with padding, followed by records. The reserved byte and the padding are set. -/
theorem parse_toBytes_exact_untidy :
    let bs := Sample.untidyMessage
    let h : Header := ⟨22, 2, ⟨1⟩, ⟨2⟩⟩
    parse bs = .ok h ∧ h.length.toNat = 22 ∧ 22 ≤ bs.length ∧ h.toBytes = cleared 22 bs ∧
      cleared 22 bs ≠ bs.take 22 ∧ parse (h.toBytes ++ bs.drop 22) = .ok h := by
  intro bs h
  have hparse : parse bs = .ok h := by decide +kernel
  obtain ⟨⟨hagain, -⟩, hread, -⟩ := parse_toBytes_exact h (bs.drop 22) bs
  obtain ⟨-, hlength, hbytes⟩ := hread h hparse
  exact ⟨hparse, rfl, hlength, hbytes, by decide +kernel, hagain⟩

end SegmentWire.Header
