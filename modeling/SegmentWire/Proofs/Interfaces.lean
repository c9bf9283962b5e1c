import Mathlib.Data.List.Basic
import SegmentWire.BigEndian.Laws
import SegmentWire.Fingerprint

/-!
# Lists of interfaces on the wire

The list writer concatenates what is written for each interface, and the reader
takes it apart again. Every byte string that is long enough is the wire form of
the interfaces read from it. How many bytes are enough is computed in a word, so
counts from 2^60 on are taken for smaller ones.
-/
namespace SegmentWire.PathInterface

lemma ofBytes_toBytes (hop : PathInterface) : ofBytes hop.toBytes = hop := by
  have hlength : (BigEndian.u64 hop.id).length = 8 := BigEndian.length_u64 _
  rw [ofBytes, toBytes, List.take_left' hlength, List.drop_left' hlength, BigEndian.toU64_u64,
    BigEndian.toU64_u64]

lemma toBytes_ofBytes {bs : Bytes} (h : bs.length = wireLength) : (ofBytes bs).toBytes = bs := by
  have htake : (bs.take 8).length = 8 := by
    rw [List.length_take, h]
    rfl
  have hdrop : (bs.drop 8).length = 8 := by
    rw [List.length_drop, h]
    rfl
  rw [ofBytes, toBytes, BigEndian.u64_toU64 htake, BigEndian.u64_toU64 hdrop, List.take_append_drop]

lemma encodeList_eq_flatMap (hops : List PathInterface) :
    encodeList hops = hops.flatMap toBytes := by
  induction hops with
  | nil => rfl
  | cons hop hops ih => rw [encodeList, ih, List.flatMap_cons, toBytes, List.append_assoc]

@[simp] lemma length_encodeList (hops : List PathInterface) :
    (encodeList hops).length = hops.length * wireLength := by
  induction hops with
  | nil => simp [encodeList]
  | cons hop hops ih =>
    simp only [encodeList, List.length_append, BigEndian.length_u64, ih, List.length_cons,
      wireLength]
    omega

lemma ofChunks_encodeList (hops : List PathInterface) (rest : Bytes) :
    ofChunks hops.length (encodeList hops ++ rest) = hops := by
  induction hops with
  | nil => rfl
  | cons hop hops ih =>
    have hhead : encodeList (hop :: hops) ++ rest = hop.toBytes ++ (encodeList hops ++ rest) := by
      simp [encodeList, toBytes]
    rw [List.length_cons, ofChunks, hhead, List.take_left' hop.length_toBytes,
      List.drop_left' hop.length_toBytes, ofBytes_toBytes, ih]

lemma length_ofChunks (count : Nat) (bs : Bytes) : (ofChunks count bs).length = count := by
  induction count generalizing bs with
  | zero => rfl
  | succ count ih => rw [ofChunks, List.length_cons, ih]

lemma encodeList_ofChunks {count : Nat} {bs : Bytes} (h : count * wireLength ≤ bs.length) :
    encodeList (ofChunks count bs) = bs.take (count * wireLength) := by
  induction count generalizing bs with
  | zero => simp [ofChunks, encodeList]
  | succ count ih =>
    have hlength : (bs.take wireLength).length = wireLength := by
      rw [List.length_take]
      simp only [wireLength] at *
      omega
    have hrest : count * wireLength ≤ (bs.drop wireLength).length := by
      rw [List.length_drop]
      simp only [wireLength] at *
      omega
    have hsplit : (count + 1) * wireLength = wireLength + count * wireLength := by
      rw [Nat.add_mul, Nat.one_mul, Nat.add_comm]
    rw [ofChunks, encodeList_eq_flatMap, List.flatMap_cons, ← encodeList_eq_flatMap, ih hrest,
      toBytes_ofBytes hlength, hsplit, List.take_add]

/-- A length is taken for what it is only if it fits a word. -/
lemma listLength_eq_iff {count : Nat} :
    listLength count = count * wireLength ↔ count < 0x1000000000000000 := by
  simp only [listLength, wireLength]
  omega

lemma listLength_div_mul (count : Nat) :
    listLength count / wireLength * wireLength = listLength count := by
  simp only [listLength, wireLength]
  omega

lemma listLength_div_eq_iff {count : Nat} :
    listLength count / wireLength = count ↔ count < 0x1000000000000000 := by
  simp only [listLength, wireLength]
  omega

/-- Reading is possible exactly if enough bytes are there. -/
lemma decodeList_eq_ok_iff {bs : Bytes} {count : Nat} {hops : List PathInterface} :
    decodeList bs count = .ok hops ↔
      listLength count ≤ bs.length ∧ ofChunks (listLength count / wireLength) bs = hops := by
  unfold decodeList
  by_cases h : bs.length < listLength count
  · simp [h]
  · simp [h, Nat.le_of_not_lt h]

lemma exists_decodeList_iff {bs : Bytes} {count : Nat} :
    (∃ hops, decodeList bs count = .ok hops) ↔ listLength count ≤ bs.length := by
  simp only [decodeList_eq_ok_iff, exists_and_left, exists_eq', and_true]

/-- A list that is too long would be cut short. -/
lemma decodeList_encodeList_iff {hops : List PathInterface} {rest : Bytes} :
    decodeList (encodeList hops ++ rest) hops.length = .ok hops ↔
      hops.length < 0x1000000000000000 := by
  rw [decodeList_eq_ok_iff]
  constructor
  · rintro ⟨-, hread⟩
    have hlength := congrArg List.length hread
    rw [length_ofChunks] at hlength
    exact listLength_div_eq_iff.mp hlength
  · intro h
    rw [listLength_div_eq_iff.mpr h, ofChunks_encodeList, listLength_eq_iff.mpr h,
      List.length_append, length_encodeList]
    exact ⟨Nat.le_add_right _ _, rfl⟩

/-- The list writer writes what is hashed for each interface, one after the other. A list is read
back from it, whatever follows, if it has less than 2^60 interfaces. Reading succeeds exactly if
the bytes of the length are there, and these are the wire form of what is read. They are 16 for
each interface if the count is below 2^60. From there on reading succeeds with fewer bytes than
that, unless even those of the length are missing. -/
theorem decodeList_exact (hops : List PathInterface) (bs : Bytes) (count : Nat) :
    (encodeList hops = hops.flatMap toBytes ∧
      Fingerprint.literalPreimage hops = 0x4c :: BigEndian.bytes 4 hops.length ++ encodeList hops ∧
      ∀ rest, decodeList (encodeList hops ++ rest) hops.length = .ok hops ↔
        hops.length < 0x1000000000000000) ∧
    ((∃ read, decodeList bs count = .ok read) ↔ listLength count ≤ bs.length) ∧
    (∀ read, decodeList bs count = .ok read → encodeList read = bs.take (listLength count)) ∧
    (listLength count = 16 * count ↔ count < 0x1000000000000000) ∧
    (((∃ read, decodeList bs count = .ok read) ↔ 16 * count ≤ bs.length) ↔
      count < 0x1000000000000000 ∨ bs.length < listLength count ∨ 16 * count ≤ bs.length) := by
  have hlength : listLength count = 16 * count ↔ count < 0x1000000000000000 := by
    rw [← listLength_eq_iff, wireLength, Nat.mul_comm]
  refine ⟨⟨encodeList_eq_flatMap hops, ?_, fun rest => decodeList_encodeList_iff⟩,
    exists_decodeList_iff, fun read h => ?_, hlength, ?_⟩
  · rw [Fingerprint.literalPreimage, encodeList_eq_flatMap]
  · obtain ⟨hsize, rfl⟩ := decodeList_eq_ok_iff.mp h
    rw [encodeList_ofChunks (by rwa [listLength_div_mul]), listLength_div_mul]
  · have hle : listLength count ≤ 16 * count := by
      simp only [listLength, wireLength]
      omega
    rw [exists_decodeList_iff, ← hlength]
    omega

/-- With a count of 2^60, no bytes are enough. -/
theorem decodeList_overflow :
    decodeList [] 0x1000000000000000 = .ok [] ∧
    ¬ ∀ (bs : Bytes) (count : Nat),
      (∃ hops, decodeList bs count = .ok hops) ↔ 16 * count ≤ bs.length := by
  have hread : decodeList [] 0x1000000000000000 = .ok [] := rfl
  exact ⟨hread, fun h => absurd ((h _ _).mp ⟨[], hread⟩) (by decide)⟩

end SegmentWire.PathInterface
