import SegmentWire.Message.Encoding
import SegmentWire.Proofs.Decoding

/-!
# How a message is put together

Every record takes one position after those of the cache, and the header counts all
positions. This holds for every message that is encoded, even when fingerprints
collide and references name segments that were not meant: what the records stand
for may go wrong then, but not how the message is laid out.
-/
namespace SegmentWire

namespace IndexTable

variable {table next : IndexTable} {p : UInt16}

lemma next_of_reserve (h : table.reserve = .ok (p, next)) : next.next = table.next + 1 := by
  rw [reserve_eq] at h
  split at h
  · cases h
    rfl
  · cases h

lemma next_of_assign {f : Fingerprint} (h : table.assign f = .ok (p, next)) :
    next.next = table.next + 1 := by
  rw [assign_eq] at h
  obtain ⟨⟨q, reserved⟩, hreserve, h⟩ := bind_eq_ok.mp h
  cases h
  have hnext : reserved.next = table.next + 1 := next_of_reserve hreserve
  exact hnext

lemma next_of_assignAll {segments : List Segment} (h : table.assignAll segments = .ok next) :
    next.next = table.next + segments.length := by
  induction segments generalizing table with
  | nil =>
    cases h
    rfl
  | cons s segments ih =>
    rw [assignAll] at h
    split at h
    · rename_i assigned hassign
      have hfirst := next_of_assign hassign
      have hrest := ih h
      rw [List.length_cons]
      omega
    · cases h

/-- A record is only written if it can count its entries. -/
lemma count_of_record {accepted : Bool} {s : Segment} {r : Record}
    (h : table.record accepted s = .ok r) : r.payload.count ≤ 255 := by
  unfold record at h
  by_cases hlong : 255 < s.length
  · rw [if_pos hlong] at h
    cases h
  · rw [if_neg hlong] at h
    cases s with
    | literal interfaces =>
      cases h
      exact Nat.le_of_not_lt hlong
    | composition segments =>
      obtain ⟨positions, hpositions, h⟩ := bind_eq_ok.mp h
      cases h
      have hlength := (mapM_eq_ok_iff.mp hpositions).length_eq
      rw [SegmentList.fingerprints_eq_map, List.length_map] at hlength
      rw [Segment.length_composition] at hlong
      show positions.length ≤ 255
      omega

end IndexTable

namespace Outgoing

/-- Each record has its own position after those of the cache and can be written. -/
structure Numbered (cache : List Segment) (out : Outgoing) : Prop where
  next_eq : out.table.next = cache.length + out.records.size
  count_le : ∀ r ∈ out.records.toList, r.payload.count ≤ 255

variable {config : Config} {cache : List Segment} {out done : Outgoing}

namespace Numbered

lemma push (h : out.Numbered cache) {table : IndexTable} {r : Record}
    (hnext : table.next = out.table.next + 1) (hcount : r.payload.count ≤ 255) (s : Segment) :
    Numbered cache ⟨table, out.records.push r, out.sent.push s⟩ where
  next_eq := by
    rw [hnext, h.next_eq, Array.size_push]
    rfl
  count_le := by
    rw [Array.toList_push]
    exact List.forall_mem_append.mpr ⟨h.count_le, by simpa using hcount⟩

lemma emit (h : out.Numbered cache) {accepted : Bool} {s : Segment}
    (hemit : out.emit accepted s = .ok done) : done.Numbered cache := by
  obtain ⟨⟨p, table⟩, hassign, hemit⟩ := bind_eq_ok.mp hemit
  obtain ⟨r, hrecord, hemit⟩ := bind_eq_ok.mp hemit
  cases hemit
  exact h.push (IndexTable.next_of_assign hassign) (IndexTable.count_of_record hrecord) s

lemma emitWrapper (h : out.Numbered cache) {s : Segment} {position : UInt16}
    (hemit : out.emitWrapper s position = .ok done) : done.Numbered cache := by
  obtain ⟨⟨p, table⟩, hreserve, hemit⟩ := bind_eq_ok.mp hemit
  cases hemit
  have hcount : (Record.wrapper position).payload.count ≤ 255 := by
    show 1 ≤ 255
    omega
  exact h.push (IndexTable.next_of_reserve hreserve) hcount s.wrapper

mutual

theorem introduce (s : Segment) {out done : Outgoing} (h : out.Numbered cache)
    (hintroduce : out.introduce s = .ok done) : done.Numbered cache := by
  match s with
  | .literal interfaces =>
    cases hintroduce
    exact h
  | .composition segments => exact introduceEach segments h hintroduce

theorem introduceEach (segments : SegmentList) {out done : Outgoing} (h : out.Numbered cache)
    (hintroduce : out.introduceEach segments = .ok done) : done.Numbered cache := by
  match segments with
  | .nil =>
    cases hintroduce
    exact h
  | .cons head tail =>
    rw [Outgoing.introduceEach] at hintroduce
    split at hintroduce
    · exact introduceEach tail h hintroduce
    · obtain ⟨below, hbelow, hintroduce⟩ := bind_eq_ok.mp hintroduce
      obtain ⟨emitted, hemit, hintroduce⟩ := bind_eq_ok.mp hintroduce
      exact introduceEach tail ((introduce head h hbelow).emit hemit) hintroduce

end

lemma announce (h : out.Numbered cache) {s : Segment}
    (hannounce : out.announce config s = .ok done) : done.Numbered cache := by
  unfold Outgoing.announce at hannounce
  split at hannounce
  · cases hannounce
  · split at hannounce
    · split at hannounce
      · cases hannounce
      · exact h.emitWrapper hannounce
    · obtain ⟨below, hbelow, hemit⟩ := bind_eq_ok.mp hannounce
      exact (introduce s h hbelow).emit hemit

lemma announceAll {segments : List Segment} (h : out.Numbered cache)
    (hannounce : out.announceAll config segments = .ok done) : done.Numbered cache := by
  induction segments generalizing out with
  | nil =>
    cases hannounce
    exact h
  | cons s segments ih =>
    rw [Outgoing.announceAll] at hannounce
    split at hannounce
    · rename_i first hfirst
      exact ih (h.announce hfirst) hannounce
    · cases hannounce

lemma start (h : start cache = .ok out) : out.Numbered cache := by
  obtain ⟨table, htable, h⟩ := bind_eq_ok.mp h
  cases h
  have hnext : table.next = IndexTable.empty.next + cache.length :=
    IndexTable.next_of_assignAll htable
  exact ⟨hnext.trans (Nat.zero_add _), by simp⟩

end Numbered

end Outgoing

lemma WireRecord.flatMap_toBytes_pmap {rs : List Record} (h : ∀ r ∈ rs, r.payload.count ≤ 255) :
    (rs.pmap ofRecord h).flatMap toBytes = rs.flatMap Record.toBytes := by
  rw [List.flatMap_def, List.map_pmap]
  simp only [toBytes_ofRecord, List.pmap_eq_map, List.flatMap_def]

/-- An encoded message is a header that counts the cache and the records, and then the records. -/
theorem encode_eq_records {config : Config} {cache segments : List Segment}
    {source destination : IsdAsn} {message : EncodedMessage}
    (h : encode config cache segments source destination = .ok message) :
    ∃ (rs : List Record) (hcount : ∀ r ∈ rs, r.payload.count ≤ 255),
      cache.length + rs.length < 65536 ∧
      message.bytes =
        (Header.standard (UInt16.ofNat (cache.length + rs.length)) source destination).toBytes ++
          (rs.pmap .ofRecord hcount).flatMap WireRecord.toBytes := by
  obtain ⟨empty, hempty, h⟩ := bind_eq_ok.mp h
  obtain ⟨out, hout, h⟩ := bind_eq_ok.mp h
  have hnumbered := (Outgoing.Numbered.start hempty).announceAll hout
  unfold Outgoing.finish at h
  split at h
  · rename_i hlt
    cases h
    rw [hnumbered.next_eq] at hlt ⊢
    refine ⟨out.records.toList, hnumbered.count_le, hlt, ?_⟩
    rw [WireRecord.flatMap_toBytes_pmap]
    rfl
  · cases h

/-- An encoded message is laid out for the cache it was encoded for, and nothing trails it. -/
theorem encode_layout {config : Config} {cache segments : List Segment}
    {source destination : IsdAsn} {message : EncodedMessage}
    (h : encode config cache segments source destination = .ok message) (reader : Config) :
    ∃ layout : Layout reader cache message.bytes, layout.trailing = [] := by
  obtain ⟨rs, hcount, hlt, hbytes⟩ := encode_eq_records h
  rw [hbytes]
  exact ⟨.standard (rs.pmap .ofRecord hcount) (by rw [List.length_pmap]) hlt _ _, rfl⟩

end SegmentWire
