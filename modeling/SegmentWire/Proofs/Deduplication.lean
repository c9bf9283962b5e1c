import SegmentWire.Proofs.Numbering
import SegmentWire.Proofs.Sessions

/-!
# Nothing is transmitted twice

A record of its own goes out only for a segment that the receiver does not know,
and only if a listed segment needs it. A subsegment is introduced as a child of a
segment whose record comes later and refers back to it. Since the caches of a
session hold everything transmitted so far, no later round transmits it again.
-/
namespace SegmentWire

/-! ### Introductions are needed -/

/-- Each notice that is not accepted is for a child of a later one, or is needed in the end. -/
def EachNeeded (needed : List Segment) : List Notice → Prop
  | [] => True
  | n :: later =>
    (n.accepted = false → n.segment ∈ needed ∨ ∃ m ∈ later, n.segment ∈ m.segment.children) ∧
      EachNeeded needed later

namespace EachNeeded

variable {needed others : List Segment} {sent later : List Notice}

/-- What the first notices need in the end may be children of what follows. -/
lemma append (h : EachNeeded needed sent)
    (hneeded : ∀ s ∈ needed, s ∈ others ∨ ∃ m ∈ later, s ∈ m.segment.children)
    (hlater : EachNeeded others later) : EachNeeded others (sent ++ later) := by
  induction sent with
  | nil => exact hlater
  | cons n sent ih =>
    refine ⟨fun hn => ?_, ih h.2⟩
    obtain hfinal | ⟨m, hm, hchild⟩ := h.1 hn
    · refine (hneeded _ hfinal).imp_right ?_
      rintro ⟨m, hm, hchild⟩
      exact ⟨m, List.mem_append_right _ hm, hchild⟩
    · exact .inr ⟨m, List.mem_append_left _ hm, hchild⟩

lemma mono (h : EachNeeded needed sent) (hsub : needed ⊆ others) : EachNeeded others sent := by
  rw [← List.append_nil sent]
  exact h.append (fun s hs => .inl (hsub hs)) trivial

/-- When nothing is needed in the end, each introduced segment is a child of a later one. -/
lemma exists_later (h : EachNeeded [] sent) {i : Nat} {n : Notice} (hn : sent[i]? = some n)
    (hintroduced : n.accepted = false) :
    ∃ j m, i < j ∧ sent[j]? = some m ∧ n.segment ∈ m.segment.children := by
  induction sent generalizing i with
  | nil => simp at hn
  | cons m sent ih =>
    cases i with
    | zero =>
      obtain rfl : m = n := by simpa using hn
      obtain hnone | ⟨p, hp, hchild⟩ := h.1 hintroduced
      · simp at hnone
      · obtain ⟨j, hj⟩ := List.mem_iff_getElem?.mp hp
        exact ⟨j + 1, p, Nat.succ_pos j, by simpa using hj, hchild⟩
    | succ i =>
      obtain ⟨j, p, hlt, hp, hchild⟩ := ih h.2 (by simpa using hn)
      exact ⟨j + 1, p, Nat.succ_lt_succ hlt, by simpa using hp, hchild⟩

end EachNeeded

mutual

lemma Segment.unknown_needed (known : List Segment) (s : Segment) :
    EachNeeded s.children ((s.unknown known).map .introduction) := by
  match s with
  | .literal interfaces => exact trivial
  | .composition segments => exact segments.unknown_needed known

lemma SegmentList.unknown_needed (known : List Segment) (segments : SegmentList) :
    EachNeeded segments.toList ((segments.unknown known).map .introduction) := by
  match segments with
  | .nil => exact trivial
  | .cons head tail =>
    have hsub : tail.toList ⊆ (SegmentList.cons head tail).toList := List.subset_cons_self _ _
    by_cases hmem : head ∈ known
    · rw [tail.unknown_cons_of_mem hmem]
      exact (tail.unknown_needed known).mono hsub
    · rw [tail.unknown_cons_of_notMem hmem, List.append_assoc, List.map_append]
      -- The segments below the head are needed for its record, which comes right after them.
      refine (head.unknown_needed known).append (fun c hc => .inr ⟨.introduction head, ?_, hc⟩) ?_
      · simp
      · refine ⟨fun _ => .inl List.mem_cons_self, ?_⟩
        exact (tail.unknown_needed _).mono hsub

end

lemma Segment.notices_needed (known : List Segment) (s : Segment) :
    EachNeeded [] (s.notices known) := by
  by_cases h : s ∈ known
  · rw [notices_of_mem h]
    exact ⟨by simp [Notice.accepted], trivial⟩
  · rw [notices_of_notMem h]
    refine (s.unknown_needed known).append (fun c hc => .inr ⟨.announcement s, ?_, hc⟩) ?_
    · simp
    · exact ⟨by simp [Notice.accepted], trivial⟩

lemma notices_needed (known segments : List Segment) : EachNeeded [] (notices known segments) := by
  induction segments generalizing known with
  | nil => exact trivial
  | cons s segments ih => exact (s.notices_needed known).append (by simp) (ih _)

/-! ### What is transmitted -/

/-- A record refers to a position. -/
def Record.RefersTo (r : Record) (k : Nat) : Prop :=
  ∃ p ∈ r.payload.positions, p.toNat = k

/-- The record of a notice refers to the record of a child that is sent before it. -/
lemma Coherent.refersTo {cache : List Segment} {sent : List Notice} (h : Coherent cache sent)
    (htotal : cache.length + sent.length ≤ 65536) {i j : Nat} {m : Notice} {c : Segment}
    (hcarries : Carries sent i c) (hm : sent[j]? = some m) (hc : c ∈ m.segment.children) :
    (m.record (slots cache (sent.take j))).RefersTo (cache.length + i) := by
  have hj := (List.getElem?_eq_some_iff.mp hm).1
  have hnew : c ∉ cache := by
    obtain ⟨n, hn, hcontent⟩ := hcarries
    exact h.orderly.notMem_known (List.mem_filterMap.mpr ⟨n, List.mem_of_getElem? hn, hcontent⟩)
  obtain ⟨k, hk, -, hunique⟩ := (h.refers htotal hj (h.children_subset hm hc)).only_carrier hnew
  refine ⟨_, ?_, hunique i hcarries ▸ hk⟩
  unfold Notice.record
  cases hsegment : m.segment with
  | literal interfaces => simp [hsegment] at hc
  | composition segments =>
    rw [hsegment] at hc
    exact List.mem_map_of_mem hc

/-- What is carried was listed, or lies below something listed. -/
lemma mem_contents_notices {known segments : List Segment} {s : Segment}
    (h : s ∈ contents (notices known segments)) :
    s ∈ segments ∨ ∃ t ∈ segments, s ∈ t.properSubsegments := by
  obtain h | h := mem_contents.mp h
  · obtain ⟨t, ht, -, hpath⟩ := introduced_of_mem h
    exact .inr ⟨t, ht, hpath.mem_properSubsegments⟩
  · exact .inl (mem_of_announcement_mem h)

/-- Each listed segment has one accepted notice, which announces or recalls it. -/
lemma forall₂_accepted_notices (known segments : List Segment) :
    List.Forall₂ (fun s n => n = .announcement s ∨ n = .reminder s) segments
      ((notices known segments).filter Notice.accepted) := by
  induction segments generalizing known with
  | nil => exact .nil
  | cons s segments ih =>
    have hfirst : ∃ n, (s.notices known).filter Notice.accepted = [n] ∧
        (n = .announcement s ∨ n = .reminder s) := by
      by_cases h : s ∈ known
      · exact ⟨.reminder s, by rw [Segment.notices_of_mem h]; rfl, .inr rfl⟩
      · refine ⟨.announcement s, ?_, .inl rfl⟩
        rw [Segment.notices_of_notMem h, List.filter_append]
        simp [List.filter_map, Function.comp_def, Notice.accepted]
    obtain ⟨n, hn, hs⟩ := hfirst
    rw [notices_cons, List.filter_append, hn, List.singleton_append]
    exact .cons hs (ih _)

/-- The records of a message carry each segment that is new to the receiver once, and only what the
listed segments need. -/
structure Deduplicated (cache segments : List Segment) (sent : List Notice)
    (records : List Record) : Prop where
  /-- The records are those of the notices. -/
  describes : ∀ i n, sent[i]? = some n →
    ∃ r : Record, records[i]? = some r ∧ r.Describes cache sent (cache.length + i) n
  length_eq : records.length = sent.length
  nodup : (contents sent).Nodup
  new : ∀ s ∈ contents sent, s ∉ cache
  listed : ∀ s ∈ contents sent, s ∈ segments ∨ ∃ t ∈ segments, s ∈ t.properSubsegments
  /-- A wrapper is only sent for a listed segment that the receiver knows. -/
  recalled : ∀ s, .reminder s ∈ sent → s ∈ segments ∧ s ∈ cache ++ contents sent
  accepted : List.Forall₂ (fun s n => n = .announcement s ∨ n = .reminder s) segments
    (sent.filter Notice.accepted)
  /-- A record that is not accepted is there for a later one. -/
  referenced : ∀ (i : Nat) (r : Record), records[i]? = some r → r.accepted = false →
    ∃ j q, i < j ∧ records[j]? = some q ∧ q.RefersTo (cache.length + i)

theorem deduplicated_notices {config : Config} {cache segments : List Segment}
    (hfits : Fits config cache (notices cache segments)) :
    Deduplicated cache segments (notices cache segments)
      (recordsFrom (cache.map some) (notices cache segments)) := by
  have hcoherent := notices_coherent cache segments
  have htotal := Nat.le_of_lt hfits.total_lt
  constructor
  · intro i n hn
    refine ⟨_, ?_, hcoherent.describes hfits hn⟩
    rw [recordsFrom_getElem?, hn, Option.map_some]
  · exact length_recordsFrom _ _
  · exact hcoherent.orderly.nodup
  · exact fun s hs => hcoherent.orderly.notMem_known hs
  · exact fun s hs => mem_contents_notices hs
  · intro s hs
    obtain ⟨i, hlisted, hknown⟩ := reminder_mem_iff.mp hs
    refine ⟨List.mem_of_getElem? hlisted, mem_known_notices_iff.mpr ?_⟩
    have hearlier : segments.take i ⊆ segments := List.take_subset i segments
    obtain hcached | hlisted | ⟨t, ht, hpath⟩ := mem_known_notices_iff.mp hknown
    · exact .inl hcached
    · exact .inr (.inl (hearlier hlisted))
    · exact .inr (.inr ⟨t, hearlier ht, hpath⟩)
  · exact forall₂_accepted_notices cache segments
  · intro i r hr hintroduced
    rw [recordsFrom_getElem?, Option.map_eq_some_iff] at hr
    obtain ⟨n, hn, rfl⟩ := hr
    obtain ⟨j, m, hlt, hm, hchild⟩ := (notices_needed cache segments).exists_later hn hintroduced
    have hcarries : Carries (notices cache segments) i n.segment := by
      refine ⟨n, hn, ?_⟩
      cases n with
      | introduction s => rfl
      | announcement s => cases hintroduced
      | reminder s => cases hintroduced
    refine ⟨j, _, hlt, ?_, hcoherent.refersTo htotal hcarries hm hchild⟩
    rw [recordsFrom_getElem?, hm, Option.map_some]

namespace Session

/-- The segments that the rounds transmit in records of their own. A round that fails transmits
nothing. -/
def transmitted (session : Session) : List (List Segment) → List Segment
  | [] => []
  | batch :: batches =>
    (if (session.encode batch).isOk then contents (notices session.senderView batch) else []) ++
      (session.round batch).2.transmitted batches

/-- What the rounds transmit is new, each time. -/
theorem Agreed.transmitted_new {session : Session} {seen : List Segment}
    {batches : List (List Segment)} (h : session.Agreed seen)
    (distinct : CollisionFree (seen ++ session.exchanged batches)) :
    (session.transmitted batches).Nodup ∧
      ∀ s ∈ session.transmitted batches, s ∉ session.senderView := by
  induction batches generalizing session seen with
  | nil => simp [transmitted]
  | cons batch batches ih =>
    rw [exchanged_cons, ← List.append_assoc] at distinct
    have hfirst := distinct.mono (List.subset_append_left _ _)
    obtain ⟨hnodup, hlater⟩ := ih (h.round hfirst) distinct
    obtain ⟨cause, hencode, hround⟩ | ⟨hencode, hround⟩ :=
      round_cases h.caches_eq (h.distinct_involved hfirst)
    · have hnone : session.transmitted (batch :: batches) = session.transmitted batches := by
        rw [transmitted, hencode, hround]
        rfl
      rw [hround] at hnodup hlater
      rw [hnone]
      exact ⟨hnodup, hlater⟩
    · have horder := (notices_coherent session.senderView batch).orderly
      have hview : (session.round batch).2.senderView =
          session.senderView ++ (notices session.senderView batch).map Notice.segment := by
        rw [hround, extend]
      rw [transmitted, if_pos hencode]
      constructor
      · refine List.nodup_append.mpr ⟨horder.nodup, hnodup, ?_⟩
        rintro s hs t ht rfl
        refine hlater s ht ?_
        rw [hview]
        exact List.mem_append_right _ (contents_subset _ hs)
      · intro s hs hheld
        obtain hs | hs := List.mem_append.mp hs
        · exact horder.notMem_known hs hheld
        · refine hlater s hs ?_
          rw [hview]
          exact List.mem_append_left _ hheld

end Session

/-- A message that is encoded carries each segment that is new to its receiver once, and nothing
else. Over a session, no segment is transmitted in a record of its own more than once. -/
theorem encode_deduplicates :
    (∀ {config : Config} {cache segments : List Segment} {source destination : IsdAsn}
        {message : EncodedMessage},
      CollisionFree (involved cache segments) →
      encode config cache segments source destination = .ok message →
      ∃ (header : Header) (records : List Record),
        message.bytes = header.toBytes ++ records.flatMap Record.toBytes ∧
        message.sent = (notices cache segments).map Notice.segment ∧
        Deduplicated cache segments (notices cache segments) records) ∧
    ∀ (source destination : IsdAsn) (batches : List (List Segment)),
      CollisionFree ((Session.start source destination).exchanged batches) →
      ((Session.start source destination).transmitted batches).Nodup := by
  constructor
  · intro config cache segments source destination message distinct h
    obtain ⟨hfits, rfl⟩ := (encode_eq_ok_iff config distinct source destination message).mp h
    exact ⟨_, _, rfl, rfl, deduplicated_notices hfits⟩
  · intro source destination batches distinct
    exact ((Session.Agreed.start source destination).transmitted_new distinct).1

/-- A leaf of a tree is cached. The other leaf is introduced for the tree and referred to, and the
tree is carried once, in this message and in a session. -/
theorem encode_deduplicates_tree :
    (∃ (message : EncodedMessage) (header : Header) (records : List Record) (j : Nat) (q : Record),
      encode {} [Sample.literal 8 4] [Sample.tree 1 2, Sample.tree 1 2] ⟨1⟩ ⟨2⟩ = .ok message ∧
      message.bytes = header.toBytes ++ records.flatMap Record.toBytes ∧
      0 < j ∧ records[j]? = some q ∧ q.RefersTo 1 ∧
      Deduplicated [Sample.literal 8 4] [Sample.tree 1 2, Sample.tree 1 2]
        [.introduction (Sample.literal 4 4), .announcement (Sample.tree 1 2),
          .reminder (Sample.tree 1 2)] records) ∧
    ((Session.start ⟨1⟩ ⟨2⟩).transmitted [[Sample.tree 1 2], [Sample.tree 1 2]]).Nodup := by
  have distinct : CollisionFree (involved [Sample.literal 8 4]
      [Sample.tree 1 2, Sample.tree 1 2]) := by
    decide +kernel
  have hnotices : notices [Sample.literal 8 4] [Sample.tree 1 2, Sample.tree 1 2] =
      [.introduction (Sample.literal 4 4), .announcement (Sample.tree 1 2),
        .reminder (Sample.tree 1 2)] := by
    decide +kernel
  have hfits : Fits {} [Sample.literal 8 4]
      (notices [Sample.literal 8 4] [Sample.tree 1 2, Sample.tree 1 2]) := by
    rw [hnotices]
    decide +kernel
  constructor
  · have hencode := (encode_eq_ok_iff {} distinct ⟨1⟩ ⟨2⟩ _).mpr ⟨hfits, rfl⟩
    obtain ⟨header, records, hbytes, -, h⟩ := encode_deduplicates.1 distinct hencode
    rw [hnotices] at h
    obtain ⟨r, hr, hdescribes⟩ := h.describes 0 _ rfl
    obtain ⟨j, q, hlt, hq, hrefers⟩ := h.referenced 0 r hr hdescribes.accepted_eq
    exact ⟨_, header, records, j, q, hencode, hbytes, hlt, hq, hrefers, h⟩
  · exact encode_deduplicates.2 ⟨1⟩ ⟨2⟩ _ (by decide +kernel)

end SegmentWire
