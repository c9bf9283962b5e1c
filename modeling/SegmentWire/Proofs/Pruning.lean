import SegmentWire.Proofs.Closure

/-!
# Leaving known subtrees alone

The plain way to announce a segment is to look at every proper subsegment of it, one
after the other, and to emit those that have no position yet. Encoding stops at a
known subsegment instead and does not look below it. Over a closed cache nothing is
left to emit there, so that both give the same message or fail with the same error.
What is known stays closed after every record, which is what the walk needs to go on.
-/
namespace SegmentWire

/-! ### Plain encoding -/

namespace Outgoing

/-- Emits the segments of a list that have no position yet. -/
def introduceAll (out : Outgoing) : List Segment → Except CodecError Outgoing
  | [] => .ok out
  | s :: segments =>
    if out.table.contains s.fingerprint then out.introduceAll segments
    else do
      let out ← out.emit false s
      out.introduceAll segments

/-- Announces one listed segment after a look at each of its proper subsegments. -/
def announcePlainly (config : Config) (out : Outgoing) (s : Segment) :
    Except CodecError Outgoing :=
  if config.maxDepth < s.height then .error (.nestingTooDeep config.maxDepth)
  else do
    let out ← out.introduceAll s.properSubsegments
    match out.table.get? s.fingerprint with
    | some position =>
      if config.maxDepth ≤ s.height then .error (.nestingTooDeep config.maxDepth)
      else out.emitWrapper s position
    | none => out.emit true s

def announceAllPlainly (config : Config) (out : Outgoing) :
    List Segment → Except CodecError Outgoing
  | [] => .ok out
  | s :: segments => do
    let out ← out.announcePlainly config s
    out.announceAllPlainly config segments

end Outgoing

/-- Announces `segments` to a receiver that holds `cache`, with a look at all their proper
subsegments. -/
def encodePlainly (config : Config) (cache segments : List Segment) (source destination : IsdAsn) :
    Except CodecError EncodedMessage := do
  let out ← Outgoing.start cache
  let out ← out.announceAllPlainly config segments
  out.finish source destination

/-! ### Agreement -/

namespace Closed

variable {known : List Segment}

lemma append_unknown (h : Closed known) (s : Segment) : Closed (known ++ s.unknown known) :=
  h.append_orderly (s.unknown_orderly known)

lemma append_notices (h : Closed known) (s : Segment) :
    Closed (known ++ contents (s.notices known)) :=
  h.append_orderly (s.notices_coherent known).orderly

end Closed

namespace Outgoing

variable {config : Config} {pool cache : List Segment} {sent : List Notice} {out : Outgoing}

lemma Yields.tracks {step : Except CodecError Outgoing} (h : Yields config pool cache sent step)
    (hstep : step = .ok out) : out.Tracks config pool cache sent := by
  rwa [hstep] at h

lemma introduceAll_append (out : Outgoing) (segments later : List Segment) :
    out.introduceAll (segments ++ later) =
      out.introduceAll segments >>= fun out => out.introduceAll later := by
  induction segments generalizing out with
  | nil => rfl
  | cons s segments ih =>
    rw [List.cons_append, introduceAll, introduceAll]
    by_cases hknown : out.table.contains s.fingerprint = true
    · rw [if_pos hknown, if_pos hknown, ih]
    · rw [if_neg hknown, if_neg hknown]
      cases out.emit false s with
      | error e => rfl
      | ok out => exact ih out

/-- Nothing is emitted for segments that are known. -/
lemma introduceAll_of_known (h : out.Tracks config pool cache sent) {segments : List Segment}
    (hknown : ∀ s ∈ segments, s ∈ cache ++ contents sent) :
    out.introduceAll segments = .ok out := by
  induction segments with
  | nil => rfl
  | cons s segments ih =>
    obtain ⟨hs, hrest⟩ := List.forall_mem_cons.mp hknown
    rw [introduceAll, if_pos ((h.contains_iff (h.within hs)).mpr hs), ih hrest]

mutual

/-- A walk that stops at known subsegments emits what a look at all of them does. -/
theorem introduceAll_properSubsegments (s : Segment) {sent : List Notice} {out : Outgoing}
    (h : out.Tracks config pool cache sent) (hclosed : Closed (cache ++ contents sent))
    (hpool : s.properSubsegments ⊆ pool) (hheight : s.height ≤ config.maxDepth) :
    out.introduceAll s.properSubsegments = out.introduce s := by
  match s with
  | .literal interfaces => rfl
  | .composition segments => exact introduceAll_subsegments segments h hclosed hpool hheight

theorem introduceAll_subsegments (segments : SegmentList) {sent : List Notice} {out : Outgoing}
    (h : out.Tracks config pool cache sent) (hclosed : Closed (cache ++ contents sent))
    (hpool : segments.subsegments ⊆ pool) (hheight : segments.levels ≤ config.maxDepth) :
    out.introduceAll segments.subsegments = out.introduceEach segments := by
  match segments with
  | .nil => rfl
  | .cons head tail =>
    obtain ⟨hbelow, hhead, htail⟩ := SegmentList.subsegments_cons_subset.mp hpool
    have hlevels := SegmentList.levels_cons head tail
    rw [SegmentList.subsegments, introduceAll_append, introduceEach]
    by_cases hmem : head ∈ cache ++ contents sent
    · have hcontains := (h.contains_iff hhead).mpr hmem
      rw [introduceAll_of_known h (hclosed head hmem), ok_bind, introduceAll, if_pos hcontains,
        if_pos hcontains]
      exact introduceAll_subsegments tail h hclosed htail (by omega)
    · let below := (head.unknown (cache ++ contents sent)).map Notice.introduction
      have hknown : cache ++ contents (sent ++ below) =
          cache ++ contents sent ++ head.unknown (cache ++ contents sent) := by
        simp [below]
      rw [if_neg (mt (h.contains_iff hhead).mp hmem),
        introduceAll_properSubsegments head h hclosed hbelow (by omega)]
      refine bind_congr_ok fun out hout => ?_
      have hintroduced : out.Tracks config pool cache (sent ++ below) :=
        (introduce_yields head h hbelow (by omega)).tracks hout
      -- What lies below the head is known by now, but the head itself is not.
      have hnew : head ∉ cache ++ contents (sent ++ below) := by
        rw [hknown]
        exact Segment.notMem_known_unknown hmem
      have hchildren : head.children ⊆ cache ++ contents (sent ++ below) := by
        rw [hknown]
        exact head.children_subset_known _
      rw [introduceAll, if_neg (mt (hintroduced.contains_iff hhead).mp hnew)]
      refine bind_congr_ok fun out hout => ?_
      have hemitted : out.Tracks config pool cache (sent ++ below ++ [.introduction head]) :=
        (emit_yields hintroduced (n := .introduction head) rfl hhead (by omega) hchildren).tracks
          hout
      refine introduceAll_subsegments tail hemitted ?_ htail (by omega)
      rw [contents_concat, ← List.append_assoc]
      refine Closed.append (hknown ▸ hclosed.append_unknown head) fun s hs => ?_
      obtain rfl : s = head := by simpa [Notice.content?] using hs
      exact List.subset_append_of_subset_left _ hchildren

end

lemma announcePlainly_eq (s : Segment) (h : out.Tracks config pool cache sent)
    (hclosed : Closed (cache ++ contents sent)) (hs : s ∈ pool)
    (hpool : s.properSubsegments ⊆ pool) :
    out.announcePlainly config s = out.announce config s := by
  rw [announcePlainly, announce]
  by_cases hheight : config.maxDepth < s.height
  · rw [if_pos hheight, if_pos hheight]
  · rw [if_neg hheight, if_neg hheight]
    by_cases hmem : s ∈ cache ++ contents sent
    · rw [introduceAll_of_known h (hclosed s hmem), ok_bind]
      simp only [h.get?_of_mem hmem]
    · rw [introduceAll_properSubsegments s h hclosed hpool (by omega), h.get?_of_notMem hs hmem]
      refine bind_congr_ok fun out hout => ?_
      have hintroduced := (introduce_yields s h hpool (by omega)).tracks hout
      have hnew : s ∉ cache ++
          contents (sent ++ (s.unknown (cache ++ contents sent)).map .introduction) := by
        simpa using Segment.notMem_known_unknown hmem
      simp only [hintroduced.get?_of_notMem hs hnew]

lemma announceAllPlainly_eq (segments : List Segment) (h : out.Tracks config pool cache sent)
    (hclosed : Closed (cache ++ contents sent))
    (hpool : ∀ s ∈ segments, s ∈ pool ∧ s.properSubsegments ⊆ pool) :
    out.announceAllPlainly config segments = out.announceAll config segments := by
  induction segments generalizing sent out with
  | nil => rfl
  | cons s segments ih =>
    obtain ⟨hs, hbelow⟩ := hpool s List.mem_cons_self
    rw [announceAllPlainly, announceAll, announcePlainly_eq s h hclosed hs hbelow]
    cases hstep : out.announce config s with
    | error e => rfl
    | ok next =>
      refine ih ((announce_yields s h hs hbelow).tracks hstep) ?_ fun t ht =>
        hpool t (List.mem_cons_of_mem _ ht)
      rw [contents_append, ← List.append_assoc]
      exact hclosed.append_notices s

end Outgoing

/-- Over a closed cache, encoding gives the same message or the same error as a look at all proper
subsegments. A session only ever reaches closed caches. -/
theorem encodePlainly_eq_encode :
    (∀ {config : Config} {cache segments : List Segment}, Closed cache →
      CollisionFree (involved cache segments) → ∀ source destination : IsdAsn,
        encodePlainly config cache segments source destination =
          encode config cache segments source destination) ∧
    ∀ (source destination : IsdAsn) (batches : List (List Segment)),
      let session := (Session.start source destination).after batches
      Closed session.receiverCache ∧
        (CollisionFree ((Session.start source destination).exchanged batches) →
          Closed session.senderView) := by
  constructor
  · intro config cache segments hclosed distinct source destination
    refine bind_congr_ok fun out hout => ?_
    have hstart : out.Tracks config (involved cache segments) cache [] :=
      (Outgoing.start_yields distinct (cache_subset_involved cache segments)).tracks hout
    rw [Outgoing.announceAllPlainly_eq segments hstart (by simpa using hclosed)
      (listed_mem_involved cache)]
  · intro source destination batches session
    have hreceiver : Closed session.receiverCache := Session.closed_after closed_nil batches
    refine ⟨hreceiver, fun distinct => ?_⟩
    have hagreed : session.Agreed _ := (Session.Agreed.start source destination).after distinct
    rwa [hagreed.caches_eq]

/-- A tree is cached with its leaf and is listed again, after a segment that contains it. -/
theorem encodePlainly_eq_encode_tree :
    (∃ message, encodePlainly {} [Sample.literal 4 4, Sample.tree 1 1]
        [.ofSegments [Sample.tree 1 1, Sample.literal 8 4], Sample.tree 1 1] ⟨1⟩ ⟨2⟩ =
          .ok message ∧
      message.sent = [Sample.literal 8 4, .ofSegments [Sample.tree 1 1, Sample.literal 8 4],
        (Sample.tree 1 1).wrapper]) ∧
    Closed ((Session.start ⟨1⟩ ⟨2⟩).after [[Sample.tree 1 1], [Sample.tree 1 1]]).senderView := by
  have hclosed : Closed [Sample.literal 4 4, Sample.tree 1 1] := by
    decide +kernel
  have distinct : CollisionFree (involved [Sample.literal 4 4, Sample.tree 1 1]
      [.ofSegments [Sample.tree 1 1, Sample.literal 8 4], Sample.tree 1 1]) := by
    decide +kernel
  have hfits : Fits {} [Sample.literal 4 4, Sample.tree 1 1]
      (notices [Sample.literal 4 4, Sample.tree 1 1]
        [.ofSegments [Sample.tree 1 1, Sample.literal 8 4], Sample.tree 1 1]) := by
    decide +kernel
  constructor
  · rw [encodePlainly_eq_encode.1 hclosed distinct]
    refine ⟨_, (encode_eq_ok_iff {} distinct ⟨1⟩ ⟨2⟩ _).mpr ⟨hfits, rfl⟩, ?_⟩
    decide +kernel
  · exact (encodePlainly_eq_encode.2 ⟨1⟩ ⟨2⟩ _).2 (by decide +kernel)

/-- A tree that is cached without its leaf: the leaf is sent only if all subsegments are looked
at. -/
example :
    (encode {} [Sample.tree 1 1] [(Sample.tree 1 1).wrapper] ⟨1⟩ ⟨2⟩).map EncodedMessage.sent =
      .ok [(Sample.tree 1 1).wrapper] ∧
    (encodePlainly {} [Sample.tree 1 1] [(Sample.tree 1 1).wrapper] ⟨1⟩ ⟨2⟩).map
        EncodedMessage.sent =
      .ok [Sample.literal 4 4, (Sample.tree 1 1).wrapper] := by
  decide +kernel

end SegmentWire
