import Mathlib.Data.List.Perm.Subperm
import SegmentWire.Proofs.Introductions
import SegmentWire.Proofs.Positions
import SegmentWire.Proofs.Receipts

/-!
# Notices

A message is a list of notices, one for each record. A subsegment that the
receiver does not know is introduced, a listed segment is announced, and a listed
segment that the receiver knows already is only recalled, by a wrapper around it.
The notices of a message follow from the cache and the listed segments alone:
neither fingerprints nor limits come in. Their records follow when each segment is
referred to by its last position.
-/
namespace SegmentWire

inductive Notice
  /-- A subsegment, sent before a segment that needs it. -/
  | introduction (s : Segment)
  /-- A listed segment, sent itself. -/
  | announcement (s : Segment)
  /-- A listed segment that is known already. -/
  | reminder (s : Segment)
  deriving DecidableEq

namespace Notice

/-- The segment that the record stands for. -/
def segment : Notice → Segment
  | introduction s => s
  | announcement s => s
  | reminder s => s.wrapper

def accepted : Notice → Bool
  | introduction _ => false
  | announcement _ => true
  | reminder _ => true

/-- What the receiver makes of the record. -/
def receipt (n : Notice) : Receipt :=
  ⟨n.accepted, n.segment⟩

/-- What the receiver learns. A wrapper tells nothing new. -/
def content? : Notice → Option Segment
  | introduction s => some s
  | announcement s => some s
  | reminder _ => none

lemma segment_of_content? {n : Notice} {s : Segment} (h : n.content? = some s) : n.segment = s := by
  cases n <;> simp_all [content?, segment]

end Notice

/-- The segments that a list of notices carries. -/
def contents (notices : List Notice) : List Segment :=
  notices.filterMap Notice.content?

@[simp] lemma contents_nil : contents [] = [] := rfl

@[simp] lemma contents_append (notices later : List Notice) :
    contents (notices ++ later) = contents notices ++ contents later :=
  List.filterMap_append

lemma contents_concat (notices : List Notice) (n : Notice) :
    contents (notices ++ [n]) = contents notices ++ n.content?.toList := by
  rw [contents_append]
  cases hcontent : n.content? <;> simp [contents, hcontent]

@[simp] lemma contents_introductions (segments : List Segment) :
    contents (segments.map .introduction) = segments := by
  induction segments with
  | nil => rfl
  | cons s segments ih => simpa [contents, Notice.content?] using ih

lemma mem_contents {notices : List Notice} {s : Segment} :
    s ∈ contents notices ↔ .introduction s ∈ notices ∨ .announcement s ∈ notices := by
  rw [contents, List.mem_filterMap]
  constructor
  · intro h
    obtain ⟨n, hn, hcontent⟩ := h
    cases n with
    | introduction t => cases hcontent; exact .inl hn
    | announcement t => cases hcontent; exact .inr hn
    | reminder t => cases hcontent
  · intro h
    obtain hn | hn := h
    · exact ⟨_, hn, rfl⟩
    · exact ⟨_, hn, rfl⟩

lemma contents_subset (notices : List Notice) :
    contents notices ⊆ notices.map Notice.segment := by
  intro s hs
  obtain ⟨n, hn, hcontent⟩ := List.mem_filterMap.mp hs
  exact List.mem_map.mpr ⟨n, hn, Notice.segment_of_content? hcontent⟩

/-- The notices of one listed segment. -/
def Segment.notices (known : List Segment) (s : Segment) : List Notice :=
  if s ∈ known then [.reminder s]
  else (s.unknown known).map .introduction ++ [.announcement s]

/-- The notices of a list of segments. -/
def notices (known : List Segment) : List Segment → List Notice
  | [] => []
  | s :: segments =>
    let first := s.notices known
    first ++ notices (known ++ contents first) segments

lemma Segment.notices_of_mem {known : List Segment} {s : Segment} (h : s ∈ known) :
    s.notices known = [.reminder s] :=
  if_pos h

lemma Segment.notices_of_notMem {known : List Segment} {s : Segment} (h : s ∉ known) :
    s.notices known = (s.unknown known).map .introduction ++ [.announcement s] :=
  if_neg h

@[simp] lemma notices_nil (known : List Segment) : notices known [] = [] := rfl

lemma notices_cons (known : List Segment) (s : Segment) (segments : List Segment) :
    notices known (s :: segments) =
      s.notices known ++ notices (known ++ contents (s.notices known)) segments := rfl

/-- A list is announced by announcing its parts one after the other. -/
lemma notices_append (known segments more : List Segment) :
    notices known (segments ++ more) =
      notices known segments ++ notices (known ++ contents (notices known segments)) more := by
  induction segments generalizing known with
  | nil => simp
  | cons s segments ih =>
    rw [List.cons_append, notices_cons, ih, notices_cons]
    simp only [contents_append, List.append_assoc]

lemma Segment.notices_congr {known others : List Segment} {s : Segment}
    (h : ∀ t ∈ s :: s.properSubsegments, t ∈ known ↔ t ∈ others) :
    s.notices known = s.notices others := by
  obtain ⟨hs, hbelow⟩ := List.forall_mem_cons.mp h
  simp only [notices, hs, s.unknown_congr hbelow]

/-- All that matters is which of the listed segments and of their subsegments are known. -/
lemma notices_congr {known others segments : List Segment}
    (h : ∀ s ∈ segments, ∀ t ∈ s :: s.properSubsegments, t ∈ known ↔ t ∈ others) :
    notices known segments = notices others segments := by
  induction segments generalizing known others with
  | nil => rfl
  | cons s segments ih =>
    obtain ⟨hs, hrest⟩ := List.forall_mem_cons.mp h
    rw [notices_cons, notices_cons, Segment.notices_congr hs]
    refine congrArg _ (ih fun r hr t ht => ?_)
    simp only [List.mem_append, hrest r hr t ht]

/-- After its notices a listed segment is known. -/
lemma Segment.mem_known_notices (known : List Segment) (s : Segment) :
    s ∈ known ++ contents (s.notices known) := by
  by_cases h : s ∈ known
  · exact List.mem_append_left _ h
  · rw [notices_of_notMem h]
    exact List.mem_append_right _ (mem_contents.mpr (.inr (by simp)))

/-! ### The order of notices -/

/-- Notices in an order in which they can be sent: the children of each are known by then, and
nothing is sent that is known. -/
inductive Coherent (known : List Segment) : List Notice → Prop
  | nil : Coherent known []
  | concat {notices : List Notice} {n : Notice} : Coherent known notices →
      n.segment.children ⊆ known ++ contents notices →
      (∀ s, n.content? = some s → s ∉ known ++ contents notices) → Coherent known (notices ++ [n])

namespace Coherent

variable {known : List Segment} {sent later : List Notice}

lemma append (h : Coherent known sent) (hlater : Coherent (known ++ contents sent) later) :
    Coherent known (sent ++ later) := by
  induction hlater with
  | nil => simpa using h
  | concat _ hchildren hnew ih =>
    rw [← List.append_assoc]
    exact .concat ih (by simpa using hchildren) (by simpa using hnew)

lemma orderly (h : Coherent known sent) : Orderly known (contents sent) := by
  induction h with
  | nil => exact .nil
  | @concat notices n _ hchildren hnew ih =>
    rw [contents_concat]
    cases hcontent : n.content? with
    | none => simpa using ih
    | some s =>
      have hsegment := Notice.segment_of_content? hcontent
      exact .concat ih (hnew s hcontent) (hsegment ▸ hchildren)

lemma introductions {segments : List Segment} (h : Orderly known segments) :
    Coherent known (segments.map .introduction) := by
  induction h with
  | nil => exact .nil
  | concat _ hnew hchildren ih =>
    rw [List.map_append]
    refine .concat ih (by simpa [Notice.segment] using hchildren) ?_
    intro t ht
    cases ht
    simpa using hnew

end Coherent

theorem Segment.notices_coherent (known : List Segment) (s : Segment) :
    Coherent known (s.notices known) := by
  by_cases h : s ∈ known
  · rw [notices_of_mem h]
    refine Coherent.nil.concat (n := .reminder s) ?_ ?_
    · simpa [Notice.segment] using h
    · intro t ht
      cases ht
  · rw [notices_of_notMem h]
    refine .concat (.introductions (s.unknown_orderly known)) ?_ ?_
    · simpa [Notice.segment] using s.children_subset_known known
    · intro t ht
      cases ht
      simpa using notMem_known_unknown h

theorem notices_coherent (known segments : List Segment) :
    Coherent known (notices known segments) := by
  induction segments generalizing known with
  | nil => exact .nil
  | cons s segments ih => exact (s.notices_coherent known).append (ih _)

/-! ### Accepted records -/

/-- The segments of the records that are marked as accepted. -/
def acceptedSegments (notices : List Notice) : List Segment :=
  marked true (notices.map Notice.receipt)

@[simp] lemma acceptedSegments_append (sent later : List Notice) :
    acceptedSegments (sent ++ later) = acceptedSegments sent ++ acceptedSegments later := by
  simp [acceptedSegments]

@[simp] lemma acceptedSegments_introductions (segments : List Segment) :
    acceptedSegments (segments.map .introduction) = [] := by
  simp [acceptedSegments, marked, List.filter_map, Function.comp_def, Notice.receipt,
    Notice.accepted]

lemma Segment.acceptedSegments_notices (known : List Segment) (s : Segment) :
    acceptedSegments (s.notices known) = [if s ∈ known then s.wrapper else s] := by
  by_cases h : s ∈ known
  · rw [notices_of_mem h, if_pos h]
    rfl
  · rw [notices_of_notMem h, if_neg h, acceptedSegments_append, acceptedSegments_introductions]
    rfl

@[simp] lemma length_acceptedSegments_notices (known segments : List Segment) :
    (acceptedSegments (notices known segments)).length = segments.length := by
  induction segments generalizing known with
  | nil => rfl
  | cons s segments ih =>
    rw [notices_cons, acceptedSegments_append, s.acceptedSegments_notices, List.length_append, ih,
      List.length_singleton, List.length_cons, Nat.add_comm]

/-- Each listed segment is accepted as itself if it is not known at its turn, else as its
wrapper. -/
lemma acceptedSegments_notices_getElem? (known segments : List Segment) (i : Nat) :
    (acceptedSegments (notices known segments))[i]? = segments[i]?.map fun s =>
      if s ∈ known ++ contents (notices known (segments.take i)) then s.wrapper else s := by
  induction segments generalizing known i with
  | nil => rfl
  | cons s segments ih =>
    rw [notices_cons, acceptedSegments_append, s.acceptedSegments_notices, List.singleton_append]
    cases i with
    | zero => simp
    | succ i =>
      rw [List.getElem?_cons_succ, ih, List.getElem?_cons_succ, List.take_succ_cons, notices_cons,
        contents_append, List.append_assoc]

/-- Each listed segment is accepted as itself or as its wrapper. -/
lemma forall₂_acceptedSegments_notices (known segments : List Segment) :
    List.Forall₂ (fun s t => t = s ∨ t = s.wrapper) segments
      (acceptedSegments (notices known segments)) := by
  induction segments generalizing known with
  | nil => exact .nil
  | cons s segments ih =>
    rw [notices_cons, acceptedSegments_append, s.acceptedSegments_notices, List.singleton_append]
    refine .cons ?_ (ih _)
    by_cases h : s ∈ known <;> simp [h]

lemma mem_of_announcement_mem {known segments : List Segment} {s : Segment}
    (h : .announcement s ∈ notices known segments) : s ∈ segments := by
  induction segments generalizing known with
  | nil => simp at h
  | cons t segments ih =>
    obtain h | h := List.mem_append.mp h
    · by_cases ht : t ∈ known
      · simp [Segment.notices_of_mem ht] at h
      · have hst : s = t := by simpa [Segment.notices_of_notMem ht] using h
        exact hst ▸ List.mem_cons_self
    · exact List.mem_cons_of_mem _ (ih h)

/-- What is recalled was listed, and was known at its turn. -/
lemma reminder_mem_iff {known segments : List Segment} {s : Segment} :
    .reminder s ∈ notices known segments ↔
      ∃ i, segments[i]? = some s ∧ s ∈ known ++ contents (notices known (segments.take i)) := by
  induction segments generalizing known with
  | nil => simp
  | cons t segments ih =>
    rw [notices_cons, List.mem_append, ih]
    constructor
    · intro h
      obtain h | ⟨i, hs, hknown⟩ := h
      · by_cases ht : t ∈ known
        · have hst : s = t := by simpa [Segment.notices_of_mem ht] using h
          exact ⟨0, by simp [hst], by simpa [hst] using ht⟩
        · simp [Segment.notices_of_notMem ht] at h
      · refine ⟨i + 1, by simpa using hs, ?_⟩
        rwa [List.take_succ_cons, notices_cons, contents_append, ← List.append_assoc]
    · intro h
      obtain ⟨i, hs, hknown⟩ := h
      cases i with
      | zero =>
        have hts : t = s := by simpa using hs
        have hmem : t ∈ known := by simpa [hts] using hknown
        rw [Segment.notices_of_mem hmem, hts]
        exact .inl (List.mem_singleton_self _)
      | succ i =>
        rw [List.take_succ_cons, notices_cons, contents_append, ← List.append_assoc] at hknown
        exact .inr ⟨i, by simpa using hs, hknown⟩

lemma subset_known_notices (known segments : List Segment) :
    segments ⊆ known ++ contents (notices known segments) := by
  induction segments generalizing known with
  | nil => simp
  | cons s segments ih =>
    rw [notices_cons, contents_append, ← List.append_assoc]
    exact List.cons_subset.mpr ⟨List.mem_append_left _ (s.mem_known_notices known), ih _⟩

/-- A subsegment that is introduced for one of the listed segments: children that are not known lead
to it from a listed segment that is not known either. -/
def Introduced (known segments : List Segment) (s : Segment) : Prop :=
  ∃ t ∈ segments, t ∉ known ∧ t.Uncovers known s

lemma introduced_of_mem {known segments : List Segment} {s : Segment}
    (h : .introduction s ∈ notices known segments) : Introduced known segments s := by
  induction segments generalizing known with
  | nil => simp at h
  | cons t segments ih =>
    obtain h | h := List.mem_append.mp h
    · by_cases ht : t ∈ known
      · simp [Segment.notices_of_mem ht] at h
      · have hs : s ∈ t.unknown known := by simpa [Segment.notices_of_notMem ht] using h
        exact ⟨t, List.mem_cons_self, ht, Segment.mem_unknown_iff.mp hs⟩
    · obtain ⟨r, hr, hnew, hpath⟩ := ih h
      have hsub : known ⊆ known ++ contents (t.notices known) := List.subset_append_left _ _
      exact ⟨r, List.mem_cons_of_mem _ hr, fun hknown => hnew (hsub hknown), hpath.mono hsub⟩

/-- A segment is known after a list of segments if it was known before, if it was listed or if it
was introduced for one of those listed. -/
lemma mem_known_notices_iff {known segments : List Segment} {s : Segment} :
    s ∈ known ++ contents (notices known segments) ↔
      s ∈ known ∨ s ∈ segments ∨ Introduced known segments s := by
  constructor
  · intro h
    obtain h | h := List.mem_append.mp h
    · exact .inl h
    · obtain h | h := mem_contents.mp h
      · exact .inr (.inr (introduced_of_mem h))
      · exact .inr (.inl (mem_of_announcement_mem h))
  · intro h
    obtain h | h | ⟨t, ht, hnew, hpath⟩ := h
    · exact List.mem_append_left _ h
    · exact subset_known_notices known segments h
    · have horder := (notices_coherent known segments).orderly
      have hsent : t ∈ contents (notices known segments) :=
        (List.mem_append.mp (subset_known_notices known segments ht)).resolve_left hnew
      refine List.mem_append_right _ (horder.mem_of_uncovers ?_ hpath)
      exact fun _ hc => horder.children_subset hsent hc

/-! ### Introduced segments -/

lemma mem_marked_false_notices {sent : List Notice} {s : Segment} :
    s ∈ marked false (sent.map Notice.receipt) ↔ .introduction s ∈ sent := by
  rw [mem_marked, List.mem_map]
  constructor
  · intro h
    obtain ⟨n, hn, hreceived⟩ := h
    cases n with
    | introduction t =>
      cases hreceived
      exact hn
    | announcement t => cases hreceived
    | reminder t => cases hreceived
  · intro h
    exact ⟨_, h, rfl⟩

/-- Introductions are among the contents. -/
lemma marked_false_sublist_contents (sent : List Notice) :
    (marked false (sent.map Notice.receipt)).Sublist (contents sent) := by
  induction sent with
  | nil => exact List.Sublist.refl _
  | cons n sent ih =>
    have hcontents : contents (n :: sent) = contents [n] ++ contents sent :=
      contents_append [n] sent
    rw [hcontents, List.map_cons, ← List.singleton_append, marked_append, marked_singleton]
    refine List.Sublist.append ?_ ih
    cases n <;> simp [Notice.receipt, Notice.accepted, Notice.segment, contents, Notice.content?]

/-- Each listed segment takes one record, and each introduced one another. -/
lemma length_notices (known segments : List Segment) :
    (notices known segments).length =
      segments.length + (marked false ((notices known segments).map Notice.receipt)).length := by
  have hsent := length_marked ((notices known segments).map Notice.receipt)
  rw [← acceptedSegments, length_acceptedSegments_notices, List.length_map] at hsent
  exact hsent.symm

/-- No segment is introduced twice, so that it is enough to say which are. -/
lemma length_notices_le_of_introductions {known segments pool : List Segment}
    (h : ∀ t, .introduction t ∈ notices known segments → t ∈ pool) :
    (notices known segments).length ≤ segments.length + pool.length := by
  have hnodup : (marked false ((notices known segments).map Notice.receipt)).Nodup :=
    (notices_coherent _ _).orderly.nodup.sublist (marked_false_sublist_contents _)
  have hsub : marked false ((notices known segments).map Notice.receipt) ⊆ pool :=
    fun t ht => h t (mem_marked_false_notices.mp ht)
  have hle := (List.subperm_of_subset hnodup hsub).length_le
  have hlength := length_notices known segments
  omega

/-! ### Positions and records -/

/-- The common numbering of cache and records, with what is registered at each position. -/
def slots (cache : List Segment) (notices : List Notice) : List (Option Segment) :=
  cache.map some ++ notices.map Notice.content?

@[simp] lemma length_slots (cache : List Segment) (notices : List Notice) :
    (slots cache notices).length = cache.length + notices.length := by
  simp [slots]

lemma slots_concat (cache : List Segment) (notices : List Notice) (n : Notice) :
    slots cache (notices ++ [n]) = slots cache notices ++ [n.content?] := by
  simp [slots]

lemma mem_slots {cache : List Segment} {notices : List Notice} {s : Segment} :
    some s ∈ slots cache notices ↔ s ∈ cache ++ contents notices := by
  simp [slots, contents, List.mem_filterMap]

/-- The position by which a segment is referred to: the last one at which it is registered. -/
def position (slots : List (Option Segment)) (s : Segment) : UInt16 :=
  UInt16.ofNat ((lastPosition? s slots).getD 0)

/-- The entries of a segment's record. -/
def Segment.payload (position : Segment → UInt16) : Segment → Payload
  | .literal interfaces => .interfaces interfaces
  | .composition segments => .references (segments.toList.map position)

@[simp] lemma Segment.count_payload (position : Segment → UInt16) (s : Segment) :
    (s.payload position).count = s.length := by
  cases s <;> simp [payload, Payload.count]

@[simp] lemma Segment.kind_payload (position : Segment → UInt16) (s : Segment) :
    (s.payload position).kind = s.kind := by
  cases s <;> rfl

/-- The record of a notice that follows the given slots. -/
def Notice.record (slots : List (Option Segment)) (n : Notice) : Record :=
  ⟨n.accepted, n.segment.payload (position slots)⟩

/-- The records of notices that follow the given slots. -/
def recordsFrom (slots : List (Option Segment)) : List Notice → List Record
  | [] => []
  | n :: notices => n.record slots :: recordsFrom (slots ++ [n.content?]) notices

@[simp] lemma length_recordsFrom (slots : List (Option Segment)) (notices : List Notice) :
    (recordsFrom slots notices).length = notices.length := by
  induction notices generalizing slots with
  | nil => rfl
  | cons n notices ih => simp [recordsFrom, ih]

lemma recordsFrom_append (before : List (Option Segment)) (sent later : List Notice) :
    recordsFrom before (sent ++ later) =
      recordsFrom before sent ++ recordsFrom (before ++ sent.map Notice.content?) later := by
  induction sent generalizing before with
  | nil => simp [recordsFrom]
  | cons n sent ih => simp [recordsFrom, ih]

lemma recordsFrom_concat (cache : List Segment) (notices : List Notice) (n : Notice) :
    recordsFrom (cache.map some) (notices ++ [n]) =
      recordsFrom (cache.map some) notices ++ [n.record (slots cache notices)] :=
  recordsFrom_append _ _ _

lemma recordsFrom_getElem? (cache : List Segment) (notices : List Notice) (i : Nat) :
    (recordsFrom (cache.map some) notices)[i]? =
      notices[i]?.map (Notice.record (slots cache (notices.take i))) := by
  have hgen : ∀ before : List (Option Segment), (recordsFrom before notices)[i]? =
      notices[i]?.map (Notice.record (before ++ (notices.take i).map Notice.content?)) := by
    induction notices generalizing i with
    | nil => simp [recordsFrom]
    | cons n notices ih =>
      intro before
      cases i with
      | zero => simp [recordsFrom]
      | succ i => simp [recordsFrom, ih]
  exact hgen _

end SegmentWire
