import SegmentWire.Proofs.Subsegments

/-!
# Introductions

Before a segment can be sent, the subsegments that the receiver does not know have
to be introduced. Which ones these are follows from the segment and the known
segments alone, by structure: those that a path of unknown children leads to, each
once and after its own children.
-/
namespace SegmentWire

mutual

/-- The proper subsegments that have to be introduced to a receiver that knows the given segments,
each once and after its own children. What lies below a known segment is left alone. -/
def Segment.unknown (known : List Segment) : Segment → List Segment
  | .literal _ => []
  | .composition segments => segments.unknown known

def SegmentList.unknown (known : List Segment) : SegmentList → List Segment
  | .nil => []
  | .cons head tail =>
    if head ∈ known then tail.unknown known
    else
      let introduced := head.unknown known ++ [head]
      introduced ++ tail.unknown (known ++ introduced)

end

/-- The second segment is reached from the first through children that are not known. -/
inductive Segment.Uncovers (known : List Segment) : Segment → Segment → Prop
  | child {s c : Segment} : c ∈ s.children → c ∉ known → Uncovers known s c
  | step {s c t : Segment} : c ∈ s.children → c ∉ known → Uncovers known c t → Uncovers known s t

/-- Segments in an order in which they can be introduced: each is new and comes after its
children. -/
inductive Orderly (known : List Segment) : List Segment → Prop
  | nil : Orderly known []
  | concat {segments : List Segment} {s : Segment} : Orderly known segments →
      s ∉ known ++ segments → s.children ⊆ known ++ segments → Orderly known (segments ++ [s])

namespace Orderly

variable {known segments later : List Segment}

lemma append (h : Orderly known segments) (hlater : Orderly (known ++ segments) later) :
    Orderly known (segments ++ later) := by
  induction hlater with
  | nil => simpa using h
  | concat _ hnew hchildren ih =>
    rw [← List.append_assoc]
    exact .concat ih (by simpa using hnew) (by simpa using hchildren)

lemma notMem_known (h : Orderly known segments) {s : Segment} (hs : s ∈ segments) : s ∉ known := by
  induction h with
  | nil => simp at hs
  | @concat segments t _ hnew _ ih =>
    obtain hs | rfl := List.mem_append.mp hs |>.imp_right List.mem_singleton.mp
    · exact ih hs
    · exact fun hknown => hnew (List.mem_append_left _ hknown)

lemma nodup (h : Orderly known segments) : segments.Nodup := by
  induction h with
  | nil => exact List.nodup_nil
  | concat _ hnew _ ih =>
    rw [List.nodup_append]
    refine ⟨ih, List.nodup_cons.mpr (by simp), ?_⟩
    rintro a ha b hb rfl
    exact hnew (List.mem_append_right _ (List.mem_singleton.mp hb ▸ ha))

lemma children_subset (h : Orderly known segments) {s c : Segment} (hs : s ∈ segments)
    (hc : c ∈ s.children) : c ∈ known ++ segments := by
  induction h with
  | nil => simp at hs
  | @concat segments t _ _ hchildren ih =>
    rw [← List.append_assoc]
    obtain hs | rfl := List.mem_append.mp hs |>.imp_right List.mem_singleton.mp
    · exact List.mem_append_left _ (ih hs)
    · exact List.mem_append_left _ (hchildren hc)

end Orderly

namespace SegmentList

lemma unknown_cons_of_mem {known : List Segment} {head : Segment} (tail : SegmentList)
    (h : head ∈ known) : (cons head tail).unknown known = tail.unknown known := by
  rw [unknown, if_pos h]

lemma unknown_cons_of_notMem {known : List Segment} {head : Segment} (tail : SegmentList)
    (h : head ∉ known) : (cons head tail).unknown known =
      (head.unknown known ++ [head]) ++ tail.unknown (known ++ (head.unknown known ++ [head])) := by
  rw [unknown, if_neg h]

end SegmentList

mutual

/-- All that matters is which of the proper subsegments are known. -/
lemma Segment.unknown_congr (s : Segment) {known others : List Segment}
    (h : ∀ t ∈ s.properSubsegments, t ∈ known ↔ t ∈ others) :
    s.unknown known = s.unknown others := by
  match s with
  | .literal interfaces => rfl
  | .composition segments => exact segments.unknown_congr h

lemma SegmentList.unknown_congr (segments : SegmentList) {known others : List Segment}
    (h : ∀ t ∈ segments.subsegments, t ∈ known ↔ t ∈ others) :
    segments.unknown known = segments.unknown others := by
  match segments with
  | .nil => rfl
  | .cons head tail =>
    simp only [SegmentList.subsegments, List.forall_mem_append, List.forall_mem_cons] at h
    obtain ⟨hbelow, hhead, htail⟩ := h
    have hsame := head.unknown_congr hbelow
    by_cases hmem : head ∈ known
    · rw [tail.unknown_cons_of_mem hmem, tail.unknown_cons_of_mem (hhead.mp hmem),
        tail.unknown_congr htail]
    · rw [tail.unknown_cons_of_notMem hmem, tail.unknown_cons_of_notMem (mt hhead.mpr hmem), hsame]
      refine congrArg _ (tail.unknown_congr fun t ht => ?_)
      simp only [List.mem_append, htail t ht]

end

namespace Segment.Uncovers

variable {known others : List Segment} {s t : Segment}

lemma mem_properSubsegments (h : Uncovers known s t) : t ∈ s.properSubsegments := by
  induction h with
  | child hc _ => exact children_subset _ hc
  | step hc _ _ ih => exact properSubsegments_child_subset hc ih

lemma height_lt (h : Uncovers known s t) : t.height < s.height :=
  height_lt_of_mem h.mem_properSubsegments

/-- Who knows less needs more. -/
lemma mono (h : Uncovers others s t) (hsub : known ⊆ others) : Uncovers known s t := by
  induction h with
  | child hc hnew => exact .child hc fun hknown => hnew (hsub hknown)
  | step hc hnew _ ih => exact .step hc (fun hknown => hnew (hsub hknown)) ih

end Segment.Uncovers

/-- What was introduced is closed under unknown children, so a path of them cannot leave it. -/
lemma Orderly.mem_of_uncovers {known segments : List Segment} (h : Orderly known segments)
    {s t : Segment} (hchildren : s.children ⊆ known ++ segments)
    (hpath : Segment.Uncovers known s t) : t ∈ segments := by
  induction hpath with
  | child hc hnew => exact (List.mem_append.mp (hchildren hc)).resolve_left hnew
  | step hc hnew _ ih =>
    have hmem := (List.mem_append.mp (hchildren hc)).resolve_left hnew
    exact ih fun _ hd => h.children_subset hmem hd

mutual

lemma Segment.uncovers_of_mem_unknown (s : Segment) {known : List Segment} {t : Segment}
    (h : t ∈ s.unknown known) : Segment.Uncovers known s t := by
  match s with
  | .literal interfaces => simp [Segment.unknown] at h
  | .composition segments =>
    obtain ⟨c, hc, hnew, rfl | hbelow⟩ := segments.uncovers_of_mem_unknown h
    · exact .child hc hnew
    · exact .step hc hnew hbelow

lemma SegmentList.uncovers_of_mem_unknown (segments : SegmentList) {known : List Segment}
    {t : Segment} (h : t ∈ segments.unknown known) :
    ∃ c ∈ segments.toList, c ∉ known ∧ (t = c ∨ Segment.Uncovers known c t) := by
  match segments with
  | .nil => simp [SegmentList.unknown] at h
  | .cons head tail =>
    by_cases hmem : head ∈ known
    · rw [tail.unknown_cons_of_mem hmem] at h
      obtain ⟨c, hc, hfound⟩ := tail.uncovers_of_mem_unknown h
      exact ⟨c, List.mem_cons_of_mem _ hc, hfound⟩
    · rw [tail.unknown_cons_of_notMem hmem] at h
      obtain h | h := List.mem_append.mp h
      · refine ⟨head, List.mem_cons_self, hmem, ?_⟩
        obtain h | h := List.mem_append.mp h
        · exact .inr (head.uncovers_of_mem_unknown h)
        · exact .inl (List.mem_singleton.mp h)
      · obtain ⟨c, hc, hnew, hfound⟩ := tail.uncovers_of_mem_unknown h
        have hsub : known ⊆ known ++ (head.unknown known ++ [head]) := List.subset_append_left _ _
        refine ⟨c, List.mem_cons_of_mem _ hc, fun hknown => hnew (hsub hknown), ?_⟩
        exact hfound.imp_right fun hbelow => hbelow.mono hsub

end

/-- No segment is introduced for itself. -/
lemma Segment.notMem_known_unknown {known : List Segment} {s : Segment} (h : s ∉ known) :
    s ∉ known ++ s.unknown known := by
  intro hs
  obtain hs | hs := List.mem_append.mp hs
  · exact h hs
  · exact Nat.lt_irrefl _ (s.uncovers_of_mem_unknown hs).height_lt

mutual

/-- What a segment needs is introduced in order, and then all its children are known. -/
theorem Segment.unknown_spec (known : List Segment) (s : Segment) :
    Orderly known (s.unknown known) ∧ s.children ⊆ known ++ s.unknown known := by
  match s with
  | .literal interfaces => exact ⟨.nil, by simp⟩
  | .composition segments => exact segments.unknown_spec known

theorem SegmentList.unknown_spec (known : List Segment) (segments : SegmentList) :
    Orderly known (segments.unknown known) ∧ segments.toList ⊆ known ++ segments.unknown known := by
  match segments with
  | .nil => exact ⟨.nil, by simp⟩
  | .cons head tail =>
    by_cases hmem : head ∈ known
    · obtain ⟨horder, hsub⟩ := tail.unknown_spec known
      rw [tail.unknown_cons_of_mem hmem]
      exact ⟨horder, List.cons_subset.mpr ⟨List.mem_append_left _ hmem, hsub⟩⟩
    · obtain ⟨hhead, hchildren⟩ := head.unknown_spec known
      have hnew := Segment.notMem_known_unknown hmem
      obtain ⟨htail, hsub⟩ := tail.unknown_spec (known ++ (head.unknown known ++ [head]))
      rw [tail.unknown_cons_of_notMem hmem]
      refine ⟨(hhead.concat hnew hchildren).append htail, List.cons_subset.mpr ⟨by simp, ?_⟩⟩
      simpa using hsub

end

namespace Segment

lemma unknown_orderly (known : List Segment) (s : Segment) : Orderly known (s.unknown known) :=
  (s.unknown_spec known).1

lemma children_subset_known (known : List Segment) (s : Segment) :
    s.children ⊆ known ++ s.unknown known :=
  (s.unknown_spec known).2

/-- A segment is introduced exactly if a path of unknown children leads to it. -/
theorem mem_unknown_iff {known : List Segment} {s t : Segment} :
    t ∈ s.unknown known ↔ Uncovers known s t :=
  ⟨s.uncovers_of_mem_unknown,
    (s.unknown_orderly known).mem_of_uncovers (s.children_subset_known known)⟩

end Segment

end SegmentWire
