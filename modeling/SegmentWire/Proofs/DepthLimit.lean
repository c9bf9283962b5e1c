import SegmentWire.Proofs.Grammar

/-!
# The depth limit of a receiver

What a message stands for does not depend on the depth limit. The limit only decides
whether the receiver builds it: all segments that are built have to keep to it, and
if one does not, the receiver stops there and names the limit. A composition is
taller than each of its children, so it makes no difference that the children are
held against the limit before the composition itself is.
-/
namespace SegmentWire

/-! ### Results under the limit -/

/-- A result that segments have been built for, if they keep to the depth limit. -/
def Config.limited {α : Type} (config : Config) (segments : List Segment) (x : α) :
    Except CodecError α :=
  if ∀ s ∈ segments, s.height ≤ config.maxDepth then .ok x
  else .error (.nestingTooDeep config.maxDepth)

section Limited

variable {α β : Type} {config : Config} {segments others : List Segment}

lemma limited_nil (x : α) : config.limited [] x = .ok x :=
  if_pos (List.forall_mem_nil _)

lemma limited_bind {x : α} {f : α → Except CodecError β} {y : β}
    (h : f x = config.limited others y) :
    (config.limited segments x >>= f) = config.limited (segments ++ others) y := by
  unfold Config.limited at h ⊢
  simp only [List.forall_mem_append]
  by_cases hfirst : ∀ s ∈ segments, s.height ≤ config.maxDepth
  · simp only [if_pos hfirst, and_iff_right hfirst, ok_bind, h]
  · rw [if_neg hfirst, if_neg fun hall => hfirst hall.1, error_bind]

lemma limited_bind_ok {x : α} {f : α → Except CodecError β} {y : β} (h : f x = .ok y) :
    (config.limited segments x >>= f) = config.limited segments y := by
  rw [limited_bind (h.trans (limited_nil y).symm), List.append_nil]

lemma limited_congr {x : α} (h : (∀ s ∈ segments, s.height ≤ config.maxDepth) ↔
    ∀ s ∈ others, s.height ≤ config.maxDepth) :
    config.limited segments x = config.limited others x := by
  simp only [Config.limited, h]

lemma limited_singleton (s : Segment) (x : α) :
    config.limited [s] x =
      if config.maxDepth < s.height then .error (.nestingTooDeep config.maxDepth) else .ok x := by
  unfold Config.limited
  by_cases hdeep : config.maxDepth < s.height
  · rw [if_pos hdeep, if_neg (by simpa using hdeep)]
  · rw [if_neg hdeep, if_pos (by simpa using hdeep)]

end Limited

namespace Incoming

variable {config : Config} {inc : Incoming}

/-- A reference to a known segment fails only because of the limit. -/
lemma resolve_eq_limited {p : UInt16} {s : Segment} (h : inc.known.toList[p.toNat]? = some s) :
    inc.resolve config p = config.limited [s] s := by
  rw [Array.getElem?_toList] at h
  rw [limited_singleton, resolve, h]

lemma mapM_resolve_eq_limited {positions : List UInt16}
    (h : ∀ p ∈ positions, p.toNat < inc.known.toList.length) :
    positions.mapM (inc.resolve config) =
      config.limited (positions.filterMap fun p => inc.known.toList[p.toNat]?)
        (positions.filterMap fun p => inc.known.toList[p.toNat]?) := by
  induction positions with
  | nil => rw [List.filterMap_nil, limited_nil, List.mapM_nil]; rfl
  | cons p positions ih =>
    obtain ⟨hp, hpositions⟩ := List.forall_mem_cons.mp h
    have hs : inc.known.toList[p.toNat]? = some inc.known.toList[p.toNat] :=
      List.getElem?_eq_getElem hp
    have hchildren : (p :: positions).filterMap (fun p => inc.known.toList[p.toNat]?) =
        [inc.known.toList[p.toNat]] ++ positions.filterMap fun p => inc.known.toList[p.toNat]? :=
      List.filterMap_cons_some hs
    rw [List.mapM_cons, resolve_eq_limited hs, hchildren, ih hpositions]
    exact limited_bind (limited_bind_ok rfl)

/-- Entries that refer to what is numbered fail only because of the limit. -/
lemma denote_eq_limited {payload : Payload}
    (h : ∀ p ∈ payload.positions, p.toNat < inc.known.toList.length) :
    inc.denote config payload =
      config.limited [payload.segment inc.known.toList] (payload.segment inc.known.toList) := by
  cases payload with
  | interfaces hops => rfl
  | references positions =>
    have hrange : ∀ p ∈ positions, p.toNat < inc.known.toList.length := h
    rw [denote, mapM_resolve_eq_limited hrange, Payload.segment]
    generalize positions.filterMap (fun p => inc.known.toList[p.toNat]?) = children
    have hbuilt :
        config.limited (children ++ [.ofSegments children]) (Segment.ofSegments children) =
          config.limited [.ofSegments children] (.ofSegments children) := by
      refine limited_congr ?_
      rw [List.forall_mem_append, List.forall_mem_singleton, and_iff_right_iff_imp]
      intro hheight c hc
      have hlower : c.height < (Segment.ofSegments children).height :=
        Segment.height_child_lt (by simpa using hc)
      omega
    rw [← hbuilt]
    refine limited_bind ?_
    exact (limited_singleton _ _).symm

/-- Records that refer back fail only because of the limit. -/
theorem denoteAll_eq_limited (config : Config) {cache : List Segment} {received : List Receipt}
    {ws : List WireRecord} (h : RefersBack (cache.length + received.length) ws) :
    (ofReceipts cache received).denoteAll config ws =
      config.limited ((readings (cache ++ received.map Receipt.segment) ws).map Receipt.segment)
        (ofReceipts cache (received ++ readings (cache ++ received.map Receipt.segment) ws)) := by
  induction ws generalizing received with
  | nil => rw [denoteAll, readings, List.map_nil, limited_nil, List.append_nil]
  | cons w ws ih =>
    obtain ⟨hw, hws⟩ := refersBack_cons.mp h
    have hknown : (ofReceipts cache received).known.toList =
        cache ++ received.map Receipt.segment := rfl
    have hrange : ∀ p ∈ w.payload.positions,
        p.toNat < (ofReceipts cache received).known.toList.length := by
      simpa [hknown] using hw
    rw [denoteAll, denote_eq_limited hrange, hknown, readings, List.map_cons,
      ← List.singleton_append]
    refine limited_bind ?_
    rw [add_ofReceipts, ih (by simpa [Nat.add_assoc] using hws)]
    simp [WireRecord.accepted]

lemma denoteAll_ofCache_eq_limited (config : Config) {cache : List Segment}
    {ws : List WireRecord} (h : RefersBack cache.length ws) :
    (ofCache cache).denoteAll config ws =
      config.limited ((readings cache ws).map Receipt.segment)
        (ofReceipts cache (readings cache ws)) := by
  have hback : RefersBack (cache.length + ([] : List Receipt).length) ws := h
  rw [ofCache_eq_ofReceipts, denoteAll_eq_limited config hback]
  simp

end Incoming

/-! ### Decoding under another limit -/

/-- The limit plays no part in how a message is laid out. -/
def Layout.withDepth {config : Config} {cache : List Segment} {bs : Bytes}
    (layout : Layout config cache bs) (depth : Nat) :
    Layout { config with maxDepth := depth } cache bs :=
  ⟨layout.header, layout.records, layout.trailing, layout.parse_eq, layout.total_eq,
    layout.bytes_eq, layout.allowed⟩

/-- Under another limit, a message that decodes still decodes to the same or fails because of the
limit. -/
lemma decode_eq_limited {config : Config} {cache : List Segment} {bs : Bytes}
    {message : DecodedMessage} (h : decode config bs cache = .ok message) (depth : Nat) :
    decode { config with maxDepth := depth } bs cache =
      Config.limited { config with maxDepth := depth } message.newSegments message := by
  obtain ⟨layout, inc, hdenote, rfl⟩ := decode_eq_ok_iff.mp h
  obtain ⟨hgrammatical, rfl⟩ := layout.grammatical hdenote
  have hback : RefersBack cache.length (layout.withDepth depth).records := hgrammatical.refersBack
  have hnew : (DecodedMessage.ofIncoming layout.header cache
      (.ofReceipts cache (readings cache layout.records))).newSegments =
        (readings cache layout.records).map Receipt.segment := by
    simp [DecodedMessage.ofIncoming, Incoming.ofReceipts]
  rw [decode_of_layout (layout.withDepth depth), Incoming.denoteAll_ofCache_eq_limited _ hback,
    hnew]
  exact limited_bind_ok rfl

/-- No segment of a message is taller than the limit under which it decodes. Under another limit the
message decodes to the same, however the limits compare, as long as none of its segments is taller;
otherwise that limit is named. -/
theorem decode_depth_limit {config : Config} {cache : List Segment} {bs : Bytes}
    {message : DecodedMessage} (h : decode config bs cache = .ok message) :
    (∀ s ∈ message.newSegments, s.height ≤ config.maxDepth) ∧
    (∀ depth, (∀ s ∈ message.newSegments, s.height ≤ depth) →
      decode { config with maxDepth := depth } bs cache = .ok message) ∧
    (∀ depth, ¬ (∀ s ∈ message.newSegments, s.height ≤ depth) →
      decode { config with maxDepth := depth } bs cache = .error (.nestingTooDeep depth)) ∧
    ∀ depth, config.maxDepth ≤ depth →
      decode { config with maxDepth := depth } bs cache = .ok message := by
  have hheights : ∀ s ∈ message.newSegments, s.height ≤ config.maxDepth := by
    have hsame := decode_eq_limited h config.maxDepth
    rw [h, Config.limited] at hsame
    by_contra hdeep
    rw [if_neg hdeep] at hsame
    cases hsame
  have hkeep : ∀ depth, (∀ s ∈ message.newSegments, s.height ≤ depth) →
      decode { config with maxDepth := depth } bs cache = .ok message := by
    intro depth hdepth
    rw [decode_eq_limited h depth, Config.limited, if_pos hdepth]
  refine ⟨hheights, hkeep, ?_, ?_⟩
  · intro depth hdeep
    rw [decode_eq_limited h depth, Config.limited, if_neg hdeep]
  · intro depth hdepth
    exact hkeep depth fun s hs => Nat.le_trans (hheights s hs) hdepth

/-- A wrapper is cached, and the message wraps it once more. The levels below the reference count,
so that the limit has to be two. -/
theorem decode_depth_limit_wrapper :
    decode { maxDepth := 1 } ((Header.standard 2 ⟨1⟩ ⟨2⟩).toBytes ++ [3, 1, 0, 0, 0, 0])
      [(Segment.literal []).wrapper] = .error (.nestingTooDeep 1) ∧
    decode { maxDepth := 2 } ((Header.standard 2 ⟨1⟩ ⟨2⟩).toBytes ++ [3, 1, 0, 0, 0, 0])
      [(Segment.literal []).wrapper] =
        .ok ⟨[(Segment.literal []).wrapper.wrapper], [(Segment.literal []).wrapper.wrapper],
          ⟨1⟩, ⟨2⟩⟩ := by
  have hdecode : decode {} ((Header.standard 2 ⟨1⟩ ⟨2⟩).toBytes ++ [3, 1, 0, 0, 0, 0])
      [(Segment.literal []).wrapper] =
        .ok ⟨[(Segment.literal []).wrapper.wrapper], [(Segment.literal []).wrapper.wrapper],
          ⟨1⟩, ⟨2⟩⟩ := rfl
  obtain ⟨-, hkeep, hrefuse, -⟩ := decode_depth_limit hdecode
  constructor
  · exact hrefuse 1 (by simp)
  · exact hkeep 2 (by simp)

/-- A composition without children has no levels. -/
example :
    decode { maxDepth := 0 } ((Header.standard 1 ⟨1⟩ ⟨2⟩).toBytes ++ [3, 0, 0, 0]) [] =
      .ok ⟨[.composition .nil], [.composition .nil], ⟨1⟩, ⟨2⟩⟩ :=
  rfl

end SegmentWire
