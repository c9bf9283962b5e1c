import SegmentWire.Message.SharedDecoding
import SegmentWire.Proofs.HeightGuards
import SegmentWire.Proofs.Results

/-!
# A cache of shared nodes is read as its segments

Asking a guard for the heights of cached nodes, and keeping those of the records, changes
nothing in what is read: decoding against nodes gives what decoding against the segments
gives that they stand for. Each step agrees with the plain one, because the heights that
are kept are true and none of them is beyond the limit.
-/
namespace SegmentWire

/-- A height that is known is true and within the limit. -/
def Measured.Within (limit : Nat) (measured : Measured) : Prop :=
  measured.height = measured.segment.height ∧ measured.height ≤ limit

/-- The height that is put together from those of the children is the height of the composition. -/
lemma Measured.foldr_height {limit : Nat} {children : List Measured}
    (h : ∀ c ∈ children, c.Within limit) :
    children.foldr (fun child height => max (child.height + 1) height) 0 =
      (Segment.ofSegments (children.map Measured.segment)).height := by
  induction children with
  | nil => rfl
  | cons child children ih =>
    rw [List.forall_mem_cons] at h
    rw [List.foldr_cons, ih h.2, h.1.1]
    rfl

namespace SharedIncoming

variable {memory : Memory} {config : Config} {inc : SharedIncoming} {plain : Incoming}

/-- The plain state numbers the segments of the cache and of the records, and what is known of them
is true. -/
structure Represents (memory : Memory) (config : Config) (cache : List Node)
    (inc : SharedIncoming) (plain : Incoming) : Prop where
  cache_eq : inc.cache.toList = cache
  cache_mem : ∀ node ∈ cache, node ∈ memory.nodes
  known_eq : plain.known.toList =
    cache.map Node.segment ++ inc.decoded.toList.map Measured.segment
  accepted_eq : inc.accepted = plain.accepted
  within : ∀ measured ∈ inc.decoded.toList, measured.Within config.maxDepth
  sound : inc.guard.Sound memory
  limit_eq : inc.guard.limit = config.maxDepth

namespace Represents

variable {cache : List Node}

lemma resolve (h : inc.Represents memory config cache plain) (position : UInt16) :
    Agree (fun found s => found.1.segment = s ∧ found.1.Within config.maxDepth ∧
        found.2.Represents memory config cache plain)
      (inc.resolve position) (plain.resolve config position) := by
  have hknown : plain.known[position.toNat]? = plain.known.toList[position.toNat]? := by simp
  have hcached : inc.cache[position.toNat]? = cache[position.toNat]? := by
    rw [← h.cache_eq, Array.getElem?_toList]
  have hsize : inc.cache.size = cache.length := by rw [← h.cache_eq, Array.length_toList]
  unfold SharedIncoming.resolve Incoming.resolve
  rw [hknown, h.known_eq, hcached, hsize]
  by_cases hlt : position.toNat < cache.length
  · have hmem := h.cache_mem _ (List.getElem_mem hlt)
    obtain ⟨guard, hguard, hsound, hlimit⟩ := HeightGuard.height_answers hmem h.sound
    rw [List.getElem?_append_left (by simpa using hlt), List.getElem?_map,
      List.getElem?_eq_getElem hlt]
    dsimp only [Option.map_some]
    rw [hguard, h.limit_eq, HeightGuard.answer]
    by_cases hle : cache[position.toNat].segment.height ≤ config.maxDepth
    · rw [if_pos hle, if_neg (Nat.not_lt.mpr hle)]
      exact .ok ⟨rfl, ⟨rfl, hle⟩, h.cache_eq, h.cache_mem, h.known_eq, h.accepted_eq, h.within,
        hsound, hlimit.trans h.limit_eq⟩
    · rw [if_neg hle, if_pos (Nat.lt_of_not_le hle)]
      exact .error _
  · have hnone : cache[position.toNat]? = none := List.getElem?_eq_none (Nat.not_lt.mp hlt)
    rw [hnone, List.getElem?_append_right (by simpa using hlt), List.length_map,
      List.getElem?_map, Array.getElem?_toList]
    cases hdecoded : inc.decoded[position.toNat - cache.length]? with
    | some measured =>
      have hmem : measured ∈ inc.decoded.toList :=
        List.mem_of_getElem? (by rwa [Array.getElem?_toList])
      obtain ⟨hheight, hle⟩ := h.within measured hmem
      dsimp only [Option.map_some]
      rw [if_neg (by omega)]
      exact .ok ⟨rfl, ⟨hheight, hle⟩, h⟩
    | none =>
      have hsum : plain.known.size = cache.length + inc.decoded.size := by
        rw [← Array.length_toList, h.known_eq]
        simp
      dsimp only [Option.map_none]
      rw [hsum]
      exact .error _

lemma resolveAll (h : inc.Represents memory config cache plain) (positions : List UInt16) :
    Agree (fun found children => found.1.map Measured.segment = children ∧
        (∀ c ∈ found.1, c.Within config.maxDepth) ∧ found.2.Represents memory config cache plain)
      (inc.resolveAll positions) (positions.mapM (plain.resolve config)) := by
  induction positions generalizing inc with
  | nil => exact .ok ⟨rfl, List.forall_mem_nil _, h⟩
  | cons position positions ih =>
    rw [SharedIncoming.resolveAll, List.mapM_cons]
    refine (h.resolve position).bind fun found child hfound => ?_
    obtain ⟨rfl, hchild, hafter⟩ := hfound
    refine (ih hafter).bind fun found children hfound => ?_
    obtain ⟨rfl, hchildren, hlast⟩ := hfound
    exact .ok ⟨rfl, List.forall_mem_cons.mpr ⟨hchild, hchildren⟩, hlast⟩

lemma compose (h : inc.Represents memory config cache plain) {children : List Measured}
    (hchildren : ∀ c ∈ children, c.Within config.maxDepth) :
    Agree (fun composition s => composition.segment = s ∧ composition.Within config.maxDepth)
      (inc.compose children)
      (let s := Segment.ofSegments (children.map Measured.segment)
       if config.maxDepth < s.height then .error (.nestingTooDeep config.maxDepth) else .ok s) := by
  unfold SharedIncoming.compose
  dsimp only
  rw [Measured.foldr_height hchildren, HeightGuard.refusal, h.limit_eq]
  split
  · exact .error _
  · exact .ok ⟨rfl, rfl, by dsimp only; omega⟩

lemma readSegment (h : inc.Represents memory config cache plain) (head : RecordHead)
    (cursor : Cursor) :
    Agree (fun found read => found.1.1.segment = read.1 ∧ found.1.1.Within config.maxDepth ∧
        found.1.2.Represents memory config cache plain ∧ found.2 = read.2)
      (inc.readSegment head cursor) (plain.readSegment config head cursor) := by
  unfold SharedIncoming.readSegment Incoming.readSegment
  refine (Agree.refl _).bind fun taken _ htaken => ?_
  subst htaken
  cases head.flags.kind with
  | literal =>
    refine (Agree.refl _).bind fun hops _ hhops => ?_
    subst hhops
    exact .ok ⟨rfl, ⟨rfl, Nat.zero_le _⟩, h, rfl⟩
  | composition =>
    refine (h.resolveAll _).bind fun found children hfound => ?_
    obtain ⟨rfl, hchildren, hafter⟩ := hfound
    have hplain : ∀ s : Segment, (if config.maxDepth < s.height then
          .error (.nestingTooDeep config.maxDepth) else .ok (s, taken.2) :
            Except CodecError (Segment × Cursor)) =
        (if config.maxDepth < s.height then .error (.nestingTooDeep config.maxDepth)
          else .ok s) >>= fun s => .ok (s, taken.2) := by
      intro s
      split <;> rfl
    dsimp only
    rw [hplain]
    refine (hafter.compose hchildren).bind fun composition s hcomposition => ?_
    exact .ok ⟨hcomposition.1, hcomposition.2, hafter, rfl⟩

lemma add (h : inc.Represents memory config cache plain) (flags : RecordFlags)
    {measured : Measured} (hwithin : measured.Within config.maxDepth) :
    (inc.add flags measured).Represents memory config cache (plain.add flags measured.segment) where
  cache_eq := h.cache_eq
  cache_mem := h.cache_mem
  known_eq := by simp [Incoming.add, SharedIncoming.add, h.known_eq]
  accepted_eq := by rw [Incoming.add, SharedIncoming.add, h.accepted_eq]
  within := by
    simp only [SharedIncoming.add, Array.toList_push, List.forall_mem_append,
      List.forall_mem_singleton]
    exact ⟨h.within, hwithin⟩
  sound := h.sound
  limit_eq := h.limit_eq

lemma readRecord (h : inc.Represents memory config cache plain) (cursor : Cursor) :
    Agree (fun found read => found.1.Represents memory config cache read.1 ∧ found.2 = read.2)
      (inc.readRecord cursor) (plain.readRecord config cursor) := by
  unfold SharedIncoming.readRecord Incoming.readRecord
  refine (Agree.refl _).bind fun head _ hhead => ?_
  subst hhead
  refine (h.readSegment head.1 head.2).bind fun found read hfound => ?_
  obtain ⟨hsegment, hwithin, hafter, hcursor⟩ := hfound
  dsimp only
  rw [hcursor, ← hsegment]
  refine (Agree.refl _).bind fun taken _ htaken => ?_
  subst htaken
  exact .ok ⟨hafter.add head.1.flags hwithin, rfl⟩

lemma readRecords (h : inc.Represents memory config cache plain) (n : Nat) (cursor : Cursor) :
    Agree (fun found read => found.1.Represents memory config cache read.1 ∧ found.2 = read.2)
      (SharedIncoming.readRecords n inc cursor)
      (Incoming.readRecords config n plain cursor) := by
  induction n generalizing inc plain cursor with
  | zero => exact .ok ⟨h, rfl⟩
  | succ n ih =>
    have hplain : Incoming.readRecords config (n + 1) plain cursor =
        plain.readRecord config cursor >>= fun read =>
          Incoming.readRecords config n read.1 read.2 := by
      rw [Incoming.readRecords]
      cases plain.readRecord config cursor <;> rfl
    rw [hplain, SharedIncoming.readRecords]
    refine (h.readRecord cursor).bind fun found read hfound => ?_
    obtain ⟨hafter, hcursor⟩ := hfound
    rw [← hcursor]
    exact ih hafter found.2

end Represents

end SharedIncoming

/-- Decoding against nodes gives the message or the error of the segments that they stand for. -/
theorem decodeNodes_eq {memory : Memory} (config : Config) (bs : Bytes) {cache : List Node}
    (hcache : ∀ node ∈ cache, node ∈ memory.nodes) :
    decodeNodes config bs cache = decode config bs (cache.map Node.segment) := by
  refine Agree.eq ?_
  unfold decodeNodes decode
  refine (Agree.refl _).bind fun header _ hheader => ?_
  subst hheader
  have hstart : SharedIncoming.Represents memory config cache
      ⟨cache.toArray, #[], #[], .start config.maxDepth⟩ ⟨(cache.map Node.segment).toArray, #[]⟩ :=
    ⟨rfl, hcache, by simp, rfl, by simp, .start memory config.maxDepth, rfl⟩
  rw [List.length_map]
  by_cases hbelow : header.total.toNat < cache.length
  · rw [if_pos hbelow, if_pos hbelow]
    exact .error _
  · rw [if_neg hbelow, if_neg hbelow]
    refine (hstart.readRecords _ _).bind fun found read hfound => ?_
    obtain ⟨hlast, hcursor⟩ := hfound
    dsimp only
    rw [hcursor]
    split
    · exact .error _
    · refine .ok ?_
      rw [hlast.known_eq, hlast.accepted_eq, List.drop_left' (List.length_map _)]

end SegmentWire
