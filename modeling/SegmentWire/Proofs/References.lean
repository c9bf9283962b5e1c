import SegmentWire.Proofs.Grammar

/-!
# What a message refers to

A receiver looks up its cache only where a composition of the message refers to it. The
positions that are looked up stand in the bytes, so that they are known without a
receiver. Two caches of one size that hold the same segments at these positions cannot
be told apart by a message that decodes over one of them: what they hold elsewhere may
differ, and may be as tall as it likes.
-/
namespace SegmentWire

/-- The positions that the given number of records name, in the order of the bytes. -/
def recordReferences : Nat → Bytes → List UInt16
  | count + 1, flags :: length :: high :: low :: rest =>
    let kind := (RecordFlags.ofByte flags).kind
    let entries := length.toNat * kind.entryLength
    let options := (BigEndian.toU16 [high, low]).toNat
    (match kind with
      | .literal => []
      | .composition => readReferences (rest.take entries)) ++
      recordReferences count (rest.drop (entries + options))
  | _, _ => []

/-- The positions that a message to a receiver with `cached` segments names. -/
def references (cached : Nat) (bs : Bytes) : List UInt16 :=
  let header := Header.ofBytes bs
  recordReferences (header.total.toNat - cached) (bs.drop header.length.toNat)

/-- The positions stand in the entries of compositions. -/
theorem recordReferences_append (ws : List WireRecord) (rest : Bytes) :
    recordReferences ws.length (ws.flatMap WireRecord.toBytes ++ rest) =
      ws.flatMap fun w => w.payload.positions := by
  induction ws with
  | nil => rfl
  | cons w ws ih =>
    obtain ⟨length, high, low, hbytes, -, hentries, hoptions⟩ :=
      w.toBytes_append_eq (ws.flatMap WireRecord.toBytes ++ rest)
    have hdrop : (w.payload.toBytes ++ (w.options ++
        (ws.flatMap WireRecord.toBytes ++ rest))).drop
          (w.payload.toBytes.length + w.options.length) =
        ws.flatMap WireRecord.toBytes ++ rest := by
      rw [← List.append_assoc, List.drop_left' List.length_append]
    rw [List.flatMap_cons, List.append_assoc, hbytes, List.length_cons, recordReferences]
    simp only [hentries, hoptions]
    rw [List.take_left' rfl, hdrop, ih, List.flatMap_cons, w.kind_eq]
    congr 1
    cases w.payload with
    | interfaces hops => rfl
    | references positions => exact readReferences_flatMap positions

lemma Grammatical.references_eq {config : Config} {cache : List Segment} {bs : Bytes}
    {records : List WireRecord} {trailing : Bytes}
    (h : Grammatical config cache bs records trailing) :
    references cache.length bs = records.flatMap fun w => w.payload.positions := by
  rw [references, ← h.count_eq, h.bytes_eq, recordReferences_append]

/-- The options and the padding of a message name nothing. -/
example : references 0 Sample.untidyMessage = [0] := rfl

/-! ### Lists that agree where they are looked up -/

/-- Both lists hold the same at each of the positions. -/
def AgreeAt (positions : List UInt16) (known others : List Segment) : Prop :=
  ∀ p ∈ positions, others[p.toNat]? = known[p.toNat]?

namespace AgreeAt

variable {positions : List UInt16} {known others : List Segment}

/-- What is numbered from now on is the same for both. -/
lemma append (h : AgreeAt positions known others) (hlength : others.length = known.length)
    (more : List Segment) : AgreeAt positions (known ++ more) (others ++ more) := by
  intro p hp
  rw [List.getElem?_append, List.getElem?_append, hlength, h p hp]

lemma segment_eq {payload : Payload} (h : AgreeAt payload.positions known others) :
    payload.segment others = payload.segment known := by
  cases payload with
  | interfaces hops => rfl
  | references positions =>
    have hsame : ∀ p ∈ positions, others[p.toNat]? = known[p.toNat]? := h
    rw [Payload.segment, Payload.segment, List.filterMap_congr hsame]

end AgreeAt

/-- Records say the same over both lists. -/
theorem readings_congr {known others : List Segment} {ws : List WireRecord}
    (hlength : others.length = known.length)
    (h : AgreeAt (ws.flatMap fun w => w.payload.positions) known others) :
    readings others ws = readings known ws := by
  induction ws generalizing known others with
  | nil => rfl
  | cons w ws ih =>
    rw [List.flatMap_cons] at h
    have hfirst : AgreeAt w.payload.positions known others :=
      fun p hp => h p (List.mem_append_left _ hp)
    have hlater : AgreeAt (ws.flatMap fun w => w.payload.positions) known others :=
      fun p hp => h p (List.mem_append_right _ hp)
    rw [readings, readings, hfirst.segment_eq]
    rw [ih (by simp [hlength]) (hlater.append hlength _)]

/-- A message for one cache is a message for the other. -/
lemma Grammatical.congr {config : Config} {cache other : List Segment} {bs : Bytes}
    {records : List WireRecord} {trailing : Bytes}
    (h : Grammatical config cache bs records trailing) (hlength : other.length = cache.length)
    (hsame : AgreeAt (references cache.length bs) cache other) :
    Grammatical config other bs records trailing ∧
      readings other records = readings cache records := by
  rw [h.references_eq] at hsame
  have hreadings := readings_congr hlength hsame
  refine ⟨⟨h.size_ge, h.length_ge, h.length_le, ?_, ?_, h.bytes_eq, ?_, ?_, h.allowed⟩, hreadings⟩
  · rw [hlength]
    exact h.total_ge
  · rw [hlength]
    exact h.count_eq
  · rw [hlength]
    exact h.refersBack
  · rw [hreadings]
    exact h.height_le

lemma decode_of_agreeAt {config : Config} {cache other : List Segment} {bs : Bytes}
    {message : DecodedMessage} (h : decode config bs cache = .ok message)
    (hlength : other.length = cache.length)
    (hsame : AgreeAt (references cache.length bs) cache other) :
    decode config bs other = .ok message := by
  obtain ⟨records, trailing, hgrammatical, rfl⟩ := decode_iff_grammatical.mp h
  obtain ⟨hother, hreadings⟩ := hgrammatical.congr hlength hsame
  refine decode_iff_grammatical.mpr ⟨records, trailing, hother, ?_⟩
  rw [hreadings]

/-- What decodes over a cache decodes to the same over every cache of the same size that holds the
same segments where the message refers to the cache. Any segment may stand at a position that the
message does not name, however tall. -/
theorem decode_references {config : Config} {cache : List Segment} {bs : Bytes}
    {message : DecodedMessage} (h : decode config bs cache = .ok message) :
    (∀ other : List Segment, other.length = cache.length →
      (∀ p ∈ references cache.length bs, p.toNat < cache.length →
        other[p.toNat]? = cache[p.toNat]?) →
      decode config bs other = .ok message) ∧
    ∀ (i : Nat) (s : Segment), (∀ p ∈ references cache.length bs, p.toNat ≠ i) →
      decode config bs (cache.set i s) = .ok message := by
  constructor
  · intro other hlength hsame
    refine decode_of_agreeAt h hlength fun p hp => ?_
    by_cases hcached : p.toNat < cache.length
    · exact hsame p hp hcached
    · rw [List.getElem?_eq_none (by omega), List.getElem?_eq_none (by omega)]
  · intro i s hunnamed
    refine decode_of_agreeAt h List.length_set fun p hp => ?_
    rw [List.getElem?_set_ne (hunnamed p hp).symm]

/-- A message that wraps the second of two cached segments. The first may be far beyond the
limit. -/
theorem decode_references_tall :
    references 2 ((Header.standard 3 ⟨1⟩ ⟨2⟩).toBytes ++ [3, 1, 0, 0, 0, 1]) = [1] ∧
    decode {} ((Header.standard 3 ⟨1⟩ ⟨2⟩).toBytes ++ [3, 1, 0, 0, 0, 1])
      [Nat.repeat Segment.wrapper 100 (.literal []), Sample.literal 7 1] =
        .ok ⟨[(Sample.literal 7 1).wrapper], [(Sample.literal 7 1).wrapper], ⟨1⟩, ⟨2⟩⟩ ∧
    decode {} ((Header.standard 3 ⟨1⟩ ⟨2⟩).toBytes ++ [3, 1, 0, 0, 0, 1])
      [.composition .nil, Sample.literal 7 1] =
        .ok ⟨[(Sample.literal 7 1).wrapper], [(Sample.literal 7 1).wrapper], ⟨1⟩, ⟨2⟩⟩ := by
  have hdecode : decode {} ((Header.standard 3 ⟨1⟩ ⟨2⟩).toBytes ++ [3, 1, 0, 0, 0, 1])
      [.literal [], Sample.literal 7 1] =
        .ok ⟨[(Sample.literal 7 1).wrapper], [(Sample.literal 7 1).wrapper], ⟨1⟩, ⟨2⟩⟩ := rfl
  have hnamed : references 2 ((Header.standard 3 ⟨1⟩ ⟨2⟩).toBytes ++ [3, 1, 0, 0, 0, 1]) = [1] :=
    rfl
  obtain ⟨hother, hset⟩ := decode_references hdecode
  refine ⟨hnamed, hset 0 _ fun p hp => ?_, hother _ rfl fun p hp _ => ?_⟩
  · obtain rfl : p = 1 := List.mem_singleton.mp hp
    decide
  · obtain rfl : p = 1 := List.mem_singleton.mp hp
    rfl

end SegmentWire
