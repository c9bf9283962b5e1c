import SegmentWire.Proofs.Assembly
import SegmentWire.Proofs.Encoding
import SegmentWire.Sample

/-!
# Messages are for caches of one size

Each record announces its own length, so that a sequence of records is taken apart
in one way only, whatever the receiver holds. The header counts the cache and the
records together. A receiver with a smaller cache would need records that are not
there, one with a larger cache would leave records over.
-/
namespace SegmentWire

/-! ### Records delimit themselves -/

lemma Payload.toBytes_inj {p q : Payload} (hkind : p.kind = q.kind) (hcount : p.count = q.count)
    (h : p.toBytes = q.toBytes) : p = q := by
  cases p with
  | interfaces hops =>
    cases q with
    | interfaces others =>
      have hlength : hops.length = others.length := hcount
      have hbytes : PathInterface.encodeList hops = PathInterface.encodeList others := h
      have hread := PathInterface.ofChunks_encodeList others []
      rw [← hlength, ← hbytes, PathInterface.ofChunks_encodeList] at hread
      rw [hread]
    | references positions => cases hkind
  | references positions =>
    cases q with
    | interfaces hops => cases hkind
    | references others =>
      have hbytes : positions.flatMap BigEndian.u16 = others.flatMap BigEndian.u16 := h
      have hread := readReferences_flatMap others
      rw [← hbytes, readReferences_flatMap] at hread
      rw [hread]

namespace WireRecord

/-- A record is known from the start of any bytes that begin with it. -/
theorem toBytes_append_inj {w v : WireRecord} {rest later : Bytes}
    (h : w.toBytes ++ rest = v.toBytes ++ later) : w = v ∧ rest = later := by
  obtain ⟨flags, payload, options, hkind, hcount, hoptions⟩ := w
  obtain ⟨flags', payload', options', hkind', hcount', hoptions'⟩ := v
  simp only [toBytes, List.cons_append, List.append_assoc, List.cons.injEq] at h
  obtain ⟨rfl, hcountByte, h⟩ := h
  have hsameCount : payload.count = payload'.count := by
    have hvalue := congrArg UInt8.toNat hcountByte
    rwa [UInt8.toNat_ofNat_of_lt' (Nat.lt_of_le_of_lt hcount (by decide)),
      UInt8.toNat_ofNat_of_lt' (Nat.lt_of_le_of_lt hcount' (by decide))] at hvalue
  have hsameKind : payload.kind = payload'.kind := hkind.symm.trans hkind'
  obtain ⟨hlengthBytes, h⟩ := List.append_inj h (by simp)
  have hsameOptions : options.length = options'.length := by
    have hword := congrArg BigEndian.toU16 hlengthBytes
    rw [BigEndian.toU16_u16, BigEndian.toU16_u16] at hword
    have hvalue := congrArg UInt16.toNat hword
    rwa [UInt16.toNat_ofNat_of_lt' (Nat.lt_of_le_of_lt hoptions (by decide)),
      UInt16.toNat_ofNat_of_lt' (Nat.lt_of_le_of_lt hoptions' (by decide))] at hvalue
  obtain ⟨hpayload, h⟩ := List.append_inj h (by
    rw [Payload.length_toBytes, Payload.length_toBytes, hsameCount, hsameKind])
  obtain ⟨rfl, hrest⟩ := List.append_inj h hsameOptions
  obtain rfl := Payload.toBytes_inj hsameKind hsameCount hpayload
  exact ⟨rfl, hrest⟩

lemma toBytes_ne_nil (w : WireRecord) : w.toBytes ≠ [] := by
  simp [toBytes]

lemma flatMap_toBytes_eq_nil {ws : List WireRecord} (h : ws.flatMap toBytes = []) : ws = [] := by
  cases ws with
  | nil => rfl
  | cons w ws =>
    rw [List.flatMap_cons, List.append_eq_nil_iff] at h
    exact absurd h.1 w.toBytes_ne_nil

/-- Of two ways to read the same bytes as records, the one with fewer records is the start of the
other. -/
theorem flatMap_toBytes_append_inj {ws vs : List WireRecord} {rest later : Bytes}
    (h : ws.flatMap toBytes ++ rest = vs.flatMap toBytes ++ later) (hle : ws.length ≤ vs.length) :
    ∃ more, vs = ws ++ more ∧ rest = more.flatMap toBytes ++ later := by
  induction ws generalizing vs with
  | nil => exact ⟨vs, rfl, h⟩
  | cons w ws ih =>
    match vs with
    | [] => simp at hle
    | v :: vs =>
      rw [List.flatMap_cons, List.flatMap_cons, List.append_assoc, List.append_assoc] at h
      obtain ⟨rfl, htail⟩ := toBytes_append_inj h
      obtain ⟨more, rfl, hrest⟩ := ih htail (Nat.le_of_succ_le_succ hle)
      exact ⟨more, rfl, hrest⟩

end WireRecord

/-! ### The size of the cache -/

/-- Without trailing bytes, a message for a cache is no message for a smaller one. -/
lemma Layout.cache_length_le {config config' : Config} {cache other : List Segment} {bs : Bytes}
    (layout : Layout config cache bs) (complete : layout.trailing = [])
    (layout' : Layout config' other bs) : cache.length ≤ other.length := by
  have hheader : layout.header = layout'.header := by
    have hparse := layout'.parse_eq
    rw [layout.parse_eq] at hparse
    exact Except.ok.inj hparse
  have htotal := layout.total_eq
  have htotal' := layout'.total_eq
  have hbytes := layout.bytes_eq
  rw [hheader] at htotal hbytes
  by_contra hlt
  have hfewer : layout.records.length < layout'.records.length := by omega
  obtain ⟨more, hrecords, hrest⟩ := WireRecord.flatMap_toBytes_append_inj
    (hbytes.symm.trans layout'.bytes_eq) (Nat.le_of_lt hfewer)
  -- Nothing is left for the records that the smaller cache asks for.
  have hnone : more.flatMap WireRecord.toBytes ++ layout'.trailing = [] :=
    hrest.symm.trans complete
  have hmore : more = [] :=
    WireRecord.flatMap_toBytes_eq_nil (List.append_eq_nil_iff.mp hnone).1
  rw [hrecords, hmore, List.append_nil] at hfewer
  exact Nat.lt_irrefl _ hfewer

/-- Receivers that hold fewer segments refuse the bytes, and so do those that hold more and forbid
trailing bytes. -/
def RefusedUnlessCached (count : Nat) (bs : Bytes) : Prop :=
  ∀ (config : Config) (other : List Segment),
    (other.length < count → ∃ e, decode config bs other = .error e) ∧
    (count < other.length → config.allowTrailing = false → ∃ e, decode config bs other = .error e)

lemma Layout.refusedUnlessCached {config : Config} {cache : List Segment} {bs : Bytes}
    (layout : Layout config cache bs) (complete : layout.trailing = []) :
    RefusedUnlessCached cache.length bs := by
  intro config' other
  cases h : decode config' bs other with
  | error e => exact ⟨fun _ => ⟨e, rfl⟩, fun _ _ => ⟨e, rfl⟩⟩
  | ok message =>
    obtain ⟨layout', -⟩ := decode_eq_ok_iff.mp h
    constructor
    · intro hlt
      have hle : cache.length ≤ other.length := layout.cache_length_le complete layout'
      omega
    · intro hlt complete'
      have hle : other.length ≤ cache.length :=
        layout'.cache_length_le (layout'.trailing_eq_nil complete') layout
      omega

lemma decode_refusedUnlessCached {config : Config} {cache : List Segment} {bs : Bytes}
    {message : DecodedMessage} (complete : config.allowTrailing = false)
    (h : decode config bs cache = .ok message) : RefusedUnlessCached cache.length bs := by
  obtain ⟨layout, -⟩ := decode_eq_ok_iff.mp h
  exact layout.refusedUnlessCached (layout.trailing_eq_nil complete)

lemma RefusedUnlessCached.length_eq {config : Config} {other : List Segment} {bs : Bytes}
    {message : DecodedMessage} {count : Nat} (hrefused : RefusedUnlessCached count bs)
    (complete : config.allowTrailing = false) (h : decode config bs other = .ok message) :
    count = other.length := by
  obtain ⟨hsmaller, hlarger⟩ := hrefused config other
  obtain hlt | heq | hlt := Nat.lt_trichotomy count other.length
  · obtain ⟨e, herror⟩ := hlarger hlt complete
    rw [h] at herror
    cases herror
  · exact heq
  · obtain ⟨e, herror⟩ := hsmaller hlt
    rw [h] at herror
    cases herror

/-- A message that decodes without trailing bytes is refused by every receiver whose cache has
another size: by one with a smaller cache in any case, by one with a larger cache if it forbids
trailing bytes. So is every message that is encoded, even if fingerprints collide. -/
theorem decode_pins_cache_length :
    (∀ {config : Config} {cache : List Segment} {bs : Bytes} {message : DecodedMessage},
      config.allowTrailing = false → decode config bs cache = .ok message →
      RefusedUnlessCached cache.length bs) ∧
    (∀ {config : Config} {cache segments : List Segment} {source destination : IsdAsn}
        {message : EncodedMessage},
      encode config cache segments source destination = .ok message →
      RefusedUnlessCached cache.length message.bytes) ∧
    ∀ {config config' : Config} {cache other : List Segment} {bs : Bytes}
        {message message' : DecodedMessage},
      config.allowTrailing = false → config'.allowTrailing = false →
      decode config bs cache = .ok message → decode config' bs other = .ok message' →
      cache.length = other.length := by
  refine ⟨fun complete h => decode_refusedUnlessCached complete h, ?_, ?_⟩
  · intro config cache segments source destination message h
    obtain ⟨layout, hnone⟩ := encode_layout h config
    exact layout.refusedUnlessCached hnone
  · intro config config' cache other bs message message' complete complete' h h'
    exact (decode_refusedUnlessCached complete h).length_eq complete' h'

/-- A record that refers to the first position is read over one cached segment, whichever it is, but
not over an empty cache. A tree that is encoded over one leaf is not read over two. -/
theorem decode_pins_cache_length_one :
    (∃ e, decode { maxDepth := 1000 }
      ((Header.standard 2 ⟨1⟩ ⟨2⟩).toBytes ++ [3, 1, 0, 0, 0, 0]) [] = .error e) ∧
    (∃ message, encode {} [Sample.literal 4 4] [Sample.tree 1 2] ⟨1⟩ ⟨2⟩ = .ok message ∧
      ∃ e, decode { allowTrailing := false } message.bytes
        [Sample.literal 4 4, Sample.literal 8 4] = .error e) ∧
    [Segment.literal []].length = [Segment.composition .nil].length := by
  have hliteral : decode { allowTrailing := false }
      ((Header.standard 2 ⟨1⟩ ⟨2⟩).toBytes ++ [3, 1, 0, 0, 0, 0]) [.literal []] =
        .ok ⟨[(Segment.literal []).wrapper], [(Segment.literal []).wrapper], ⟨1⟩, ⟨2⟩⟩ := rfl
  have hcomposition : decode { allowTrailing := false }
      ((Header.standard 2 ⟨1⟩ ⟨2⟩).toBytes ++ [3, 1, 0, 0, 0, 0]) [.composition .nil] =
        .ok ⟨[(Segment.composition .nil).wrapper], [(Segment.composition .nil).wrapper],
          ⟨1⟩, ⟨2⟩⟩ := rfl
  have distinct : CollisionFree (involved [Sample.literal 4 4] [Sample.tree 1 2]) := by
    decide +kernel
  have hfits : Fits {} [Sample.literal 4 4] (notices [Sample.literal 4 4] [Sample.tree 1 2]) := by
    decide +kernel
  have hencode := (encode_eq_ok_iff {} distinct ⟨1⟩ ⟨2⟩ _).mpr ⟨hfits, rfl⟩
  refine ⟨?_, ⟨_, hencode, ?_⟩, ?_⟩
  · exact (decode_pins_cache_length.1 rfl hliteral { maxDepth := 1000 } []).1 (by decide)
  · exact (decode_pins_cache_length.2.1 hencode { allowTrailing := false } _).2
      (by decide) rfl
  · exact decode_pins_cache_length.2.2 rfl rfl hliteral hcomposition

/-- If trailing bytes are allowed, a larger cache may leave the records unread. -/
example (s : Segment) :
    decode {} ((Header.standard 1 ⟨1⟩ ⟨2⟩).toBytes ++ [2, 0, 0, 0]) [s] = .ok ⟨[], [], ⟨1⟩, ⟨2⟩⟩ :=
  rfl

end SegmentWire
