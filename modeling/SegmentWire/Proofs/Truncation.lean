import SegmentWire.Proofs.Grammar

/-!
# Bytes that are missing and bytes that follow

A message takes up its header and its records with their options. Bytes that follow
are not looked at, only counted if they are forbidden. All readers go through the
bytes in order, so that bytes that follow make a difference only to a reader that
runs out of bytes without them. Such a reader calls the message malformed, wherever
the message is cut.
-/
namespace SegmentWire

variable {α β : Type}

/-- The bytes are refused because they are malformed. -/
def IsMalformed (result : Except CodecError α) : Prop :=
  ∃ cause, result = .error (.malformed cause)

lemma IsMalformed.bind {x : Except CodecError α} (h : IsMalformed x)
    (f : α → Except CodecError β) : IsMalformed (x >>= f) := by
  obtain ⟨cause, rfl⟩ := h
  exact ⟨cause, rfl⟩

/-! ### Readers that go through the bytes in order -/

/-- The same place, with more bytes at the end. -/
def Cursor.extend (cursor : Cursor) (more : Bytes) : Cursor :=
  ⟨cursor.offset, cursor.rest ++ more⟩

/-- More bytes make no difference to the reader, unless it finds the bytes malformed without
them. -/
def Sequential (read : Cursor → Except CodecError (α × Cursor)) : Prop :=
  ∀ cursor more, IsMalformed (read cursor) ∨
    read (cursor.extend more) = read cursor >>= fun result => .ok (result.1, result.2.extend more)

namespace Sequential

lemma ok (a : α) : Sequential fun cursor => .ok (a, cursor) :=
  fun _ _ => .inr rfl

lemma error (e : CodecError) :
    Sequential (fun _ => .error e : Cursor → Except CodecError (α × Cursor)) :=
  fun _ _ => .inr rfl

/-- A step without bytes may come first. -/
lemma after (x : Except CodecError β) {next : β → Cursor → Except CodecError (α × Cursor)}
    (hnext : ∀ b, Sequential (next b)) : Sequential fun cursor => x >>= fun b => next b cursor := by
  cases x with
  | error e => exact error e
  | ok b => exact hnext b

lemma bind {read : Cursor → Except CodecError (β × Cursor)}
    {next : β × Cursor → Except CodecError (α × Cursor)} (hread : Sequential read)
    (hnext : ∀ b, Sequential fun cursor => next (b, cursor)) :
    Sequential fun cursor => read cursor >>= next := by
  intro cursor more
  obtain hmalformed | hextend := hread cursor more
  · exact .inl (hmalformed.bind next)
  · simp only [hextend]
    cases read cursor with
    | error e => exact .inr rfl
    | ok result => exact hnext result.1 result.2 more

end Sequential

lemma Cursor.sequential_take (n : Nat) : Sequential fun cursor => cursor.take n := by
  intro cursor more
  by_cases hlength : (cursor.rest.take n).length = n
  · right
    have hread : cursor.take n =
        .ok (cursor.rest.take n, ⟨cursor.offset + n, cursor.rest.drop n⟩) := if_pos hlength
    simp only [hread, ok_bind]
    refine take_eq_ok_iff.mpr ⟨hlength, ?_, rfl⟩
    show cursor.rest ++ more = cursor.rest.take n ++ (cursor.rest.drop n ++ more)
    rw [← List.append_assoc, List.take_append_drop]
  · left
    exact ⟨_, if_neg hlength⟩

lemma RecordHead.sequential_read : Sequential read :=
  (Cursor.sequential_take 1).bind fun _ => (Cursor.sequential_take 1).bind fun _ =>
    (Cursor.sequential_take 2).bind fun _ => .ok _

namespace Incoming

variable (config : Config) (inc : Incoming)

lemma sequential_readSegment (head : RecordHead) : Sequential (inc.readSegment config head) := by
  refine (Cursor.sequential_take _).bind fun payload => ?_
  cases head.flags.kind with
  | literal => exact .after _ fun interfaces => .ok _
  | composition =>
    refine .after _ fun children => ?_
    by_cases hdeep : config.maxDepth < (Segment.ofSegments children).height
    · simp only [if_pos hdeep]
      exact .error _
    · simp only [if_neg hdeep]
      exact .ok _

lemma sequential_readRecord : Sequential (inc.readRecord config) :=
  RecordHead.sequential_read.bind fun head =>
    (sequential_readSegment config inc head).bind fun _ =>
      (Cursor.sequential_take head.optionLength).bind fun _ => .ok _

theorem sequential_readRecords (count : Nat) : Sequential (readRecords config count inc) := by
  induction count generalizing inc with
  | zero => exact .ok inc
  | succ count ih =>
    have hstep : readRecords config (count + 1) inc = fun cursor =>
        inc.readRecord config cursor >>= fun result =>
          readRecords config count result.1 result.2 := by
      funext cursor
      rw [readRecords]
      cases inc.readRecord config cursor with
      | error e => rfl
      | ok result => rfl
    rw [hstep]
    exact (sequential_readRecord config inc).bind ih

/-- Trailing bytes have no part in what records stand for. -/
lemma denoteAll_allowTrailing (allowed : Bool) (ws : List WireRecord) :
    inc.denoteAll { config with allowTrailing := allowed } ws = inc.denoteAll config ws := by
  induction ws generalizing inc with
  | nil => rfl
  | cons w ws ih =>
    have hdenote : inc.denote { config with allowTrailing := allowed } w.payload =
        inc.denote config w.payload := rfl
    simp only [denoteAll, hdenote, ih]

end Incoming

/-! ### Messages that are cut or go on -/

namespace Layout

variable {config : Config} {cache : List Segment} {bs : Bytes} {inc : Incoming}

/-- Bytes taken up by the header and the records. -/
def size (layout : Layout config cache bs) : Nat :=
  layout.header.length.toNat + (layout.records.map WireRecord.size).sum

lemma size_add_length_trailing (layout : Layout config cache bs) :
    layout.size + layout.trailing.length = bs.length := by
  obtain ⟨⟨-, -, hlength⟩, hheader⟩ := Header.parse_eq_ok_iff.mp layout.parse_eq
  rw [← hheader] at hlength
  have hbytes := congrArg List.length layout.bytes_eq
  rw [List.length_drop, List.length_append, WireRecord.length_flatMap_toBytes] at hbytes
  unfold size
  omega

lemma allowed_nil (reader : Config) : reader.allowTrailing = true ∨ ([] : Bytes) = [] :=
  .inr rfl

/-- The message without trailing bytes, which no reader objects to. -/
def start (layout : Layout config cache bs) (reader : Config) :
    Layout reader cache (bs.take layout.size) where
  header := layout.header
  records := layout.records
  trailing := []
  parse_eq := by
    have hsize := layout.size_add_length_trailing
    have hparse : Header.parse (bs.take layout.size ++ bs.drop layout.size) = .ok layout.header := by
      rw [List.take_append_drop]
      exact layout.parse_eq
    have hlength : layout.header.length.toNat ≤ (bs.take layout.size).length := by
      rw [List.length_take]
      unfold size at *
      omega
    simpa using Header.parse_append hparse hlength []
  total_eq := layout.total_eq
  bytes_eq := by
    rw [List.drop_take, layout.bytes_eq, List.append_nil]
    apply List.take_left'
    rw [WireRecord.length_flatMap_toBytes, size, Nat.add_sub_cancel_left]
  allowed := allowed_nil reader

/-- Bytes that follow a message are only counted. -/
lemma decode_append (layout : Layout config cache bs) (hnone : layout.trailing = [])
    (hdenote : (Incoming.ofCache cache).denoteAll config layout.records = .ok inc)
    (more : Bytes) :
    decode config (bs ++ more) cache =
      if config.allowTrailing = false ∧ 0 < more.length then .error (.trailingBytes more.length)
      else .ok (.ofIncoming layout.header cache inc) := by
  have hlength : layout.header.length.toNat ≤ bs.length := by
    have hsize := layout.size_add_length_trailing
    unfold size at hsize
    omega
  have hparse : Header.parse (bs ++ []) = .ok layout.header := by
    rw [List.append_nil]
    exact layout.parse_eq
  have hbytes : (bs ++ more).drop layout.header.length.toNat =
      layout.records.flatMap WireRecord.toBytes ++ more := by
    rw [List.drop_append_of_le_length hlength, layout.bytes_eq, hnone, List.append_nil]
  rw [decode_of_records (Header.parse_append hparse hlength more) layout.total_eq hbytes, hdenote]
  rfl

/-- A message from which bytes are missing is malformed. -/
lemma malformed_of_missing (layout : Layout config cache bs) (hnone : layout.trailing = [])
    (hdenote : (Incoming.ofCache cache).denoteAll config layout.records = .ok inc)
    {part missing : Bytes} (hsplit : part ++ missing = bs) (hmissing : missing ≠ []) :
    IsMalformed (decode config part cache) := by
  subst hsplit
  cases hparse : Header.parse part with
  | error e =>
    obtain ⟨cause, rfl⟩ := Header.malformed_of_parse hparse
    refine ⟨cause, ?_⟩
    rw [decode, hparse, error_bind]
  | ok header =>
    obtain ⟨⟨-, -, hlength⟩, hheader⟩ := Header.parse_eq_ok_iff.mp hparse
    rw [← hheader] at hlength
    have hwhole : Header.parse (part ++ missing) = .ok header :=
      Header.parse_append (by rwa [List.append_nil]) hlength missing
    obtain rfl : layout.header = header := Except.ok.inj (layout.parse_eq.symm.trans hwhole)
    have htotal := layout.total_eq
    have hcount : layout.header.total.toNat - cache.length = layout.records.length := by omega
    rw [decode_of_parse hparse, if_neg (by omega), hcount]
    obtain hmalformed | hextend := Incoming.sequential_readRecords config (.ofCache cache)
      layout.records.length ⟨layout.header.length.toNat, part.drop layout.header.length.toNat⟩
      missing
    · exact hmalformed.bind _
    · -- The records are read to their end, which lies in the missing bytes.
      have hbytes := layout.bytes_eq
      rw [hnone, List.drop_append_of_le_length hlength] at hbytes
      rw [Cursor.extend, hbytes, Incoming.readRecords_append, hdenote, ok_bind] at hextend
      obtain ⟨result, -, hresult⟩ := bind_eq_ok.mp hextend.symm
      have hrest : result.2.rest ++ missing = [] :=
        congrArg (fun r : Incoming × Cursor => r.2.rest) (Except.ok.inj hresult)
      exact absurd (List.append_eq_nil_iff.mp hrest).2 hmissing

end Layout

/-- A message takes up a header and records. What follows is ignored, or counted if it is forbidden,
and if anything is missing, the message is malformed and nothing else. -/
theorem decode_consumes {depth : Nat} {cache : List Segment} {bs : Bytes}
    {message : DecodedMessage} (h : decode { maxDepth := depth } bs cache = .ok message) :
    ∃ (records : List WireRecord) (trailing : Bytes) (n : Nat),
      Grammatical { maxDepth := depth } cache bs records trailing ∧
      n = (Header.ofBytes bs).length.toNat + (records.map WireRecord.size).sum ∧ n ≤ bs.length ∧
      (∀ others : Bytes, bs.take n <+: others →
        decode { maxDepth := depth } others cache = .ok message ∧
        decode { maxDepth := depth, allowTrailing := false } others cache =
          if others.length = n then .ok message
          else .error (.trailingBytes (others.length - n))) ∧
      ∀ part : Bytes, part <+: bs → part.length < n → ∀ allowed, ∃ cause,
        decode { maxDepth := depth, allowTrailing := allowed } part cache =
          .error (.malformed cause) := by
  obtain ⟨layout, inc, hdenote, rfl⟩ := decode_eq_ok_iff.mp h
  obtain ⟨hgrammatical, -⟩ := layout.grammatical hdenote
  have hheader := (Header.parse_eq_ok_iff.mp layout.parse_eq).2
  have hsize : layout.size ≤ bs.length := by
    have hsum := layout.size_add_length_trailing
    omega
  have hread : ∀ allowed, (Incoming.ofCache cache).denoteAll
      { maxDepth := depth, allowTrailing := allowed } layout.records = .ok inc :=
    fun allowed => (Incoming.denoteAll_allowTrailing _ _ allowed _).trans hdenote
  refine ⟨layout.records, layout.trailing, layout.size, hgrammatical, ?_, hsize, ?_, ?_⟩
  · rw [← hheader, Layout.size]
  · rintro others ⟨more, rfl⟩
    have hlength : (bs.take layout.size ++ more).length = layout.size + more.length := by
      rw [List.length_append, List.length_take, Nat.min_eq_left hsize]
    rw [hlength, Nat.add_sub_cancel_left, (layout.start _).decode_append rfl (hread true),
      (layout.start _).decode_append rfl (hread false)]
    refine ⟨rfl, ?_⟩
    by_cases hmore : more.length = 0
    · rw [if_neg (by omega), if_pos (by omega)]
      rfl
    · rw [if_pos ⟨rfl, by omega⟩, if_neg (by omega)]
  · intro part hpart hlt allowed
    obtain ⟨missing, hmissing⟩ := List.prefix_take_iff.mpr ⟨hpart, Nat.le_of_lt hlt⟩
    have hlength := congrArg List.length hmissing
    rw [List.length_append, List.length_take, Nat.min_eq_left hsize] at hlength
    have hne : missing ≠ [] := by
      rintro rfl
      simp at hlength
      omega
    exact (layout.start _).malformed_of_missing rfl (hread allowed) hmissing hne

/-- The header with its padding and two records with options take up 51 bytes, after which one byte
is left. -/
theorem decode_consumes_untidy :
    decode {} Sample.untidyMessage [] =
      .ok ⟨[Sample.literal 7 1, (Sample.literal 7 1).wrapper], [(Sample.literal 7 1).wrapper],
        ⟨1⟩, ⟨2⟩⟩ ∧
    decode { allowTrailing := false } (Sample.untidyMessage ++ [6]) [] =
      .error (.trailingBytes 2) ∧
    ∀ k < 51, ∃ cause,
      decode {} (Sample.untidyMessage.take k) [] = .error (.malformed cause) := by
  have hstrict : decode { allowTrailing := false } Sample.untidyMessage [] =
      .error (.trailingBytes 1) := rfl
  obtain ⟨-, -, n, -, -, hle, hothers, hparts⟩ := decode_consumes Sample.decode_untidyMessage
  have hlength : Sample.untidyMessage.length = 52 := rfl
  have hn : n = 51 := by
    have hsame := (hothers _ (List.take_prefix n _)).2
    rw [hstrict, hlength] at hsame
    split at hsame
    · cases hsame
    · simp at hsame
      omega
  subst hn
  refine ⟨Sample.decode_untidyMessage,
    (hothers _ ((List.take_prefix 51 _).trans (List.prefix_append _ _))).2, ?_⟩
  intro k hk
  refine hparts _ (List.take_prefix k _) ?_ true
  rw [List.length_take]
  omega

/-- It matters that the whole message decodes: references are resolved before missing options are
noticed. -/
example :
    decode {} ((Header.standard 1 ⟨1⟩ ⟨2⟩).toBytes ++ [3, 1, 0, 9, 0, 5]) [] =
      .error (.invalidReference 5 0) :=
  rfl

end SegmentWire
