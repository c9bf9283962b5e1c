import SegmentWire.Message.SharedEncoding
import SegmentWire.Proofs.HeightGuards
import SegmentWire.Proofs.Results

/-!
# Shared nodes are encoded as their segments

Looking fingerprints up in a memo and asking a guard for heights changes nothing in a
message: encoding nodes gives what encoding the segments gives that they stand for, and
never lacks a fingerprint. Each step refines the plain one. It fails with the same error,
or leads to a state that represents the plain state, with a memo that is correct and a
guard that is sound.
-/
namespace SegmentWire

/-! ### Refinement -/

/-- The work lacks nothing, and its result agrees with the plain one. -/
def Refines {α β : Type} (R : α → β → Prop) (work : MemoM α) (plain : Except CodecError β) : Prop :=
  ∃ result, work.run = some result ∧ Agree R result plain

namespace Refines

variable {α β γ δ : Type} {R : α → β → Prop} {work : MemoM α} {plain : Except CodecError β}

lemma ok {a : α} {b : β} (h : R a b) : Refines R (pure a) (.ok b) :=
  ⟨.ok a, rfl, .ok h⟩

lemma error (e : CodecError) : Refines R (throw e) (.error e) :=
  ⟨.error e, rfl, .error e⟩

lemma ofExcept (result : Except CodecError β) : Refines Eq (MonadExcept.ofExcept result) result :=
  ⟨result, by cases result <;> rfl, .refl result⟩

lemma bind {S : γ → δ → Prop} {next : α → MemoM γ} {plainNext : β → Except CodecError δ}
    (h : Refines R work plain) (hnext : ∀ a b, R a b → Refines S (next a) (plainNext b)) :
    Refines S (work >>= next) (plain >>= plainNext) := by
  obtain ⟨result, hrun, hagree⟩ := h
  rw [Refines, ExceptT.run_bind, hrun]
  cases hagree with
  | ok h => exact hnext _ _ h
  | error e => exact ⟨.error e, rfl, .error e⟩

/-- What is left to do with a result may concern what the plain one says nothing about. -/
lemma map {S : γ → β → Prop} {f : α → γ} (h : Refines R work plain)
    (hf : ∀ a b, R a b → S (f a) b) : Refines S (work >>= fun a => pure (f a)) plain := by
  have hplain : (plain >>= fun b => .ok b) = plain := by cases plain <;> rfl
  rw [← hplain]
  exact h.bind fun a b hab => .ok (hf a b hab)

lemma run_eq {work : MemoM β} (h : Refines Eq work plain) : work.run = some plain := by
  obtain ⟨result, hrun, hagree⟩ := h
  rw [hrun, hagree.eq]

end Refines

namespace SharedOutgoing

variable {memory : Memory} {config : Config} {out : SharedOutgoing} {plain : Outgoing} {node : Node}

/-- The message is the plain one, and what is known of the nodes in memory is true. -/
structure Represents (memory : Memory) (config : Config) (out : SharedOutgoing)
    (plain : Outgoing) : Prop where
  message_eq : out.message = plain
  correct : out.memo.Correct memory
  sound : out.guard.Sound memory
  limit_eq : out.guard.limit = config.maxDepth

namespace Represents

/-- What was found out beside the message does not change it. -/
lemma fingerprint_eq (h : out.Represents memory config plain) (hnode : node ∈ memory.nodes) :
    ∃ after : SharedOutgoing, out.fingerprint node = pure (node.segment.fingerprint, after) ∧
      after.Represents memory config plain := by
  obtain ⟨memo, hmemo, hhashed⟩ := FingerprintMemo.fingerprint?_eq h.correct hnode
  refine ⟨{ out with memo }, ?_, h.message_eq, hhashed.correct h.correct hnode, h.sound,
    h.limit_eq⟩
  rw [fingerprint, hmemo]
  rfl

/-- A node that is too tall is refused. Otherwise its height is found. -/
lemma height (h : out.Represents memory config plain) (hnode : node ∈ memory.nodes) :
    Refines (fun found _ => found.1 = node.segment.height ∧
        node.segment.height ≤ config.maxDepth ∧ found.2.Represents memory config plain)
      (out.height node) (HeightGuard.answer config.maxDepth node) := by
  obtain ⟨guard, hguard, hsound, hlimit⟩ := HeightGuard.height_answers hnode h.sound
  rw [SharedOutgoing.height, hguard, h.limit_eq, HeightGuard.answer]
  by_cases hle : node.segment.height ≤ config.maxDepth
  · rw [if_pos hle]
    exact .ok ⟨rfl, hle, h.message_eq, h.correct, hsound, hlimit.trans h.limit_eq⟩
  · rw [if_neg hle]
    exact .error _

lemma references (h : out.Represents memory config plain) {nodes : List Node}
    (hnodes : ∀ node ∈ nodes, node ∈ memory.nodes) :
    Refines (fun found positions => found.1 = positions ∧
        found.2.Represents memory config plain) (out.references nodes)
      ((nodes.map fun node => node.segment.fingerprint).mapM plain.table.reference) := by
  induction nodes generalizing out with
  | nil => exact .ok ⟨rfl, h⟩
  | cons node nodes ih =>
    rw [List.forall_mem_cons] at hnodes
    obtain ⟨after, hfingerprint, hafter⟩ := h.fingerprint_eq hnodes.1
    rw [SharedOutgoing.references, hfingerprint, pure_bind, List.map_cons, List.mapM_cons]
    dsimp only
    rw [hafter.message_eq]
    refine .bind (.ofExcept _) fun position _ hposition => ?_
    subst hposition
    refine .bind (ih hafter hnodes.2) fun found positions hfound => ?_
    obtain ⟨rfl, hlast⟩ := hfound
    exact .ok ⟨rfl, hlast⟩

lemma record (h : out.Represents memory config plain) (accepted : Bool)
    (hnode : node ∈ memory.nodes) :
    Refines (fun found record => found.1 = record ∧ found.2.Represents memory config plain)
      (out.record accepted node) (plain.table.record accepted node.segment) := by
  unfold SharedOutgoing.record IndexTable.record
  by_cases hlong : 255 < node.segment.length
  · rw [if_pos hlong, if_pos hlong]
    exact .error _
  · rw [if_neg hlong, if_neg hlong]
    cases node with
    | literal address interfaces => exact .ok ⟨rfl, h⟩
    | composition address nodes =>
      have hreferences := h.references fun c hc => memory.children_mem hnode hc
      have hfingerprints : (nodes.toList.map fun c => c.segment.fingerprint) =
          nodes.segments.fingerprints := by
        rw [SegmentList.fingerprints_eq_map, NodeList.toList_segments, List.map_map]
        rfl
      simp only [Node.children, hfingerprints] at hreferences
      refine .bind hreferences fun found positions hfound => ?_
      obtain ⟨rfl, hlast⟩ := hfound
      exact .ok ⟨rfl, hlast⟩

lemma emit (h : out.Represents memory config plain) (accepted : Bool)
    (hnode : node ∈ memory.nodes) :
    Refines (Represents memory config) (out.emit accepted node.segment.fingerprint node)
      (plain.emit accepted node.segment) := by
  obtain ⟨rfl, hcorrect, hsound, hlimit⟩ := h
  rw [SharedOutgoing.emit, Outgoing.emit]
  refine .bind (.ofExcept _) fun assigned _ hassigned => ?_
  subst hassigned
  have hregistered : ({ out with message.table := assigned.2 } : SharedOutgoing).Represents memory
      config { out.message with table := assigned.2 } := ⟨rfl, hcorrect, hsound, hlimit⟩
  refine .bind (hregistered.record accepted hnode) fun found record hfound => ?_
  obtain ⟨rfl, hlast⟩ := hfound
  exact .ok ⟨by rw [hlast.message_eq], hlast.correct, hlast.sound, hlast.limit_eq⟩

end Represents

mutual

theorem introduce_refines (node : Node) {out : SharedOutgoing} {plain : Outgoing}
    (h : out.Represents memory config plain) (hnode : node ∈ memory.nodes) :
    Refines (Represents memory config) (out.introduce node) (plain.introduce node.segment) := by
  match node with
  | .literal address interfaces => exact .ok h
  | .composition address nodes =>
    exact introduceEach_refines nodes h fun c hc => memory.children_mem hnode hc

theorem introduceEach_refines (nodes : NodeList) {out : SharedOutgoing} {plain : Outgoing}
    (h : out.Represents memory config plain) (hnodes : ∀ node ∈ nodes.toList, node ∈ memory.nodes) :
    Refines (Represents memory config) (out.introduceEach nodes)
      (plain.introduceEach nodes.segments) := by
  match nodes with
  | .nil => exact .ok h
  | .cons head tail =>
    obtain ⟨hhead, htail⟩ := List.forall_mem_cons.mp hnodes
    obtain ⟨after, hfingerprint, hafter⟩ := h.fingerprint_eq hhead
    rw [introduceEach, hfingerprint, pure_bind, NodeList.segments, Outgoing.introduceEach]
    dsimp only
    rw [hafter.message_eq]
    by_cases hknown : plain.table.contains head.segment.fingerprint = true
    · rw [if_pos hknown, if_pos hknown]
      exact introduceEach_refines tail hafter htail
    · rw [if_neg hknown, if_neg hknown]
      refine .bind (introduce_refines head hafter hhead) fun out plain hbelow => ?_
      refine .bind (hbelow.emit false hhead) fun out plain hlast => ?_
      exact introduceEach_refines tail hlast htail

end

theorem announce_refines (h : out.Represents memory config plain) (hnode : node ∈ memory.nodes) :
    Refines (Represents memory config) (out.announce node)
      (plain.announce config node.segment) := by
  -- The plain step refuses a node that is too tall, so that it may as well be measured before.
  have hplain : plain.announce config node.segment =
      HeightGuard.answer config.maxDepth node >>= fun _ => plain.announce config node.segment := by
    rw [HeightGuard.answer]
    by_cases hle : node.segment.height ≤ config.maxDepth
    · rw [if_pos hle]
      rfl
    · rw [if_neg hle, Outgoing.announce, if_pos (Nat.lt_of_not_le hle)]
      rfl
  rw [announce, hplain]
  refine .bind (h.height hnode) fun found _ hfound => ?_
  obtain ⟨hheight, hle, hmeasured⟩ := hfound
  obtain ⟨after, hfingerprint, hafter⟩ := hmeasured.fingerprint_eq hnode
  dsimp only
  rw [hfingerprint, pure_bind, hheight, Outgoing.announce, if_neg (Nat.not_lt.mpr hle)]
  obtain ⟨rfl, hcorrect, hsound, hlimit⟩ := hafter
  dsimp only
  rw [hlimit]
  cases after.message.table.get? node.segment.fingerprint with
  | some position =>
    by_cases hlow : config.maxDepth ≤ node.segment.height
    · dsimp only
      rw [if_pos hlow, if_pos hlow, HeightGuard.refusal, hlimit]
      exact .error _
    · dsimp only
      rw [if_neg hlow, if_neg hlow]
      exact .map (.ofExcept _) fun message _ hmessage =>
        ⟨hmessage, hcorrect, hsound, hlimit⟩
  | none =>
    refine .bind (introduce_refines node ⟨rfl, hcorrect, hsound, hlimit⟩ hnode) ?_
    exact fun out plain hbelow => hbelow.emit true hnode

theorem announceAll_refines (h : out.Represents memory config plain) {nodes : List Node}
    (hnodes : ∀ node ∈ nodes, node ∈ memory.nodes) :
    Refines (Represents memory config) (out.announceAll nodes)
      (plain.announceAll config (nodes.map Node.segment)) := by
  induction nodes generalizing out plain with
  | nil => exact .ok h
  | cons node nodes ih =>
    rw [List.forall_mem_cons] at hnodes
    have hplain : plain.announceAll config ((node :: nodes).map Node.segment) =
        plain.announce config node.segment >>= fun out =>
          out.announceAll config (nodes.map Node.segment) := by
      rw [List.map_cons, Outgoing.announceAll]
      cases plain.announce config node.segment <;> rfl
    rw [announceAll, hplain]
    exact .bind (announce_refines h hnodes.1) fun out plain hafter => ih hafter hnodes.2

end SharedOutgoing

lemma IndexTable.assignNodes_refines {memory : Memory} {memo : FingerprintMemo}
    (correct : memo.Correct memory) (table : IndexTable) {nodes : List Node}
    (hnodes : ∀ node ∈ nodes, node ∈ memory.nodes) :
    Refines (fun assigned after => assigned.1 = after ∧ assigned.2.Correct memory)
      (table.assignNodes memo nodes) (table.assignAll (nodes.map Node.segment)) := by
  induction nodes generalizing table memo with
  | nil => exact .ok ⟨rfl, correct⟩
  | cons node nodes ih =>
    rw [List.forall_mem_cons] at hnodes
    have hplain : table.assignAll ((node :: nodes).map Node.segment) =
        table.assign node.segment.fingerprint >>= fun assigned =>
          assigned.2.assignAll (nodes.map Node.segment) := by
      rw [List.map_cons, assignAll]
      cases table.assign node.segment.fingerprint <;> rfl
    obtain ⟨after, hmemo, hhashed⟩ := FingerprintMemo.fingerprint?_eq correct hnodes.1
    have hlift : (ExceptT.lift (some (node.segment.fingerprint, after)) :
        MemoM (Fingerprint × FingerprintMemo)) = pure (node.segment.fingerprint, after) := rfl
    rw [assignNodes, hmemo, hplain, hlift, pure_bind]
    refine .bind (.ofExcept _) fun assigned _ hassigned => ?_
    subst hassigned
    exact ih (hhashed.correct correct hnodes.1) assigned.2 hnodes.2

/-- Encoding nodes gives the message or the error of the segments that they stand for. -/
theorem encodeNodes_eq {memory : Memory} (config : Config) {cache nodes : List Node}
    (hcache : ∀ node ∈ cache, node ∈ memory.nodes) (hnodes : ∀ node ∈ nodes, node ∈ memory.nodes)
    (source destination : IsdAsn) :
    (encodeNodes config cache nodes source destination).run = some
      (encode config (cache.map Node.segment) (nodes.map Node.segment) source destination) := by
  refine Refines.run_eq ?_
  have hstart : Refines (SharedOutgoing.Represents memory config)
      (SharedOutgoing.start config cache) (Outgoing.start (cache.map Node.segment)) := by
    refine .bind (IndexTable.assignNodes_refines (FingerprintMemo.correct_empty memory) _ hcache)
      fun assigned table hassigned => ?_
    obtain ⟨rfl, hcorrect⟩ := hassigned
    exact .ok ⟨rfl, hcorrect, .start memory config.maxDepth, rfl⟩
  refine .bind hstart fun out plain hout => ?_
  refine .bind (SharedOutgoing.announceAll_refines hout hnodes) fun out plain hlast => ?_
  rw [hlast.message_eq]
  exact .ofExcept _

end SegmentWire
