import Mathlib.Data.List.Nodup
import Mathlib.Data.Set.Defs
import Std.Data.TreeMap.Lemmas
import SegmentWire.Proofs.Subsegments
import SegmentWire.Segment.Node.Fingerprints

/-!
# Fingerprint memos

A memo is correct for a memory if it holds, at some of its addresses, the fingerprint
of the segment that lies there. The walk over a graph hashes a node when it does not
know it but knows all its children. That the memo stays correct, only grows and hashes
nothing twice is read off the steps that lead from one memo to the next.
-/
namespace SegmentWire

/-! ### Memory -/

namespace Node

/-- The nodes of the graph below a node, the node itself included. -/
inductive Reaches (root : Node) : Node → Prop
  | self : Reaches root root
  | child {node c : Node} : Reaches root node → c ∈ node.children → Reaches root c

lemma Reaches.trans {root middle node : Node} (h : root.Reaches middle)
    (hnode : middle.Reaches node) : root.Reaches node := by
  induction hnode with
  | self => exact h
  | child _ hc ih => exact .child ih hc

lemma size_le_totalSize {node : Node} {nodes : List Node} (h : node ∈ nodes) :
    node.size ≤ totalSize nodes := by
  induction nodes with
  | nil => simp at h
  | cons head nodes ih =>
    rw [totalSize]
    obtain rfl | h := List.mem_cons.mp h
    · omega
    · have hle := ih h
      omega

lemma size_child_lt {node c : Node} (hc : c ∈ node.children) : c.size < node.size := by
  have hle := size_le_totalSize hc
  rw [node.size_eq]
  omega

lemma Reaches.size_le {root node : Node} (h : root.Reaches node) : node.size ≤ root.size := by
  induction h with
  | self => exact Nat.le_refl _
  | child _ hc ih =>
    have hlt := size_child_lt hc
    omega

/-- A node is too large to lie below one of its children. -/
lemma not_reaches_of_mem_children {node c : Node} (hc : c ∈ node.children) : ¬ c.Reaches node := by
  intro hreach
  have hle := hreach.size_le
  have hlt := size_child_lt hc
  omega

/-- Induction from the children of a node to the node. -/
theorem induction_children {motive : Node → Prop}
    (step : ∀ node : Node, (∀ c ∈ node.children, motive c) → motive node) (node : Node) :
    motive node :=
  step node fun c _ => induction_children step c
termination_by node.size
decreasing_by exact size_child_lt ‹_›

lemma fingerprint_composition (address : Nat) (nodes : NodeList) :
    (composition address nodes).segment.fingerprint = .ofPreimage
      (Fingerprint.compositionPreimage (nodes.toList.map fun c => c.segment.fingerprint)) := by
  have hsegment : (composition address nodes).segment = .composition nodes.segments := rfl
  rw [hsegment, Segment.fingerprint, SegmentList.fingerprints_eq_map, NodeList.toList_segments,
    List.map_map]
  rfl

end Node

/-- Nodes that lie in one memory, with all their children. An address is that of one node only. -/
structure Memory where
  nodes : Set Node
  children_mem : ∀ {node c : Node}, node ∈ nodes → c ∈ node.children → c ∈ nodes
  address_inj : ∀ {node other : Node}, node ∈ nodes → other ∈ nodes →
    node.address = other.address → node = other

namespace Memory

/-- A memory with finitely many nodes, at different addresses. -/
def ofList (nodes : List Node) (closed : ∀ node ∈ nodes, ∀ c ∈ node.children, c ∈ nodes)
    (distinct : (nodes.map Node.address).Nodup) : Memory where
  nodes := {node | node ∈ nodes}
  children_mem hnode hc := closed _ hnode _ hc
  address_inj hnode hother h := List.inj_on_of_nodup_map distinct hnode hother h

lemma mem_of_reaches {memory : Memory} {root node : Node} (hroot : root ∈ memory.nodes)
    (h : root.Reaches node) : node ∈ memory.nodes := by
  induction h with
  | self => exact hroot
  | child _ hc ih => exact memory.children_mem ih hc

end Memory

namespace FingerprintMemo

/-! ### What a memo holds -/

abbrev Knows (memo : FingerprintMemo) (address : Nat) : Prop :=
  memo.known.contains address = true

/-- The memo after a node has been hashed. -/
def enter (memo : FingerprintMemo) (node : Node) : FingerprintMemo :=
  ⟨memo.known.insert node.address node.segment.fingerprint, node.address :: memo.hashed⟩

/-- Every entry is the fingerprint of the node that lies at its address. -/
def Correct (memo : FingerprintMemo) (memory : Memory) : Prop :=
  ∀ address f, memo.known[address]? = some f →
    ∃ node ∈ memory.nodes, node.address = address ∧ node.segment.fingerprint = f

variable {memory : Memory} {memo after : FingerprintMemo} {node : Node} {address : Nat}

lemma knows_iff : memo.Knows address ↔ ∃ f, memo.known[address]? = some f := by
  rw [Knows, Std.TreeMap.contains_eq_isSome_getElem?, Option.isSome_iff_exists]

lemma getElem?_enter : (memo.enter node).known[address]? =
    if address = node.address then some node.segment.fingerprint else memo.known[address]? := by
  by_cases h : node.address = address
  · simp [enter, h]
  · simp [enter, Std.TreeMap.getElem?_insert, h, Ne.symm h]

lemma knows_enter :
    (memo.enter node).Knows address ↔ address = node.address ∨ memo.Knows address := by
  rw [knows_iff, knows_iff, getElem?_enter]
  by_cases h : address = node.address <;> simp [h]

/-- What a correct memo knows of a node is its fingerprint. -/
lemma Correct.getElem?_eq (correct : memo.Correct memory) (hnode : node ∈ memory.nodes)
    (h : memo.Knows node.address) : memo.known[node.address]? = some node.segment.fingerprint := by
  obtain ⟨f, hf⟩ := knows_iff.mp h
  obtain ⟨other, hother, haddress, rfl⟩ := correct _ f hf
  obtain rfl := memory.address_inj hother hnode haddress
  exact hf

lemma Correct.enter (correct : memo.Correct memory) (hnode : node ∈ memory.nodes) :
    (memo.enter node).Correct memory := by
  intro address f hf
  rw [getElem?_enter] at hf
  by_cases h : address = node.address
  · rw [if_pos h] at hf
    exact ⟨node, hnode, h.symm, by simpa using hf⟩
  · rw [if_neg h] at hf
    exact correct address f hf

lemma mapM_known (correct : memo.Correct memory) {nodes : List Node}
    (hmem : ∀ c ∈ nodes, c ∈ memory.nodes) (h : ∀ c ∈ nodes, memo.Knows c.address) :
    (nodes.mapM fun c => memo.known[c.address]?) =
      some (nodes.map fun c => c.segment.fingerprint) := by
  induction nodes with
  | nil => rfl
  | cons c nodes ih =>
    rw [List.forall_mem_cons] at hmem h
    rw [List.mapM_cons, correct.getElem?_eq hmem.1 h.1, ih hmem.2 h.2]
    rfl

/-- A node is hashed from what is known of its children. -/
lemma hash?_eq (correct : memo.Correct memory) (hnode : node ∈ memory.nodes)
    (h : ∀ c ∈ node.children, memo.Knows c.address) :
    memo.hash? node = some (node.segment.fingerprint, memo.enter node) := by
  cases node with
  | literal address hops => rfl
  | composition address nodes =>
    have hchildren := mapM_known correct (fun c hc => memory.children_mem hnode hc) h
    rw [FingerprintMemo.enter, Node.fingerprint_composition, hash?]
    simp only [Node.children] at hchildren
    simp only [hchildren]
    rfl

/-! ### Steps from memo to memo -/

/-- The memo that results from hashing nodes of the scope one after the other. None is known when
its turn comes, and all its children are. -/
inductive Hashed (scope : Node → Prop) (before : FingerprintMemo) : FingerprintMemo → Prop
  | none : Hashed scope before before
  | enter {memo : FingerprintMemo} {node : Node} : Hashed scope before memo → scope node →
      ¬ memo.Knows node.address → (∀ c ∈ node.children, memo.Knows c.address) →
      Hashed scope before (memo.enter node)

namespace Hashed

variable {scope wider : Node → Prop} {before middle : FingerprintMemo}

lemma mono (h : Hashed scope before after) (hscope : ∀ node, scope node → wider node) :
    Hashed wider before after := by
  induction h with
  | none => exact .none
  | enter _ hnode hnew hchildren ih => exact .enter ih (hscope _ hnode) hnew hchildren

lemma trans (h : Hashed scope before middle) (hlater : Hashed scope middle after) :
    Hashed scope before after := by
  induction hlater with
  | none => exact h
  | enter _ hnode hnew hchildren ih => exact .enter ih hnode hnew hchildren

/-- Entries are never changed. -/
lemma getElem?_eq (h : Hashed scope before after) {f : Fingerprint}
    (hf : before.known[address]? = some f) : after.known[address]? = some f := by
  induction h with
  | none => exact hf
  | @enter memo node _ _ hnew _ ih =>
    have hne : address ≠ node.address := by
      rintro rfl
      exact hnew (knows_iff.mpr ⟨f, ih⟩)
    rw [getElem?_enter, if_neg hne, ih]

lemma knows (h : Hashed scope before after) (hknows : before.Knows address) :
    after.Knows address := by
  obtain ⟨f, hf⟩ := knows_iff.mp hknows
  exact knows_iff.mpr ⟨f, h.getElem?_eq hf⟩

/-- What has become known lies in the scope. -/
lemma knows_or (h : Hashed scope before after) (hknows : after.Knows address) :
    before.Knows address ∨ ∃ node, scope node ∧ node.address = address := by
  induction h with
  | none => exact .inl hknows
  | @enter memo node _ hnode _ _ ih =>
    obtain rfl | hknows := knows_enter.mp hknows
    · exact .inr ⟨node, hnode, rfl⟩
    · exact ih hknows

/-- Hashing below a node of the memory keeps the memo correct. -/
lemma correct {root : Node} (h : Hashed root.Reaches before after)
    (correct : before.Correct memory) (hroot : root ∈ memory.nodes) : after.Correct memory := by
  induction h with
  | none => exact correct
  | enter _ hreach _ _ ih => exact ih.enter (memory.mem_of_reaches hroot hreach)

/-- The addresses that were hashed are those that have become known, each of them once. -/
lemma exists_fresh (h : Hashed scope before after) :
    ∃ fresh : List Nat, after.hashed = fresh ++ before.hashed ∧ fresh.Nodup ∧
      ∀ address, address ∈ fresh ↔ after.Knows address ∧ ¬ before.Knows address := by
  induction h with
  | none => exact ⟨[], rfl, List.nodup_nil, by simp⟩
  | @enter memo node hbefore _ hnew _ ih =>
    obtain ⟨fresh, hhashed, hnodup, hfresh⟩ := ih
    refine ⟨node.address :: fresh, by rw [FingerprintMemo.enter, hhashed, List.cons_append], ?_, ?_⟩
    · exact List.nodup_cons.mpr ⟨fun hmem => hnew ((hfresh _).mp hmem).1, hnodup⟩
    · intro address
      rw [List.mem_cons, knows_enter, hfresh]
      constructor
      · rintro (rfl | ⟨hknows, hnot⟩)
        · exact ⟨.inl rfl, fun hknows => hnew (hbefore.knows hknows)⟩
        · exact ⟨.inr hknows, hnot⟩
      · rintro ⟨rfl | hknows, hnot⟩
        · exact .inl rfl
        · exact .inr ⟨hknows, hnot⟩

end Hashed

/-! ### The walk -/

lemma walk_of_knows (pending : List (Node × Bool)) (expanded : Bool) (h : memo.Knows node.address) :
    memo.walk ((node, expanded) :: pending) = memo.walk pending := by
  rw [walk, if_pos h]

lemma walk_expanded (pending : List (Node × Bool)) (h : ¬ memo.Knows node.address) :
    memo.walk ((node, true) :: pending) =
      memo.hash? node >>= fun hashed => hashed.2.walk pending := by
  rw [walk, if_neg h]
  cases memo.hash? node <;> rfl

lemma walk_expand (pending : List (Node × Bool)) (h : ¬ memo.Knows node.address) :
    memo.walk ((node, false) :: pending) =
      memo.walk ((memo.unknownChildren node).map (·, false) ++ (node, true) :: pending) := by
  rw [walk, if_neg h]
  rfl

/-- A stack is worked off from its top. -/
theorem walk_append (memo : FingerprintMemo) (pending rest : List (Node × Bool)) :
    memo.walk (pending ++ rest) = memo.walk pending >>= fun memo => memo.walk rest := by
  induction memo, pending using walk.induct with
  | case1 memo =>
    rw [List.nil_append, walk]
    rfl
  | case2 memo node expanded pending hknows ih =>
    rw [List.cons_append, walk_of_knows _ _ hknows, ih, walk_of_knows _ _ hknows]
  | case3 memo node pending hnew f hashed hhash ih =>
    rw [List.cons_append, walk_expanded _ hnew, walk_expanded _ hnew, hhash]
    exact ih
  | case4 memo node pending hnew hhash =>
    rw [List.cons_append, walk_expanded _ hnew, walk_expanded _ hnew, hhash]
    rfl
  | case5 memo node expanded pending hnew hexpanded ih =>
    obtain rfl : expanded = false := by simpa using hexpanded
    rw [List.cons_append, walk_expand _ hnew, walk_expand _ hnew, ← ih, List.append_assoc,
      List.cons_append]

/-- From any correct memo, walking from the node hashes what is missing in the graph below it. -/
def Walks (memory : Memory) (node : Node) : Prop :=
  ∀ memo : FingerprintMemo, memo.Correct memory → ∃ after, memo.walk [(node, false)] = some after ∧
    Hashed node.Reaches memo after ∧ after.Knows node.address

/-- Nodes on the stack are walked from one after the other. -/
lemma walk_each {nodes : List Node} (hwalks : ∀ node ∈ nodes, Walks memory node)
    (hmem : ∀ node ∈ nodes, node ∈ memory.nodes) (correct : memo.Correct memory) :
    ∃ after, memo.walk (nodes.map (·, false)) = some after ∧
      Hashed (fun node => ∃ root ∈ nodes, root.Reaches node) memo after ∧
      ∀ node ∈ nodes, after.Knows node.address := by
  induction nodes generalizing memo with
  | nil => exact ⟨memo, by rw [List.map_nil, walk], .none, by simp⟩
  | cons node nodes ih =>
    rw [List.forall_mem_cons] at hwalks hmem
    obtain ⟨middle, hwalk, hhashed, hknows⟩ := hwalks.1 memo correct
    have hmiddle := hhashed.correct correct hmem.1
    obtain ⟨after, hrest, hlater, hall⟩ := ih hwalks.2 hmem.2 hmiddle
    refine ⟨after, ?_, ?_, ?_⟩
    · have hsplit : (node :: nodes).map (·, false) = [(node, false)] ++ nodes.map (·, false) := rfl
      rw [hsplit, walk_append, hwalk]
      exact hrest
    · refine (hhashed.mono ?_).trans (hlater.mono ?_)
      · exact fun below hreach => ⟨node, List.mem_cons_self, hreach⟩
      · rintro below ⟨root, hroot, hreach⟩
        exact ⟨root, List.mem_cons_of_mem _ hroot, hreach⟩
    · exact List.forall_mem_cons.mpr ⟨hlater.knows hknows, hall⟩

/-- Walking from children of a node hashes below it only, and never the node. -/
lemma walk_children {children : List Node} (hsub : ∀ c ∈ children, c ∈ node.children)
    (hwalks : ∀ c ∈ children, Walks memory c) (hnode : node ∈ memory.nodes)
    (correct : memo.Correct memory) (hnew : ¬ memo.Knows node.address) :
    ∃ middle, memo.walk (children.map (·, false)) = some middle ∧
      Hashed node.Reaches memo middle ∧ (∀ c ∈ children, middle.Knows c.address) ∧
      ¬ middle.Knows node.address := by
  have hmem : ∀ c ∈ children, c ∈ memory.nodes := fun c hc =>
    memory.children_mem hnode (hsub c hc)
  obtain ⟨middle, hwalk, hhashed, hall⟩ := walk_each hwalks hmem correct
  refine ⟨middle, hwalk, hhashed.mono ?_, hall, ?_⟩
  · rintro below ⟨c, hc, hreach⟩
    exact (Node.Reaches.child .self (hsub c hc)).trans hreach
  · intro hlate
    -- What has become known lies below one of the children, where the node is not.
    obtain hearly | ⟨below, ⟨c, hc, hreach⟩, haddress⟩ := hhashed.knows_or hlate
    · exact hnew hearly
    · obtain rfl : below = node :=
        memory.address_inj (memory.mem_of_reaches (hmem c hc) hreach) hnode haddress
      exact Node.not_reaches_of_mem_children (hsub c hc) hreach

lemma mem_unknownChildren {c : Node} :
    c ∈ memo.unknownChildren node ↔ c ∈ node.children ∧ ¬ memo.Knows c.address := by
  rw [unknownChildren, List.mem_reverse, List.mem_filter, Bool.not_eq_true', Knows,
    Bool.not_eq_true]

/-- The children are walked from first, and then all are known. -/
theorem walks {node : Node} (hnode : node ∈ memory.nodes) : Walks memory node := by
  induction node using Node.induction_children with
  | step node ih =>
    intro memo correct
    by_cases hknows : memo.Knows node.address
    · exact ⟨memo, by rw [walk_of_knows _ _ hknows, walk], .none, hknows⟩
    · have hsub : ∀ c ∈ memo.unknownChildren node, c ∈ node.children := fun c hc =>
        (mem_unknownChildren.mp hc).1
      obtain ⟨middle, hwalk, hhashed, hall, hnew⟩ := walk_children hsub
        (fun c hc => ih c (hsub c hc) (memory.children_mem hnode (hsub c hc))) hnode correct hknows
      have hchildren : ∀ c ∈ node.children, middle.Knows c.address := by
        intro c hc
        by_cases hold : memo.Knows c.address
        · exact hhashed.knows hold
        · exact hall c (mem_unknownChildren.mpr ⟨hc, hold⟩)
      have hmiddle := hhashed.correct correct hnode
      refine ⟨middle.enter node, ?_, hhashed.enter .self hnew hchildren,
        knows_enter.mpr (.inl rfl)⟩
      rw [walk_expand _ hknows, walk_append, hwalk, Option.bind_eq_bind, Option.bind_some,
        walk_expanded _ hnew, hash?_eq hmiddle hnode hchildren, Option.bind_eq_bind,
        Option.bind_some, walk]

/-- The fingerprint of a node is found by hashing what is missing in the graph below it. -/
theorem fingerprint?_eq (correct : memo.Correct memory) {root : Node}
    (hroot : root ∈ memory.nodes) :
    ∃ after, memo.fingerprint? root = some (root.segment.fingerprint, after) ∧
      Hashed root.Reaches memo after := by
  by_cases hknows : memo.Knows root.address
  · exact ⟨memo, by rw [fingerprint?, correct.getElem?_eq hroot hknows], .none⟩
  · have hsub : ∀ c ∈ root.children.reverse, c ∈ root.children := fun c hc =>
      List.mem_reverse.mp hc
    obtain ⟨middle, hwalk, hhashed, hall, hnew⟩ := walk_children hsub
      (fun c hc => walks (memory.children_mem hroot (hsub c hc))) hroot correct hknows
    have hchildren : ∀ c ∈ root.children, middle.Knows c.address := fun c hc =>
      hall c (List.mem_reverse.mpr hc)
    have hmiddle := hhashed.correct correct hroot
    have hmissing : memo.known[root.address]? = none := by
      rw [← Option.not_isSome_iff_eq_none, ← Std.TreeMap.contains_eq_isSome_getElem?]
      exact hknows
    refine ⟨middle.enter root, ?_, hhashed.enter .self hnew hchildren⟩
    rw [fingerprint?, hmissing]
    simp only [hwalk, Option.bind_eq_bind, Option.bind_some, hash?_eq hmiddle hroot hchildren]

/-- The fingerprints of nodes, asked for one after the other. -/
def fingerprintEach? (memo : FingerprintMemo) :
    List Node → Option (List Fingerprint × FingerprintMemo)
  | [] => some ([], memo)
  | root :: roots => do
    let (f, memo) ← memo.fingerprint? root
    let (fs, memo) ← memo.fingerprintEach? roots
    some (f :: fs, memo)

/-- Nodes whose graphs overlap share what has been hashed. -/
theorem fingerprintEach?_eq (correct : memo.Correct memory) {roots : List Node}
    (hroots : ∀ root ∈ roots, root ∈ memory.nodes) :
    ∃ after, memo.fingerprintEach? roots =
        some (roots.map fun root => root.segment.fingerprint, after) ∧
      Hashed (fun node => ∃ root ∈ roots, root.Reaches node) memo after := by
  induction roots generalizing memo with
  | nil => exact ⟨memo, rfl, .none⟩
  | cons root roots ih =>
    rw [List.forall_mem_cons] at hroots
    obtain ⟨middle, hroot, hhashed⟩ := fingerprint?_eq correct hroots.1
    have hmiddle := hhashed.correct correct hroots.1
    obtain ⟨after, hrest, hlater⟩ := ih hmiddle hroots.2
    refine ⟨after, ?_, (hhashed.mono ?_).trans (hlater.mono ?_)⟩
    · simp only [fingerprintEach?, hroot, hrest, Option.bind_eq_bind, Option.bind_some,
        List.map_cons]
    · exact fun node hreach => ⟨root, List.mem_cons_self, hreach⟩
    · rintro node ⟨other, hother, hreach⟩
      exact ⟨other, List.mem_cons_of_mem _ hother, hreach⟩

lemma correct_empty (memory : Memory) : empty.Correct memory := by
  intro address f hf
  simp [empty] at hf

/-- The fingerprint found with a correct memo is that of the unfolded segment. Nodes are hashed
only below the one asked for, each when its children are known and it is not, so that none is
hashed twice. The memo stays correct and keeps its entries, and it gives a copy of the node the
same fingerprint, whatever is asked for in between. -/
theorem fingerprint?_unfolded {memory : Memory} {memo : FingerprintMemo}
    (correct : memo.Correct memory) {root : Node} (hroot : root ∈ memory.nodes) :
    ∃ (after : FingerprintMemo) (fresh : List Nat),
      memo.fingerprint? root = some (root.segment.fingerprint, after) ∧
      after.Correct memory ∧
      (∀ (address : Nat) (f : Fingerprint), memo.known[address]? = some f →
        after.known[address]? = some f) ∧
      Hashed root.Reaches memo after ∧
      after.hashed = fresh ++ memo.hashed ∧ fresh.Nodup ∧
      (∀ address, address ∈ fresh ↔ after.Knows address ∧ ¬ memo.Knows address) ∧
      ∀ (others : List Node) (copy : Node), (∀ node ∈ others, node ∈ memory.nodes) →
        copy ∈ memory.nodes → copy.segment = root.segment →
        ∃ fs last, after.fingerprintEach? (others ++ [copy]) =
          some (fs ++ [root.segment.fingerprint], last) := by
  obtain ⟨after, hfingerprint, hhashed⟩ := fingerprint?_eq correct hroot
  obtain ⟨fresh, hlog, hnodup, hfresh⟩ := hhashed.exists_fresh
  have hafter := hhashed.correct correct hroot
  refine ⟨after, fresh, hfingerprint, hafter, ?_, hhashed, hlog, hnodup, hfresh, ?_⟩
  · intro address f hf
    exact hhashed.getElem?_eq hf
  intro others copy hothers hcopy hsame
  have hall : ∀ node ∈ others ++ [copy], node ∈ memory.nodes :=
    List.forall_mem_append.mpr ⟨hothers, by simpa using hcopy⟩
  obtain ⟨last, heach, -⟩ := fingerprintEach?_eq hafter hall
  exact ⟨others.map fun node => node.segment.fingerprint, last, by
    rw [heach, List.map_append, List.map_singleton, hsame]⟩

/-- A leaf that two places share, a copy of it elsewhere in memory, and the node over them. -/
def sharedLeaf : Node := .literal 1 [⟨7, ⟨1⟩⟩]

def copiedLeaf : Node := .literal 2 [⟨7, ⟨1⟩⟩]

def sharingRoot : Node := .composition 0 (.ofList [sharedLeaf, sharedLeaf, copiedLeaf])

def sharingMemory : Memory :=
  .ofList [sharingRoot, sharedLeaf, copiedLeaf]
    (by simp [sharingRoot, sharedLeaf, copiedLeaf, Node.children]) (by decide)

/-- The shared leaf is known already, so only the copy and the root are hashed. -/
theorem fingerprint?_unfolded_shared :
    (empty.enter sharedLeaf).Correct sharingMemory ∧ sharingRoot ∈ sharingMemory.nodes ∧
      sharedLeaf.address ≠ copiedLeaf.address ∧
      ∃ after fresh, (empty.enter sharedLeaf).fingerprint? sharingRoot =
          some (sharingRoot.segment.fingerprint, after) ∧
        after.Correct sharingMemory ∧ after.hashed = fresh ++ [1] ∧ fresh.Nodup ∧
        ∃ fs last, after.fingerprintEach? ([copiedLeaf] ++ [sharingRoot]) =
          some (fs ++ [sharingRoot.segment.fingerprint], last) := by
  have hroot : sharingRoot ∈ [sharingRoot, sharedLeaf, copiedLeaf] := List.mem_cons_self
  have hleaf : sharedLeaf ∈ [sharingRoot, sharedLeaf, copiedLeaf] := by simp
  have hcopy : copiedLeaf ∈ [sharingRoot, sharedLeaf, copiedLeaf] := by simp
  have correct : (empty.enter sharedLeaf).Correct sharingMemory :=
    (correct_empty sharingMemory).enter hleaf
  obtain ⟨after, fresh, hfingerprint, hafter, -, -, hlog, hnodup, -, hagain⟩ :=
    @fingerprint?_unfolded sharingMemory _ correct sharingRoot hroot
  exact ⟨correct, hroot, by decide, after, fresh, hfingerprint, hafter, hlog, hnodup,
    hagain [copiedLeaf] sharingRoot (List.forall_mem_singleton.mpr hcopy) hroot rfl⟩

end FingerprintMemo

end SegmentWire
