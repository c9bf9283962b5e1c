import Std.Data.TreeMap
import SegmentWire.Segment.Node

/-!
# Fingerprints of shared nodes

The fingerprints below a node are found in one walk over its graph, which enters
them into a memo by address. The walk keeps its own stack, so it needs no more
room for a deep graph than for a wide one. A node is hashed when it comes up for
the second time, its children having been hashed in between.
-/
namespace SegmentWire

structure FingerprintMemo where
  known : Std.TreeMap Nat Fingerprint
  /-- The addresses that were hashed, the last one first. -/
  hashed : List Nat

namespace FingerprintMemo

def empty : FingerprintMemo :=
  ⟨∅, []⟩

/-- Hashes a node and enters it. All its children must be known. -/
def hash? (memo : FingerprintMemo) (node : Node) : Option (Fingerprint × FingerprintMemo) := do
  let preimage ← match node with
    | .literal _ interfaces => some (Fingerprint.literalPreimage interfaces)
    | .composition _ nodes =>
      (nodes.toList.mapM fun child => memo.known[child.address]?).map
        Fingerprint.compositionPreimage
  let f := Fingerprint.ofPreimage preimage
  some (f, ⟨memo.known.insert node.address f, node.address :: memo.hashed⟩)

/-- The children of a node that are not known yet, the last one first. -/
def unknownChildren (memo : FingerprintMemo) (node : Node) : List Node :=
  (node.children.filter fun child => !memo.known.contains child.address).reverse

/-- What is left to do for a stack of nodes, each with a mark that tells whether its children have
been put on the stack. -/
def load : List (Node × Bool) → Nat
  | [] => 0
  | (node, expanded) :: pending => (if expanded then 1 else 2 * node.size) + load pending

theorem load_append (pending rest : List (Node × Bool)) :
    load (pending ++ rest) = load pending + load rest := by
  induction pending with
  | nil => simp [load]
  | cons task pending ih => simp only [List.cons_append, load, ih]; omega

theorem load_unknownChildren_le (memo : FingerprintMemo) (node : Node) :
    load ((memo.unknownChildren node).map (·, false)) ≤ 2 * Node.totalSize node.children := by
  simp only [unknownChildren]
  induction node.children with
  | nil => simp [load]
  | cons child children ih =>
    simp only [List.filter_cons, Node.totalSize]
    split
    · simp only [List.reverse_cons, List.map_append, load_append, List.map_cons, List.map_nil,
        load, Bool.false_eq_true, if_false]
      omega
    · omega

/-- Hashes the nodes on a stack and all nodes below them, each after its children. -/
def walk (memo : FingerprintMemo) : List (Node × Bool) → Option FingerprintMemo
  | [] => some memo
  | (node, expanded) :: pending =>
    if memo.known.contains node.address then walk memo pending
    else if expanded then
      match memo.hash? node with
      | some (_, memo) => walk memo pending
      | none => none
    else walk memo ((memo.unknownChildren node).map (·, false) ++ (node, true) :: pending)
termination_by pending => load pending
decreasing_by
  · simp only [load, Node.size_eq node]
    split <;> omega
  · simp only [load, Node.size_eq node]
    split <;> omega
  · have hload := load_unknownChildren_le memo node
    rename_i hexpanded
    simp only [load_append, load, Node.size_eq node, if_true, if_neg hexpanded]
    omega

/-- The fingerprint of a node, with the memo that knows it and all nodes below it. -/
def fingerprint? (memo : FingerprintMemo) (root : Node) : Option (Fingerprint × FingerprintMemo) :=
  match memo.known[root.address]? with
  | some f => some (f, memo)
  | none => do
    let memo ← memo.walk (root.children.reverse.map (·, false))
    memo.hash? root

end FingerprintMemo

/-- The fingerprint of a node, found without unfolding what its graph shares. -/
def Node.fingerprint? (node : Node) : Option Fingerprint :=
  (FingerprintMemo.empty.fingerprint? node).map (·.1)

end SegmentWire
