import SegmentWire.Message.Encoding
import SegmentWire.Segment.Node.Fingerprints
import SegmentWire.Segment.Node.Heights

/-!
# Encoding segments that share nodes

The listed segments and the cache lie in memory together and share nodes. One memo
and one guard serve the whole message, so that a node is hashed once and its height
found once, however often it is met. Apart from that, encoding takes the same steps
as it does for segments.
-/
namespace SegmentWire

/-- Work with a memo. It gives a result or an error, or nothing if the memo lacks a fingerprint that
it has to have. -/
abbrev MemoM := ExceptT CodecError Option

/-- A message in the making, with what is known of the nodes in memory. -/
structure SharedOutgoing where
  message : Outgoing
  memo : FingerprintMemo
  guard : HeightGuard

/-- Registers the nodes of a list in order. -/
def IndexTable.assignNodes (table : IndexTable) (memo : FingerprintMemo) :
    List Node → MemoM (IndexTable × FingerprintMemo)
  | [] => return (table, memo)
  | node :: nodes => do
    let (f, memo) ← ExceptT.lift (memo.fingerprint? node)
    let (_, table) ← ofExcept (table.assign f)
    table.assignNodes memo nodes

namespace SharedOutgoing

def fingerprint (out : SharedOutgoing) (node : Node) : MemoM (Fingerprint × SharedOutgoing) := do
  let (f, memo) ← ExceptT.lift (out.memo.fingerprint? node)
  return (f, { out with memo })

def height (out : SharedOutgoing) (node : Node) : MemoM (Nat × SharedOutgoing) := do
  let (result, guard) := out.guard.height node
  return (← ofExcept result, { out with guard })

/-- The positions of children, which must be registered. -/
def references (out : SharedOutgoing) : List Node → MemoM (List UInt16 × SharedOutgoing)
  | [] => return ([], out)
  | child :: children => do
    let (f, out) ← out.fingerprint child
    let position ← ofExcept (out.message.table.reference f)
    let (positions, out) ← out.references children
    return (position :: positions, out)

/-- The record of a node whose children are registered. -/
def record (out : SharedOutgoing) (accepted : Bool) (node : Node) :
    MemoM (Record × SharedOutgoing) :=
  if 255 < node.segment.length then throw (.segmentTooLong node.segment.length)
  else match node with
    | .literal _ interfaces => return (⟨accepted, .interfaces interfaces⟩, out)
    | .composition _ nodes => do
      let (positions, out) ← out.references nodes.toList
      return (⟨accepted, .references positions⟩, out)

/-- Registers a node at its fingerprint and adds its record. -/
def emit (out : SharedOutgoing) (accepted : Bool) (f : Fingerprint) (node : Node) :
    MemoM SharedOutgoing := do
  let (_, table) ← ofExcept (out.message.table.assign f)
  let (record, out) ← { out with message.table := table }.record accepted node
  let message := out.message
  return { out with
    message := ⟨table, message.records.push record, message.sent.push node.segment⟩ }

mutual

/-- Emits the nodes below a node that have no position yet. -/
def introduce (out : SharedOutgoing) : Node → MemoM SharedOutgoing
  | .literal .. => return out
  | .composition _ nodes => out.introduceEach nodes

/-- Emits the nodes of a list that have no position yet, each after the nodes below it. -/
def introduceEach (out : SharedOutgoing) : NodeList → MemoM SharedOutgoing
  | .nil => return out
  | .cons head tail => do
    let (f, out) ← out.fingerprint head
    if out.message.table.contains f then out.introduceEach tail
    else
      let out ← out.introduce head
      let out ← out.emit false f head
      out.introduceEach tail

end

/-- Announces one listed node. -/
def announce (out : SharedOutgoing) (node : Node) : MemoM SharedOutgoing := do
  let (height, out) ← out.height node
  let (f, out) ← out.fingerprint node
  match out.message.table.get? f with
  | some position =>
    if out.guard.limit ≤ height then throw out.guard.refusal
    else
      let message ← ofExcept (out.message.emitWrapper node.segment position)
      return { out with message }
  | none =>
    let out ← out.introduce node
    out.emit true f node

def announceAll (out : SharedOutgoing) : List Node → MemoM SharedOutgoing
  | [] => return out
  | node :: nodes => do
    let out ← out.announce node
    out.announceAll nodes

/-- A message to a receiver that holds the given cache, without records. -/
def start (config : Config) (cache : List Node) : MemoM SharedOutgoing := do
  let (table, memo) ← IndexTable.empty.assignNodes .empty cache
  return ⟨⟨table, #[], #[]⟩, memo, .start config.maxDepth⟩

end SharedOutgoing

/-- Announces `nodes` to a receiver that holds `cache`. -/
def encodeNodes (config : Config) (cache nodes : List Node) (source destination : IsdAsn) :
    MemoM EncodedMessage := do
  let out ← SharedOutgoing.start config cache
  let out ← out.announceAll nodes
  ofExcept (out.message.finish source destination)

end SegmentWire
