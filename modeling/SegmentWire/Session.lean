import SegmentWire.Message.Decoding
import SegmentWire.Message.Encoding

/-!
# Sessions

Sender and receiver exchange messages in rounds. After each round both append what
was sent to their lists of known segments: the sender to its view of the
receiver's cache, the receiver to the cache itself. A round in which anything
fails leaves the session as it was.
-/
namespace SegmentWire

structure Session where
  senderView : List Segment
  receiverCache : List Segment
  source : IsdAsn
  destination : IsdAsn
  /-- Completed rounds. -/
  rounds : Nat

inductive SessionFault
  | encoding (cause : CodecError)
  | decoding (cause : CodecError)
  /-- The receiver's records differ from the sender's. -/
  | recordsDiffer (round : Nat)
  /-- The receiver's addresses differ from the sender's. -/
  | addressesDiffer
  /-- The cache differs from the sender's view of it. -/
  | cachesDiverged (rounds : Nat)
  deriving DecidableEq, Repr

def SessionFault.message : SessionFault → String
  | encoding cause => "Failed to encode segments: " ++ cause.dump
  | decoding cause => "Failed to decode segments: " ++ cause.dump
  | recordsDiffer round =>
    "assertion \x60left == right\x60 failed: Decoded records differ from sent records in round " ++
      Nat.repr round
  | addressesDiffer => "assertion \x60left == right\x60 failed"
  | cachesDiverged rounds =>
    "assertion \x60left == right\x60 failed: Sender view and receiver cache diverged after " ++
      Nat.repr rounds ++ " rounds"

namespace Session

/-- A session before its first round. -/
def start (source destination : IsdAsn) : Session :=
  ⟨[], [], source, destination, 0⟩

/-- The message that the next round would send. -/
def encode (session : Session) (segments : List Segment) : Except CodecError EncodedMessage :=
  SegmentWire.encode {} session.senderView segments session.source session.destination

/-- What the receiver reads in a message. -/
def deliver (session : Session) (bs : Bytes) : Except CodecError DecodedMessage :=
  decode {} bs session.receiverCache

/-- Whether two lists agree, segment by segment, by fingerprint. -/
def agree (segments others : List Segment) : Bool :=
  segments.map Segment.fingerprint == others.map Segment.fingerprint

/-- Runs one round. Neither side appends anything before the message has been encoded, decoded and
compared. -/
def round (session : Session) (segments : List Segment) :
    Except SessionFault DecodedMessage × Session :=
  match session.encode segments with
  | .error cause => (.error (.encoding cause), session)
  | .ok encoded =>
    match session.deliver encoded.bytes with
    | .error cause => (.error (.decoding cause), session)
    | .ok decoded =>
      if !agree decoded.newSegments encoded.sent then
        (.error (.recordsDiffer session.rounds), session)
      else if decoded.source ≠ session.source ∨ decoded.destination ≠ session.destination then
        (.error .addressesDiffer, session)
      else (.ok decoded, { session with
        senderView := session.senderView ++ encoded.sent
        receiverCache := session.receiverCache ++ decoded.newSegments
        rounds := session.rounds + 1 })

/-- What a round that succeeds gives, and the session after it. -/
def send (session : Session) (segments : List Segment) :
    Except SessionFault (DecodedMessage × Session) :=
  match session.round segments with
  | (.ok decoded, after) => .ok (decoded, after)
  | (.error fault, _) => .error fault

/-- Checks that the cache is what the sender takes it to be. -/
def verify (session : Session) : Except SessionFault Unit :=
  if agree session.senderView session.receiverCache then .ok ()
  else .error (.cachesDiverged session.rounds)

end Session

end SegmentWire
