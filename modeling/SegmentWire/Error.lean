/-!
# Codec errors

Each error is a cause with the numbers that describe it. The wording is in
`CodecError.message`, a short name for the cause in `CodecError.kind`, and the
form that shows the cause with its fields in `CodecError.dump`.
-/
namespace SegmentWire

/-- Why a header, a record or a list of interfaces does not fit its bytes. -/
inductive Malformed
  /-- Fewer bytes than the fixed header has. -/
  | headerTruncated (size : Nat)
  /-- The declared header length is below the fixed header. -/
  | headerLengthTooSmall (declared : Nat)
  /-- The declared header length is beyond the end of the bytes. -/
  | headerLengthTooLarge (declared size : Nat)
  /-- The message covers fewer segments than the receiver holds. -/
  | totalBelowCache (total cached : Nat)
  /-- A record runs past the end of the bytes. -/
  | recordTruncated (needed offset available : Nat)
  /-- A list of interfaces runs past the end of the bytes. -/
  | interfacesTruncated (count needed available : Nat)
  deriving DecidableEq, Repr

inductive CodecError
  | malformed (cause : Malformed)
  /-- A reference to a position at which no segment is known yet. -/
  | invalidReference (index resolvable : Nat)
  | nestingTooDeep (maxDepth : Nat)
  /-- More entries than the length byte of a record can count. -/
  | segmentTooLong (length : Nat)
  /-- More segments than 16-bit positions. -/
  | indexOverflow (index : Nat)
  /-- A child without a position, named by its fingerprint. -/
  | unindexedChild (fingerprint : String)
  | trailingBytes (count : Nat)
  deriving DecidableEq, Repr

def Malformed.message : Malformed → String
  | .headerTruncated size =>
    "buffer of " ++ Nat.repr size ++ " bytes shorter than 20-byte header"
  | .headerLengthTooSmall declared =>
    "declared header length " ++ Nat.repr declared ++ " below 20"
  | .headerLengthTooLarge declared size =>
    "declared header length " ++ Nat.repr declared ++ " exceeds buffer of " ++ Nat.repr size ++
      " bytes"
  | .totalBelowCache total cached =>
    "numsegs " ++ Nat.repr total ++ " smaller than cache of " ++ Nat.repr cached ++ " segments"
  | .recordTruncated needed offset available =>
    "record needs " ++ Nat.repr needed ++ " bytes at offset " ++ Nat.repr offset ++ ", " ++
      Nat.repr available ++ " available"
  | .interfacesTruncated count needed available =>
    Nat.repr count ++ " interfaces need " ++ Nat.repr needed ++ " bytes, " ++ Nat.repr available ++
      " available"

namespace CodecError

def message : CodecError → String
  | malformed cause => "malformed header: " ++ cause.message
  | invalidReference index resolvable =>
    "invalid subsegment reference " ++ Nat.repr index ++ ": only " ++ Nat.repr resolvable ++
      " segments resolvable"
  | nestingTooDeep maxDepth =>
    "segment nesting exceeds maximum depth of " ++ Nat.repr maxDepth
  | segmentTooLong length =>
    "segment has " ++ Nat.repr length ++ " entries, at most 255 fit in a record"
  | indexOverflow index =>
    "segment index " ++ Nat.repr index ++ " exceeds the 16-bit index space"
  | unindexedChild fingerprint => "subsegment " ++ fingerprint ++ " has no assigned index"
  | trailingBytes count => Nat.repr count ++ " trailing bytes after last segment record"

/-- The name of the cause, without its fields. -/
def kind : CodecError → String
  | malformed _ => "malformed_header"
  | invalidReference .. => "invalid_reference"
  | nestingTooDeep _ => "nesting_too_deep"
  | segmentTooLong _ => "segment_too_long"
  | indexOverflow _ => "index_overflow"
  | unindexedChild _ => "unindexed_subsegment"
  | trailingBytes _ => "trailing_bytes"

/-- The cause with its fields named. -/
def dump : CodecError → String
  | malformed cause => "MalformedHeader \x7b message: \"" ++ cause.message ++ "\" \x7d"
  | invalidReference index resolvable =>
    "InvalidReference \x7b index: " ++ Nat.repr index ++ ", resolvable: " ++ Nat.repr resolvable ++
      " \x7d"
  | nestingTooDeep maxDepth => "NestingTooDeep \x7b max_depth: " ++ Nat.repr maxDepth ++ " \x7d"
  | segmentTooLong length => "SegmentTooLong \x7b len: " ++ Nat.repr length ++ " \x7d"
  | indexOverflow index => "IndexOverflow \x7b index: " ++ Nat.repr index ++ " \x7d"
  | unindexedChild fingerprint =>
    "UnindexedSubsegment \x7b fingerprint: \"" ++ fingerprint ++ "\" \x7d"
  | trailingBytes count => "TrailingBytes \x7b count: " ++ Nat.repr count ++ " \x7d"

end CodecError

end SegmentWire
