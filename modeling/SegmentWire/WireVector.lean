import SegmentWire.Segment.Json

/-!
# Wire vectors

Messages written out byte by byte, to check the format against: what announcing
some segments has to produce, and what has to be rejected. The bytes are in
hexadecimal, one field or record at a time.
-/
namespace SegmentWire

/-- Segments announced against a cache, and the message for them. -/
structure EncodingVector where
  id : String
  description : String
  cache : List Segment
  segments : List Segment
  source : IsdAsn
  destination : IsdAsn
  expected : String

/-- A message that must be rejected, and the name of the cause. -/
structure RejectionVector where
  id : String
  description : String
  cache : List Segment
  input : String
  expected : String

namespace WireVector

def source : IsdAsn :=
  ⟨0x0001ff0000000110⟩

def destination : IsdAsn :=
  ⟨0x0001ff0000000111⟩

/-- A literal of one interface. -/
def hop (id : UInt64) (ia : IsdAsn) : Segment :=
  .literal [⟨id, ia⟩]

def twoHops : Segment :=
  .ofSegments [hop 1 source, hop 2 destination]

/-- The addresses in a header. -/
def addresses : String :=
  "0001ff0000000110 0001ff0000000111"

/-- What stands between the records of a message. -/
def lineBreak : String :=
  "\n                 "

/-- A message from its records. -/
def message (start : String) (records : List String) : String :=
  start ++ " " ++ addresses ++ String.join (records.map (lineBreak ++ ·))

def encodings : List EncodingVector := [
  { id := "empty"
    description := "Header only, nothing to send"
    cache := []
    segments := []
    source, destination
    expected := message "0014 0000" [] },
  { id := "fresh_composition"
    description := "Composition of two literals, empty cache"
    cache := []
    segments := [twoHops]
    source, destination
    expected := message "0014 0003" [
      "00 01 0000 0000000000000001 0001ff0000000110",
      "00 01 0000 0000000000000002 0001ff0000000111",
      "03 02 0000 0000 0001"] },
  { id := "cached_composition"
    description := "Composition already cached, re-announced by wrapper"
    cache := [twoHops]
    segments := [twoHops]
    source, destination
    expected := message "0014 0002" [] ++ " 03 01 0000 0000" },
  { id := "duplicate_literal"
    description := "Same literal twice in one message"
    cache := []
    segments := [hop 7 source, hop 7 source]
    source, destination
    expected := message "0014 0002" [
      "02 01 0000 0000000000000007 0001ff0000000110",
      "03 01 0000 0000"] },
  { id := "cached_child"
    description := "New composition over a cached literal"
    cache := [hop 1 source]
    segments := [twoHops]
    source, destination
    expected := message "0014 0003" [
      "00 01 0000 0000000000000002 0001ff0000000111",
      "03 02 0000 0000 0001"] }]

def rejections : List RejectionVector := [
  { id := "short_header"
    description := "Buffer shorter than the fixed header"
    cache := []
    input := "0014 0000 0001ff00"
    expected := "malformed_header" },
  { id := "hdrlen_too_small"
    description := "Declared header length below 20"
    cache := []
    input := message "0013 0000" []
    expected := "malformed_header" },
  { id := "missing_record"
    description := "numsegs announces a record that is not there"
    cache := []
    input := message "0014 0001" []
    expected := "malformed_header" },
  { id := "numsegs_below_cache"
    description := "numsegs smaller than the receiver cache"
    cache := [hop 1 source]
    input := message "0014 0000" []
    expected := "malformed_header" },
  { id := "forward_reference"
    description := "Composition references the record after it"
    cache := []
    input := message "0014 0002" [
      "03 01 0000 0001",
      "00 01 0000 0000000000000001 0001ff0000000110"]
    expected := "invalid_reference" },
  { id := "self_reference"
    description := "Composition references its own index"
    cache := [hop 1 source]
    input := message "0014 0002" [] ++ " 03 01 0000 0001"
    expected := "invalid_reference" }]

end WireVector

def EncodingVector.toJson (vector : EncodingVector) : Json := .object [
  ("id", .string vector.id),
  ("description", .string vector.description),
  ("cache", Segment.listToJson vector.cache),
  ("segments", Segment.listToJson vector.segments),
  ("src_ia", .unsigned vector.source.packed),
  ("dst_ia", .unsigned vector.destination.packed),
  ("expected_hex", .string vector.expected)]

def RejectionVector.toJson (vector : RejectionVector) : Json := .object [
  ("id", .string vector.id),
  ("description", .string vector.description),
  ("cache", Segment.listToJson vector.cache),
  ("input_hex", .string vector.input),
  ("expected_error", .string vector.expected)]

/-- All vectors, with the fields of each object in the order of their names. -/
def WireVector.allToJson : Json :=
  Json.sortFields (.object [
    ("encoding", .array (encodings.map EncodingVector.toJson)),
    ("rejection", .array (rejections.map RejectionVector.toJson))])

end SegmentWire
