import SegmentWire.IsdAsn
import SegmentWire.Text.Parts
import SegmentWire.Text.Quoted

/-!
# ISD-AS numbers in text

There are two ways to write an ISD-AS number. The packed number is written in
decimal, or after `0x` in hexadecimal. Or the two parts are written with a hyphen
between them, the isolation domain in decimal, the AS in decimal or as three
groups of hexadecimal digits with colons between them.
-/
namespace SegmentWire.IsdAsn

inductive TextFault
  /-- The packed number cannot be read. -/
  | packed (cause : Unsigned.Fault)
  /-- The isolation domain cannot be read. -/
  | isd (cause : Unsigned.Fault)
  /-- There are colons, but not three groups. -/
  | groupCount
  /-- The AS, or one of its groups, cannot be read. -/
  | asn (cause : Unsigned.Fault)
  /-- The AS has more than 48 bits. -/
  | asnTooLarge
  deriving DecidableEq, Repr

/-- What is reported for a text with a fault. -/
def TextFault.message (text : String) : TextFault → String
  | packed cause => "invalid ISD-AS " ++ Text.quote text ++ ": " ++ cause.message
  | isd cause => "invalid ISD in " ++ Text.quote text ++ ": " ++ cause.message
  | groupCount => "AS in " ++ Text.quote text ++ " must have three groups"
  | asn cause => "invalid AS in " ++ Text.quote text ++ ": " ++ cause.message
  | asnTooLarge => "AS number in " ++ Text.quote text ++ " exceeds 48 bits"

/-- Reads groups of 16 bits and appends them to a number. -/
def readGroups : Nat → List (List Char) → Except Unsigned.Fault Nat
  | n, [] => .ok n
  | n, group :: rest =>
    match Unsigned.read 16 0x10000 group with
    | .ok value => readGroups (n * 0x10000 + value) rest
    | .error cause => .error cause

def readAsn (cs : List Char) : Except TextFault Nat :=
  if ':' ∈ cs then
    let groups := Text.parts ':' cs
    if groups.length = 3 then (readGroups 0 groups).mapError .asn else .error .groupCount
  else (Unsigned.read 10 0x10000000000000000 cs).mapError .asn

/-- Reads the packed number in the given radix. -/
def readPacked (radix : Nat) (cs : List Char) : Except TextFault IsdAsn :=
  match Unsigned.read radix 0x10000000000000000 cs with
  | .ok packed => .ok ⟨UInt64.ofNat packed⟩
  | .error cause => .error (.packed cause)

/-- Reads the two parts from the text before and after the hyphen. -/
def readParts (before after : List Char) : Except TextFault IsdAsn := do
  let isd ← (Unsigned.read 10 0x10000 before).mapError .isd
  let asn ← readAsn after
  if asn < 0x1000000000000 then .ok ⟨UInt64.ofNat (isd * 0x1000000000000 + asn)⟩
  else .error .asnTooLarge

def ofChars : List Char → Except TextFault IsdAsn
  | '0' :: 'x' :: digits => readPacked 16 digits
  | cs =>
    match cs.span (· != '-') with
    | (before, _ :: after) => readParts before after
    | (_, []) => readPacked 10 cs

/-- Reads an ISD-AS number in any of its forms. -/
def ofText (text : String) : Except TextFault IsdAsn :=
  ofChars text.toList

end SegmentWire.IsdAsn
