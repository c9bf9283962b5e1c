/-!
# Numbers in JSON text

A numeral is kept in its written parts. The first question about it is whether it
is an unsigned 64-bit integer: no sign, no fraction, no exponent. Any other
numeral stands for a 64-bit float, and one beyond the greatest finite float is
refused.

The float is not computed. It would be the product of a significand, made of the
leading digits that fit 64 bits, and a power of ten, each rounded to 53 bits, and
the product overflows as soon as it is nearer to 2^1024 than to the float below.
-/
namespace SegmentWire.Json

structure Numeral where
  negative : Bool
  /-- The digits before the point. -/
  whole : List Char
  /-- The digits after the point, empty without one. -/
  fraction : List Char
  /-- The sign and the digits of the exponent. -/
  exponent : Option (Bool × List Char)
  deriving DecidableEq, Repr

namespace Numeral

def digitValue (c : Char) : Nat :=
  c.toNat - '0'.toNat

def natOfDigits (digits : List Char) : Nat :=
  digits.foldl (fun n c => n * 10 + digitValue c) 0

def isWhole (n : Numeral) : Bool :=
  n.fraction.isEmpty && n.exponent.isNone

/-- The value of a numeral that is an unsigned 64-bit integer. -/
def unsigned? (n : Numeral) : Option UInt64 :=
  let value := natOfDigits n.whole
  if n.isWhole && !n.negative && decide (value < 0x10000000000000000) then
    some (UInt64.ofNat value)
  else none

/-- Appends digits to a significand as long as it fits 64 bits. The second number counts the
digits that were appended. -/
def absorb (significand count : Nat) : List Char → Nat × Nat
  | [] => (significand, count)
  | c :: digits =>
    let next := significand * 10 + digitValue c
    if next < 0x10000000000000000 then absorb next (count + 1) digits else (significand, count)

def exponentValue (n : Numeral) : Int :=
  match n.exponent with
  | none => 0
  | some (false, digits) => natOfDigits digits
  | some (true, digits) => -natOfDigits digits

/-- The significand and the power of ten that goes with it. -/
def scaled (n : Numeral) : Nat × Int :=
  let (significand, taken) := absorb 0 0 n.whole
  let (significand, places) := absorb significand 0 n.fraction
  (significand, n.exponentValue + ((n.whole.length - taken : Nat) : Int) - (places : Int))

/-- The nearest number of at most 53 significant bits, an even one of two. -/
def roundTo53 (n : Nat) : Nat :=
  let unit := Nat.pow 2 (n.log2 - 52)
  let quotient := n / unit
  let excess := n % unit
  if unit < 2 * excess || (unit == 2 * excess && quotient % 2 == 1) then (quotient + 1) * unit
  else quotient * unit

/-- The least number that rounds to 2^1024: halfway between it and the float below. -/
def overflowBound : Nat :=
  Nat.pow 2 1024 - Nat.pow 2 970

/-- Whether the numeral stands for a finite float. -/
def isFinite (n : Numeral) : Bool :=
  let (significand, power) := n.scaled
  significand == 0 || decide (power < 0) ||
    (decide (power ≤ 308) &&
      decide (roundTo53 significand * roundTo53 (Nat.pow 10 power.toNat) < overflowBound))

/-- Splits digits off the front. -/
def takeDigits (cs : List Char) : List Char × List Char :=
  (cs.takeWhile Char.isDigit, cs.dropWhile Char.isDigit)

/-- Reads the digits before the point: a zero stands alone. -/
def readWhole (cs : List Char) : Option (List Char × List Char) :=
  match takeDigits cs with
  | ([], _) => none
  | ('0' :: _ :: _, _) => none
  | (digits, rest) => some (digits, rest)

def readFraction : List Char → Option (List Char × List Char)
  | '.' :: rest =>
    match takeDigits rest with
    | ([], _) => none
    | (digits, rest) => some (digits, rest)
  | cs => some ([], cs)

def readExponentDigits (negative : Bool) (cs : List Char) :
    Option (Option (Bool × List Char) × List Char) :=
  match takeDigits cs with
  | ([], _) => none
  | (digits, rest) => some (some (negative, digits), rest)

def readExponent : List Char → Option (Option (Bool × List Char) × List Char)
  | c :: rest =>
    if c = 'e' ∨ c = 'E' then
      match rest with
      | '-' :: rest => readExponentDigits true rest
      | '+' :: rest => readExponentDigits false rest
      | rest => readExponentDigits false rest
    else some (none, c :: rest)
  | [] => some (none, [])

def readMagnitude (negative : Bool) (cs : List Char) : Option (Numeral × List Char) := do
  let (whole, rest) ← readWhole cs
  let (fraction, rest) ← readFraction rest
  let (exponent, rest) ← readExponent rest
  some (⟨negative, whole, fraction, exponent⟩, rest)

/-- Reads a numeral from the front of a text. -/
def read : List Char → Option (Numeral × List Char)
  | '-' :: rest => readMagnitude true rest
  | cs => readMagnitude false cs

/-- The written form. -/
def write (n : Numeral) : List Char :=
  (if n.negative then ['-'] else []) ++ n.whole ++
    (if n.fraction.isEmpty then [] else '.' :: n.fraction) ++
    match n.exponent with
    | none => []
    | some (negative, digits) => 'e' :: (if negative then '-' :: digits else digits)

end Numeral

end SegmentWire.Json
