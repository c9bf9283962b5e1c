import Mathlib.Data.List.TakeWhile
import Mathlib.Tactic.IntervalCases
import SegmentWire.Json.Reading
import SegmentWire.Json.Writing

/-!
# Numbers and strings in JSON text

A number that is written in decimal, and a string that is written between quotation
marks, are read as what they were. A string ends with its closing quotation mark. A
number ends where the text cannot go on with it, so what follows it matters.
-/
namespace SegmentWire.Json

/-- A text that no number goes on with. -/
def EndsNumber (rest : List Char) : Prop :=
  ∀ c more, rest = c :: more → c.isDigit = false ∧ c ≠ '.' ∧ c ≠ 'e' ∧ c ≠ 'E'

lemma endsNumber_nil : EndsNumber [] := by
  intro c more h
  cases h

lemma endsNumber_cons {c : Char} (h : c.isDigit = false ∧ c ≠ '.' ∧ c ≠ 'e' ∧ c ≠ 'E')
    (more : List Char) : EndsNumber (c :: more) := by
  intro d rest heq
  cases heq
  exact h

/-! ### Numbers -/

lemma head?_toDigits_ne {n : Nat} (h : 0 < n) : (Nat.toDigits 10 n).head? ≠ some '0' := by
  induction n using Nat.strongRecOn with
  | ind n ih =>
    rw [Nat.toDigits_eq_if (by decide)]
    by_cases hsmall : n < 10
    · rw [if_pos hsmall, List.head?_cons]
      interval_cases n <;> decide
    · have hquot := ih (n / 10) (by omega) (by omega)
      obtain ⟨c, digits, hdigits⟩ :=
        List.exists_cons_of_ne_nil (Nat.toDigits_ne_nil (n := n / 10) (b := 10))
      rw [if_neg hsmall]
      rwa [hdigits] at hquot ⊢

/-- Only zero is written with a zero in front. -/
lemma toDigits_ne_zero_cons (n : Nat) (c : Char) (digits : List Char) :
    Nat.toDigits 10 n ≠ '0' :: c :: digits := by
  intro hdigits
  obtain rfl | hpos := Nat.eq_zero_or_pos n
  · rw [Nat.toDigits_zero] at hdigits
    cases hdigits
  · exact head?_toDigits_ne hpos (by rw [hdigits, List.head?_cons])

namespace Numeral

lemma isDigit_of_mem_toDigits {n : Nat} : ∀ c ∈ Nat.toDigits 10 n, c.isDigit = true :=
  fun _ hc => Nat.isDigit_of_mem_toDigits (by decide) (by decide) hc

lemma takeDigits_append {digits rest : List Char} (hdigits : ∀ c ∈ digits, c.isDigit = true)
    (hrest : EndsNumber rest) : takeDigits (digits ++ rest) = (digits, rest) := by
  have hstop : rest.takeWhile Char.isDigit = [] ∧ rest.dropWhile Char.isDigit = rest := by
    cases rest with
    | nil => exact ⟨rfl, rfl⟩
    | cons c more =>
      obtain ⟨hc, -⟩ := hrest c more rfl
      simp [hc]
  rw [takeDigits, List.takeWhile_append_of_pos hdigits, List.dropWhile_append_of_pos hdigits,
    hstop.1, hstop.2, List.append_nil]

lemma readWhole_toDigits (n : Nat) {rest : List Char} (hrest : EndsNumber rest) :
    readWhole (Nat.toDigits 10 n ++ rest) = some (Nat.toDigits 10 n, rest) := by
  rw [readWhole, takeDigits_append isDigit_of_mem_toDigits hrest]
  split
  · rename_i heq
    exact absurd (congrArg Prod.fst heq) Nat.toDigits_ne_nil
  · rename_i heq
    exact absurd (congrArg Prod.fst heq) (toDigits_ne_zero_cons n _ _)
  · rename_i heq
    cases heq
    rfl

lemma readFraction_of_endsNumber {rest : List Char} (hrest : EndsNumber rest) :
    readFraction rest = some ([], rest) := by
  unfold readFraction
  split
  · exact absurd rfl (hrest _ _ rfl).2.1
  · rfl

lemma readExponent_of_endsNumber {rest : List Char} (hrest : EndsNumber rest) :
    readExponent rest = some (none, rest) := by
  cases rest with
  | nil => rfl
  | cons c more =>
    obtain ⟨-, -, he, hE⟩ := hrest c more rfl
    unfold readExponent
    exact if_neg (not_or.mpr ⟨he, hE⟩)

lemma natOfDigits_toDigits (n : Nat) : natOfDigits (Nat.toDigits 10 n) = n := by
  have hfold : natOfDigits (Nat.toDigits 10 n) = Nat.ofDigitChars 10 (Nat.toDigits 10 n) 0 := by
    simp only [natOfDigits, Nat.ofDigitChars_eq_foldl, digitValue, Nat.mul_comm]
  rw [hfold, Nat.ofDigitChars_ten_toDigits]

/-- A number in decimal is a numeral of its digits. -/
theorem read_toDigits (n : Nat) {rest : List Char} (hrest : EndsNumber rest) :
    read (Nat.toDigits 10 n ++ rest) = some (⟨false, Nat.toDigits 10 n, [], none⟩, rest) := by
  have hmagnitude : readMagnitude false (Nat.toDigits 10 n ++ rest) =
      some (⟨false, Nat.toDigits 10 n, [], none⟩, rest) := by
    simp [readMagnitude, readWhole_toDigits n hrest, readFraction_of_endsNumber hrest,
      readExponent_of_endsNumber hrest]
  unfold read
  split
  · rename_i more heq
    obtain ⟨c, digits, hdigits⟩ :=
      List.exists_cons_of_ne_nil (Nat.toDigits_ne_nil (n := n) (b := 10))
    have hsign : c = '-' := by
      rw [hdigits] at heq
      exact (List.cons.inj heq).1
    have hdigit := isDigit_of_mem_toDigits (n := n) c (by simp [hdigits])
    rw [hsign] at hdigit
    cases hdigit
  · exact hmagnitude

end Numeral

/-- Every unsigned number is read back. -/
theorem readNumber_toDigits (value : UInt64) {rest : List Char} (hrest : EndsNumber rest) :
    readNumber (Nat.toDigits 10 value.toNat ++ rest) = some (unsigned value, rest) := by
  have hunsigned : (⟨false, Nat.toDigits 10 value.toNat, [], none⟩ : Numeral).unsigned? =
      some value := by
    have hlt := value.toNat_lt
    simp [Numeral.unsigned?, Numeral.isWhole, Numeral.natOfDigits_toDigits, hlt]
  simp [readNumber, Numeral.read_toDigits _ hrest, hunsigned]

/-! ### Strings -/

namespace Quoted

/-- What a character is read as: control characters without a letter of their own are given by
their number. -/
def piece (c : Char) : Piece :=
  if c.toNat < 0x20 ∧ c ∉ ['\x08', '\x0c', '\n', '\r', '\t'] then .unit c.toNat else .char c

lemma unit?_hexPair {n : Nat} (h : n < 0x20) :
    unit? '0' '0' (Nat.digitChar (n / 16 % 16)) (Nat.digitChar (n % 16)) = some n := by
  have hall : ∀ n < 0x20,
      unit? '0' '0' (Nat.digitChar (n / 16 % 16)) (Nat.digitChar (n % 16)) = some n := by
    decide
  exact hall n h

lemma map_piece (result : Option (List Piece × List Char)) (p : Piece) :
    (result >>= fun (pieces, rest) => some (p :: pieces, rest)) =
      result.map fun (pieces, rest) => (p :: pieces, rest) := by
  cases result <;> rfl

/-- A letter after a backslash. -/
lemma readPieces_letter {letter c : Char} (hletter : letter ≠ 'u')
    (hc : unescape? letter = some c) (rest : List Char) :
    readPieces ('\\' :: letter :: rest) =
      (readPieces rest).map fun (pieces, rest) => (.char c :: pieces, rest) := by
  rw [readPieces]
  · rw [hc]
    exact map_piece _ _
  · intro _ _ _ _ _ hu
    exact absurd hu hletter

/-- A character that stands for itself. -/
lemma readPieces_plain {c : Char} (hquote : c ≠ '"') (hbackslash : c ≠ '\\')
    (hcontrol : ¬ c.toNat < 0x20) (rest : List Char) :
    readPieces (c :: rest) =
      (readPieces rest).map fun (pieces, rest) => (.char c :: pieces, rest) := by
  rw [readPieces]
  · rw [if_neg (not_or.mpr ⟨hbackslash, hcontrol⟩)]
    exact map_piece _ _
  all_goals simp [hquote, hbackslash]

/-- A character that is written is read as one piece. -/
lemma readPieces_escape (c : Char) (rest : List Char) :
    readPieces (escape c ++ rest) =
      (readPieces rest).map fun (pieces, rest) => (piece c :: pieces, rest) := by
  unfold escape
  split_ifs with hquote hbackslash hb hf hn hr ht hcontrol
  · subst hquote
    exact readPieces_letter (by decide) rfl rest
  · subst hbackslash
    exact readPieces_letter (by decide) rfl rest
  · subst hb
    exact readPieces_letter (by decide) rfl rest
  · subst hf
    exact readPieces_letter (by decide) rfl rest
  · subst hn
    exact readPieces_letter (by decide) rfl rest
  · subst hr
    exact readPieces_letter (by decide) rfl rest
  · subst ht
    exact readPieces_letter (by decide) rfl rest
  · have hpiece : piece c = .unit c.toNat := if_pos ⟨hcontrol, by simp [hb, hf, hn, hr, ht]⟩
    simp only [hexPair, List.cons_append, List.nil_append, readPieces, unit?_hexPair hcontrol,
      hpiece]
    exact map_piece _ _
  · have hpiece : piece c = .char c := if_neg fun h => hcontrol h.1
    rw [hpiece]
    exact readPieces_plain hquote hbackslash hcontrol rest

lemma readPieces_flatMap (cs rest : List Char) :
    readPieces (cs.flatMap escape ++ '"' :: rest) = some (cs.map piece, rest) := by
  induction cs with
  | nil => simp [readPieces]
  | cons c cs ih =>
    rw [List.flatMap_cons, List.append_assoc, readPieces_escape, ih]
    rfl

/-- A control character is no half of a surrogate pair. -/
lemma joinUnits_unit {n : Nat} (h : n < 0x20) (pieces : List Piece) :
    joinUnits (.unit n :: pieces) = (joinUnits pieces).map (Char.ofNat n :: ·) := by
  have hleading : isLeading n = false := by
    simp only [isLeading, Bool.and_eq_false_iff, decide_eq_false_iff_not]
    omega
  have htrailing : isTrailing n = false := by
    simp only [isTrailing, Bool.and_eq_false_iff, decide_eq_false_iff_not]
    omega
  match pieces with
  | [] => simp [joinUnits, hleading, htrailing]
  | .char c :: pieces => simp [joinUnits, hleading, htrailing]
  | .unit low :: pieces => simp [joinUnits, hleading, htrailing]

lemma joinUnits_map_piece (cs : List Char) : joinUnits (cs.map piece) = some cs := by
  induction cs with
  | nil => rfl
  | cons c cs ih =>
    rw [List.map_cons]
    by_cases hcontrol : c.toNat < 0x20 ∧ c ∉ ['\x08', '\x0c', '\n', '\r', '\t']
    · rw [piece, if_pos hcontrol, joinUnits_unit hcontrol.1, ih, Char.ofNat_toNat]
      rfl
    · rw [piece, if_neg hcontrol, joinUnits, ih]
      rfl

/-- Every string is read back, whatever follows it. -/
theorem read_write (text : String) (rest : List Char) :
    ∃ more, write text ++ rest = '"' :: more ∧ read more = some (text, rest) := by
  refine ⟨text.toList.flatMap escape ++ '"' :: rest, by simp [write], ?_⟩
  simp [read, readPieces_flatMap, joinUnits_map_piece]

end Quoted

end SegmentWire.Json
