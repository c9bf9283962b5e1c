import Mathlib.Data.List.Infix
import Mathlib.Data.List.TakeWhile
import SegmentWire.IsdAsn.Text
import SegmentWire.Proofs.Results
import SegmentWire.Proofs.UnsignedTexts

/-!
# Texts of ISD-AS numbers

The forms in which an ISD-AS number is written, and that reading accepts exactly these. Every
number is read back from each of its texts. Where the two parts are written apart, each of
them has to fit its own bits: what is too large for them is refused.
-/
namespace SegmentWire

namespace Text

lemma parts_eq_splitOn (separator : Char) (cs : List Char) :
    parts separator cs = cs.splitOn separator := by
  induction cs with
  | nil => rfl
  | cons c cs ih =>
    rw [parts, ih, List.splitOn_cons_eq_if_modifyHead]
    cases hparts : cs.splitOn separator with
    | nil => exact absurd hparts (List.splitOn_ne_nil separator cs)
    | cons first rest => simp [List.modifyHead]

lemma eq_of_parts_three {separator : Char} {cs a b c : List Char}
    (h : parts separator cs = [a, b, c]) : cs = a ++ separator :: (b ++ separator :: c) := by
  have hjoin : [separator].intercalate (cs.splitOn separator) = cs :=
    List.intercalate_splitOn separator
  rw [← parts_eq_splitOn, h] at hjoin
  rw [← hjoin]
  simp [List.intercalate]

lemma parts_three {separator : Char} {a b c : List Char} (ha : separator ∉ a)
    (hb : separator ∉ b) (hc : separator ∉ c) :
    parts separator (a ++ separator :: (b ++ separator :: c)) = [a, b, c] := by
  have hsplit : ([separator].intercalate [a, b, c]).splitOn separator = [a, b, c] :=
    List.splitOn_intercalate separator (by simp [ha, hb, hc]) (by simp)
  rw [parts_eq_splitOn, ← hsplit]
  simp [List.intercalate]

end Text

namespace IsdAsn

open Unsigned (value? padded)

/-! ### The forms -/

/-- A text of an AS: a number in decimal, or three groups of hexadecimal digits, 16 bits each, with
colons between them. -/
inductive WrittenAsn : List Char → Nat → Prop
  | decimal {cs : List Char} {asn : Nat} : value? 10 cs = some asn → asn < 0x1000000000000 →
      WrittenAsn cs asn
  | groups {a b c : List Char} {x y z : Nat} : value? 16 a = some x → x < 0x10000 →
      value? 16 b = some y → y < 0x10000 → value? 16 c = some z → z < 0x10000 →
      WrittenAsn (a ++ ':' :: (b ++ ':' :: c)) ((x * 0x10000 + y) * 0x10000 + z)

/-- A text of an ISD-AS number: the packed number, in hexadecimal after `0x` or in decimal, or the
two parts with a hyphen between them. -/
inductive Written : List Char → IsdAsn → Prop
  | hexadecimal {digits : List Char} {ia : IsdAsn} : value? 16 digits = some ia.packed.toNat →
      Written ('0' :: 'x' :: digits) ia
  | decimal {digits : List Char} {ia : IsdAsn} : value? 10 digits = some ia.packed.toNat →
      Written digits ia
  | parts {before after : List Char} {ia : IsdAsn} : value? 10 before = some ia.isd →
      WrittenAsn after ia.asn → Written (before ++ '-' :: after) ia

/-- The packed number in hexadecimal, with zeros before it. -/
def hexadecimal (zeros : Nat) (ia : IsdAsn) : String :=
  "0x" ++ String.ofList (padded 16 zeros ia.packed.toNat)

/-- The isolation domain in decimal and the AS in three groups, each with zeros before it. -/
def displayGroups (first second third : Nat) (ia : IsdAsn) : String :=
  Nat.repr ia.isd ++ "-" ++ String.ofList (padded 16 first (ia.asn / 0x100000000)) ++ ":" ++
    String.ofList (padded 16 second (ia.asn / 0x10000 % 0x10000)) ++ ":" ++
    String.ofList (padded 16 third (ia.asn % 0x10000))

/-! ### The two parts -/

lemma mapError_eq_ok_iff {ε φ α : Type} {f : ε → φ} {x : Except ε α} {a : α} :
    x.mapError f = .ok a ↔ x = .ok a := by
  cases x <;> simp [Except.mapError]

/-- A number that is put together of two parts has these parts. -/
lemma eq_ofNat_iff {ia : IsdAsn} {isd asn : Nat} (hisd : isd < 0x10000)
    (hasn : asn < 0x1000000000000) :
    ia = ⟨UInt64.ofNat (isd * 0x1000000000000 + asn)⟩ ↔ ia.isd = isd ∧ ia.asn = asn := by
  have hpacked : (UInt64.ofNat (isd * 0x1000000000000 + asn)).toNat =
      isd * 0x1000000000000 + asn := UInt64.toNat_ofNat_of_lt' (by simp only [UInt64.size]; omega)
  have hia := ia.isd_asn_packed
  constructor
  · rintro rfl
    simp only [IsdAsn.isd, IsdAsn.asn, hpacked]
    omega
  · rintro ⟨rfl, rfl⟩
    obtain ⟨packed⟩ := ia
    rw [hia, UInt64.ofNat_toNat]

lemma readGroups_cons {n m : Nat} {group : List Char} {rest : List (List Char)} :
    readGroups n (group :: rest) = .ok m ↔ ∃ value, value? 16 group = some value ∧
      value < 0x10000 ∧ readGroups (n * 0x10000 + value) rest = .ok m := by
  have hbind : readGroups n (group :: rest) =
      Unsigned.read 16 0x10000 group >>= fun value => readGroups (n * 0x10000 + value) rest := by
    rw [readGroups]
    cases Unsigned.read 16 0x10000 group <;> rfl
  rw [hbind, bind_eq_ok]
  simp only [Unsigned.read_eq_ok_iff (show 0 < 16 by decide) (show 0 < 0x10000 by decide),
    and_assoc]

lemma readGroups_nil {n m : Nat} : readGroups n [] = .ok m ↔ n = m := by
  rw [readGroups, Except.ok.injEq]

lemma readGroups_three {a b c : List Char} {m : Nat} :
    readGroups 0 [a, b, c] = .ok m ↔ ∃ x, value? 16 a = some x ∧ x < 0x10000 ∧
      ∃ y, value? 16 b = some y ∧ y < 0x10000 ∧
      ∃ z, value? 16 c = some z ∧ z < 0x10000 ∧ (x * 0x10000 + y) * 0x10000 + z = m := by
  simp only [readGroups_cons, readGroups_nil, Nat.zero_mul, Nat.zero_add]

lemma notMem_hyphen {radix n : Nat} {cs : List Char} (h : value? radix cs = some n) : '-' ∉ cs :=
  Unsigned.notMem_of_value? h (by decide) rfl

lemma notMem_colon {radix n : Nat} {cs : List Char} (h : value? radix cs = some n) : ':' ∉ cs :=
  Unsigned.notMem_of_value? h (by decide) rfl

lemma WrittenAsn.parts_eq {cs : List Char} {asn : Nat} (h : WrittenAsn cs asn) (hcolon : ':' ∈ cs) :
    ∃ a b c x y z, Text.parts ':' cs = [a, b, c] ∧ value? 16 a = some x ∧ x < 0x10000 ∧
      value? 16 b = some y ∧ y < 0x10000 ∧ value? 16 c = some z ∧ z < 0x10000 ∧
      (x * 0x10000 + y) * 0x10000 + z = asn := by
  cases h with
  | decimal hvalue _ => exact absurd hcolon (notMem_colon hvalue)
  | groups hx hxlt hy hylt hz hzlt =>
    exact ⟨_, _, _, _, _, _, Text.parts_three (notMem_colon hx) (notMem_colon hy) (notMem_colon hz),
      hx, hxlt, hy, hylt, hz, hzlt, rfl⟩

lemma WrittenAsn.value?_eq {cs : List Char} {asn : Nat} (h : WrittenAsn cs asn)
    (hcolon : ':' ∉ cs) : value? 10 cs = some asn ∧ asn < 0x1000000000000 := by
  cases h with
  | decimal hvalue hlt => exact ⟨hvalue, hlt⟩
  | groups => simp at hcolon

lemma readAsn_of_colon {cs : List Char} (hcolon : ':' ∈ cs) :
    readAsn cs = if (Text.parts ':' cs).length = 3 then
      (readGroups 0 (Text.parts ':' cs)).mapError .asn else .error .groupCount := by
  rw [readAsn, if_pos hcolon]

theorem readAsn_eq_ok_iff {cs : List Char} {asn : Nat} :
    (readAsn cs = .ok asn ∧ asn < 0x1000000000000) ↔ WrittenAsn cs asn := by
  by_cases hcolon : ':' ∈ cs
  · rw [readAsn_of_colon hcolon]
    constructor
    · rintro ⟨hread, -⟩
      split at hread
      · rename_i hthree
        obtain ⟨a, b, c, hparts⟩ := List.length_eq_three.mp hthree
        rw [hparts, mapError_eq_ok_iff, readGroups_three] at hread
        obtain ⟨x, hx, hxlt, y, hy, hylt, z, hz, hzlt, rfl⟩ := hread
        rw [Text.eq_of_parts_three hparts]
        exact .groups hx hxlt hy hylt hz hzlt
      · cases hread
    · intro h
      obtain ⟨a, b, c, x, y, z, hparts, hx, hxlt, hy, hylt, hz, hzlt, rfl⟩ := h.parts_eq hcolon
      rw [hparts, if_pos (by rfl), mapError_eq_ok_iff, readGroups_three]
      exact ⟨⟨x, hx, hxlt, y, hy, hylt, z, hz, hzlt, rfl⟩, by omega⟩
  · rw [readAsn, if_neg hcolon, mapError_eq_ok_iff,
      Unsigned.read_eq_ok_iff (by decide) (by decide)]
    constructor
    · rintro ⟨⟨hvalue, -⟩, hlt⟩
      exact .decimal hvalue hlt
    · intro h
      obtain ⟨hvalue, hlt⟩ := h.value?_eq hcolon
      exact ⟨⟨hvalue, by omega⟩, hlt⟩

theorem readParts_eq_ok_iff {before after : List Char} {ia : IsdAsn} :
    readParts before after = .ok ia ↔ value? 10 before = some ia.isd ∧ WrittenAsn after ia.asn := by
  simp only [readParts, bind_eq_ok, mapError_eq_ok_iff,
    Unsigned.read_eq_ok_iff (show 0 < 10 by decide) (show 0 < 0x10000 by decide)]
  constructor
  · rintro ⟨isd, ⟨hisd, hisdlt⟩, asn, hasn, hia⟩
    split at hia
    · rename_i hasnlt
      obtain ⟨rfl, rfl⟩ := (eq_ofNat_iff hisdlt hasnlt).mp (Except.ok.inj hia).symm
      exact ⟨hisd, readAsn_eq_ok_iff.mp ⟨hasn, hasnlt⟩⟩
    · cases hia
  · rintro ⟨hisd, hasn⟩
    obtain ⟨hread, hlt⟩ := readAsn_eq_ok_iff.mpr hasn
    refine ⟨ia.isd, ⟨hisd, ia.isd_lt⟩, ia.asn, hread, ?_⟩
    rw [if_pos hlt, ← (eq_ofNat_iff ia.isd_lt hlt).mpr ⟨rfl, rfl⟩]

/-! ### The whole text -/

lemma readPacked_eq_ok_iff {radix : Nat} (hradix : 0 < radix) {cs : List Char} {ia : IsdAsn} :
    readPacked radix cs = .ok ia ↔ value? radix cs = some ia.packed.toNat := by
  have hbind : readPacked radix cs =
      (Unsigned.read radix 0x10000000000000000 cs).mapError .packed >>= fun packed =>
        .ok ⟨UInt64.ofNat packed⟩ := by
    rw [readPacked]
    cases Unsigned.read radix 0x10000000000000000 cs <;> rfl
  simp only [hbind, bind_eq_ok, mapError_eq_ok_iff,
    Unsigned.read_eq_ok_iff hradix (show 0 < 0x10000000000000000 by decide), Except.ok.injEq]
  constructor
  · rintro ⟨packed, ⟨hvalue, hlt⟩, rfl⟩
    rw [hvalue, UInt64.toNat_ofNat_of_lt' hlt]
  · intro hvalue
    exact ⟨_, ⟨hvalue, ia.packed.toNat_lt⟩, by rw [UInt64.ofNat_toNat]⟩

/-- A text that does not begin as a hexadecimal number does is divided at its first hyphen. -/
lemma ofChars_of_hyphen {before after : List Char} (hbefore : '-' ∉ before)
    (hhead : ∀ digits, before ++ '-' :: after ≠ '0' :: 'x' :: digits) :
    ofChars (before ++ '-' :: after) = readParts before after := by
  have hspan : (before ++ '-' :: after).span (· != '-') = (before, '-' :: after) := by
    have hall : ∀ c ∈ before, (c != '-') = true := fun c hc => by
      simpa using fun heq : c = '-' => hbefore (heq ▸ hc)
    rw [List.span_eq_takeWhile_dropWhile, List.takeWhile_append_of_pos hall,
      List.dropWhile_append_of_pos hall]
    simp
  unfold ofChars
  split
  · rename_i digits heq
    exact absurd heq (hhead digits)
  · rw [hspan]

lemma ofChars_of_notMem {cs : List Char} (hhyphen : '-' ∉ cs)
    (hhead : ∀ digits, cs ≠ '0' :: 'x' :: digits) : ofChars cs = readPacked 10 cs := by
  have hspan : cs.span (· != '-') = (cs, []) := by
    have hall : ∀ c ∈ cs, (c != '-') = true := fun c hc => by
      simpa using fun heq : c = '-' => hhyphen (heq ▸ hc)
    rw [List.span_eq_takeWhile_dropWhile, List.takeWhile_eq_self_iff.mpr hall,
      List.dropWhile_eq_nil_iff.mpr hall]
  unfold ofChars
  split
  · rename_i digits
    exact absurd rfl (hhead digits)
  · rw [hspan]

lemma notMem_x {n : Nat} {cs : List Char} (h : value? 10 cs = some n) : 'x' ∉ cs :=
  Unsigned.notMem_of_value? h (by decide) rfl

/-- A number in decimal with a hyphen after it does not begin as a hexadecimal number does. -/
lemma append_hyphen_ne {n : Nat} {before after : List Char} (h : value? 10 before = some n)
    (digits : List Char) : before ++ '-' :: after ≠ '0' :: 'x' :: digits := by
  intro heq
  have hx := notMem_x h
  match before with
  | [] => simp at heq
  | [_] => simp at heq
  | _ :: _ :: _ =>
    simp only [List.cons_append, List.cons.injEq] at heq
    simp [heq.2.1] at hx

/-- Where a text has a hyphen, the two parts are the texts before and after the first one. -/
lemma ofChars_hyphen_eq_ok_iff {before after : List Char} (hbefore : '-' ∉ before) {ia : IsdAsn} :
    ofChars (before ++ '-' :: after) = .ok ia ↔
      value? 10 before = some ia.isd ∧ WrittenAsn after ia.asn := by
  by_cases hhead : ∃ digits, before ++ '-' :: after = '0' :: 'x' :: digits
  · obtain ⟨digits, heq⟩ := hhead
    refine iff_of_false (fun h => ?_) fun h => append_hyphen_ne h.1 digits heq
    have hhyphen : '-' ∈ '0' :: 'x' :: digits := heq ▸ by simp
    rw [heq] at h
    exact notMem_hyphen ((readPacked_eq_ok_iff (by decide)).mp h) (by simpa using hhyphen)
  · rw [ofChars_of_hyphen hbefore (not_exists.mp hhead), readParts_eq_ok_iff]

theorem ofChars_eq_ok_iff {cs : List Char} {ia : IsdAsn} : ofChars cs = .ok ia ↔ Written cs ia := by
  constructor
  · intro h
    by_cases hhyphen : '-' ∈ cs
    · obtain ⟨before, after, rfl, hbefore⟩ := List.eq_append_cons_of_mem hhyphen
      obtain ⟨hisd, hasn⟩ := (ofChars_hyphen_eq_ok_iff hbefore).mp h
      exact .parts hisd hasn
    · by_cases hhead : ∃ digits, cs = '0' :: 'x' :: digits
      · obtain ⟨digits, rfl⟩ := hhead
        exact .hexadecimal ((readPacked_eq_ok_iff (by decide)).mp h)
      · rw [ofChars_of_notMem hhyphen (not_exists.mp hhead)] at h
        exact .decimal ((readPacked_eq_ok_iff (by decide)).mp h)
  · intro h
    cases h with
    | hexadecimal hvalue => exact (readPacked_eq_ok_iff (by decide)).mpr hvalue
    | decimal hvalue =>
      have hhead : ∀ digits, cs ≠ '0' :: 'x' :: digits := by
        rintro digits rfl
        exact notMem_x hvalue (by simp)
      rw [ofChars_of_notMem (notMem_hyphen hvalue) hhead]
      exact (readPacked_eq_ok_iff (by decide)).mpr hvalue
    | parts hisd hasn => exact (ofChars_hyphen_eq_ok_iff (notMem_hyphen hisd)).mpr ⟨hisd, hasn⟩

/-- A text is read as an ISD-AS number exactly if it is one of the texts of that number. -/
theorem ofText_eq_ok_iff {text : String} {ia : IsdAsn} :
    ofText text = .ok ia ↔ Written text.toList ia :=
  ofChars_eq_ok_iff

/-! ### Written numbers -/

lemma written_repr (ia : IsdAsn) : Written (Nat.repr ia.packed.toNat).toList ia := by
  rw [Nat.toList_repr]
  exact .decimal (Unsigned.value?_toDigits (by decide) (by decide) _)

lemma written_hexadecimal (zeros : Nat) (ia : IsdAsn) :
    Written (ia.hexadecimal zeros).toList ia := by
  have htext : (ia.hexadecimal zeros).toList = '0' :: 'x' :: padded 16 zeros ia.packed.toNat := by
    simp [hexadecimal]
  rw [htext]
  exact .hexadecimal (Unsigned.value?_padded (by decide) (by decide) _ _)

lemma written_display (ia : IsdAsn) : Written ia.display.toList ia := by
  have htext : ia.display.toList = Nat.toDigits 10 ia.isd ++ '-' :: Nat.toDigits 10 ia.asn := by
    simp [display]
  rw [htext]
  exact .parts (Unsigned.value?_toDigits (by decide) (by decide) _)
    (.decimal (Unsigned.value?_toDigits (by decide) (by decide) _) ia.asn_lt)

lemma written_displayGroups (first second third : Nat) (ia : IsdAsn) :
    Written (ia.displayGroups first second third).toList ia := by
  have htext : (ia.displayGroups first second third).toList = Nat.toDigits 10 ia.isd ++ '-' ::
      (padded 16 first (ia.asn / 0x100000000) ++ ':' ::
        (padded 16 second (ia.asn / 0x10000 % 0x10000) ++ ':' ::
          padded 16 third (ia.asn % 0x10000))) := by
    simp [displayGroups]
  have hasn := ia.asn_lt
  have hvalue : ∀ zeros n, value? 16 (padded 16 zeros n) = some n :=
    Unsigned.value?_padded (by decide) (by decide)
  have hgroups := WrittenAsn.groups (hvalue first (ia.asn / 0x100000000)) (by omega)
    (hvalue second (ia.asn / 0x10000 % 0x10000)) (by omega)
    (hvalue third (ia.asn % 0x10000)) (by omega)
  have hsum : (ia.asn / 0x100000000 * 0x10000 + ia.asn / 0x10000 % 0x10000) * 0x10000 +
      ia.asn % 0x10000 = ia.asn := by omega
  rw [hsum] at hgroups
  rw [htext]
  exact .parts (Unsigned.value?_toDigits (by decide) (by decide) _) hgroups

/-! ### Parts that are too large -/

/-- A text is refused if it is no text of any number. -/
lemma exists_error_of_not_ok {text : String} (h : ∀ ia, ofText text ≠ .ok ia) :
    ∃ fault, ofText text = .error fault := by
  cases htext : ofText text with
  | ok ia => exact absurd htext (h ia)
  | error fault => exact ⟨fault, rfl⟩

/-- What a group of a written AS stands for fits 16 bits. -/
lemma WrittenAsn.group_lt {cs group : List Char} {asn n : Nat} (h : WrittenAsn cs asn)
    (hcolon : ':' ∈ cs) (hgroup : group ∈ Text.parts ':' cs) (hn : value? 16 group = some n) :
    n < 0x10000 := by
  obtain ⟨a, b, c, x, y, z, hparts, hx, hxlt, hy, hylt, hz, hzlt, -⟩ := h.parts_eq hcolon
  rw [hparts] at hgroup
  simp only [List.mem_cons, List.not_mem_nil, or_false] at hgroup
  obtain rfl | rfl | rfl := hgroup
  · obtain rfl := Option.some.inj (hx.symm.trans hn)
    exact hxlt
  · obtain rfl := Option.some.inj (hy.symm.trans hn)
    exact hylt
  · obtain rfl := Option.some.inj (hz.symm.trans hn)
    exact hzlt

/-- Every number is read back from its texts, and a text is read exactly if it is a text of a
number. Where a text has a hyphen, the number before the first one is the isolation domain and the
number after it the AS. A part, or a group of the AS, that is too large for its bits is refused. -/
theorem ofText_written (ia : IsdAsn) (text : String) :
    (ofText (Nat.repr ia.packed.toNat) = .ok ia ∧
      (∀ zeros, ofText (ia.hexadecimal zeros) = .ok ia) ∧
      ofText ia.display = .ok ia ∧
      ∀ first second third, ofText (ia.displayGroups first second third) = .ok ia) ∧
    (∀ read, ofText text = .ok read ↔ Written text.toList read) ∧
    ('-' ∈ text.toList → ∃ before after,
      text.toList = before ++ '-' :: after ∧ '-' ∉ before ∧
      (∀ read, ofText text = .ok read ↔
        value? 10 before = some read.isd ∧ WrittenAsn after read.asn) ∧
      (∀ isd, value? 10 before = some isd → 0x10000 ≤ isd → ∃ fault, ofText text = .error fault) ∧
      (∀ asn, value? 10 after = some asn → 0x1000000000000 ≤ asn →
        ∃ fault, ofText text = .error fault) ∧
      ∀ group ∈ Text.parts ':' after, ':' ∈ after → ∀ n, value? 16 group = some n →
        0x10000 ≤ n → ∃ fault, ofText text = .error fault) := by
  refine ⟨⟨?_, fun zeros => ?_, ?_, fun first second third => ?_⟩,
    fun read => ofText_eq_ok_iff, fun hhyphen => ?_⟩
  · exact ofText_eq_ok_iff.mpr ia.written_repr
  · exact ofText_eq_ok_iff.mpr (ia.written_hexadecimal zeros)
  · exact ofText_eq_ok_iff.mpr ia.written_display
  · exact ofText_eq_ok_iff.mpr (ia.written_displayGroups first second third)
  obtain ⟨before, after, htext, hbefore⟩ := List.eq_append_cons_of_mem hhyphen
  have hread : ∀ read, ofText text = .ok read ↔
      value? 10 before = some read.isd ∧ WrittenAsn after read.asn := by
    intro read
    rw [ofText, htext, ofChars_hyphen_eq_ok_iff hbefore]
  refine ⟨before, after, htext, hbefore, hread, ?_, ?_, ?_⟩
  · intro isd hisd hlarge
    refine exists_error_of_not_ok fun read h => ?_
    obtain rfl := Option.some.inj (hisd.symm.trans ((hread read).mp h).1)
    exact Nat.not_lt.mpr hlarge read.isd_lt
  · intro asn hasn hlarge
    refine exists_error_of_not_ok fun read h => ?_
    obtain ⟨hvalue, hlt⟩ := ((hread read).mp h).2.value?_eq (notMem_colon hasn)
    obtain rfl := Option.some.inj (hasn.symm.trans hvalue)
    exact Nat.not_lt.mpr hlarge hlt
  · intro group hgroup hcolon n hn hlarge
    refine exists_error_of_not_ok fun read h => ?_
    exact Nat.not_lt.mpr hlarge (((hread read).mp h).2.group_lt hcolon hgroup hn)

/-- The same number with zeros before it and in groups, where its parts are read off the text. -/
theorem ofText_written_groups :
    let ia : IsdAsn := ⟨0x0001ff0000000110⟩
    ofText "0x0001ff0000000110" = .ok ia ∧ ofText "1-ff00:0:110" = .ok ia ∧
      '-' ∈ "1-ff00:0:110".toList ∧ ∃ before after,
        "1-ff00:0:110".toList = before ++ '-' :: after ∧ '-' ∉ before ∧
        value? 10 before = some 1 ∧ WrittenAsn after 0xff0000000110 := by
  intro ia
  obtain ⟨⟨-, hhexadecimal, -, hgroups⟩, -, hparts⟩ := ofText_written ia "1-ff00:0:110"
  have hpadded : ia.hexadecimal 3 = "0x0001ff0000000110" := by decide +kernel
  have hdisplay : ia.displayGroups 0 0 0 = "1-ff00:0:110" := by decide +kernel
  have hread : ofText "1-ff00:0:110" = .ok ia := hdisplay ▸ hgroups 0 0 0
  have hhyphen : '-' ∈ "1-ff00:0:110".toList := by decide +kernel
  obtain ⟨before, after, htext, hbefore, hsplit, -⟩ := hparts hhyphen
  obtain ⟨hisd, hasn⟩ := (hsplit ia).mp hread
  have hia : ia.isd = 1 ∧ ia.asn = 0xff0000000110 := by decide +kernel
  rw [hia.1] at hisd
  rw [hia.2] at hasn
  exact ⟨hpadded ▸ hhexadecimal 3, hread, hhyphen, before, after, htext, hbefore, hisd, hasn⟩

/-- What is too large for the isolation domain is not cut off, and no AS reaches into its bits. -/
example : ofText "65537-1" = .error (.isd .tooLarge) ∧
    ofText "1-281474976710656" = .error .asnTooLarge := by decide +kernel

end IsdAsn

end SegmentWire
