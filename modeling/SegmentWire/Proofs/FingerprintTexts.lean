import SegmentWire.Fingerprint.Json
import SegmentWire.Proofs.JsonTexts

/-!
# Texts of fingerprints

A fingerprint is read from 64 hexadecimal digits in either case, and is written in lower
case. The first digit of each byte may also be a plus sign, which counts as zero. A text
without one is read as a fingerprint exactly if it is written like that up to case.
-/
namespace SegmentWire

namespace Hex

/-- The digits, letters in either case. -/
def alphabet : List Char :=
  ['0', '1', '2', '3', '4', '5', '6', '7', '8', '9', 'a', 'b', 'c', 'd', 'e', 'f',
    'A', 'B', 'C', 'D', 'E', 'F']

/-- A character as it is written again: digits in lower case, and zero for a plus sign. -/
def rewritten (c : Char) : Char :=
  if c = '+' then '0' else c.toLower

/-- A text of two characters to a byte. The first may be a plus sign. -/
def Paired : List Char → Prop
  | [] => True
  | [_] => False
  | high :: low :: rest => (high ∈ alphabet ∨ high = '+') ∧ low ∈ alphabet ∧ Paired rest

/-! ### Single digits -/

lemma digit?_eq_some_iff {c : Char} {d : Nat} (hd : d < 16) :
    Unsigned.digit? 16 c = some d ↔ c ∈ alphabet ∧ Nat.digitChar d = c.toLower := by
  have all : ∀ n < 128, ∀ d < 16, Unsigned.digit? 16 (Char.ofNat n) = some d ↔
      Char.ofNat n ∈ alphabet ∧ Nat.digitChar d = (Char.ofNat n).toLower := by
    decide +kernel
  have ascii : alphabet.all (fun c => decide (c.toNat < 128)) = true := by decide
  by_cases hc : c.toNat < 128
  · have hall := all c.toNat hc d hd
    rwa [Char.ofNat_toNat] at hall
  · have hnone : Unsigned.digit? 16 c = none := by
      unfold Unsigned.digit?
      have h9 : ¬ c ≤ '9' := fun h => hc (Nat.lt_of_le_of_lt h (by decide))
      have hz : ¬ c ≤ 'z' := fun h => hc (Nat.lt_of_le_of_lt h (by decide))
      have hZ : ¬ c ≤ 'Z' := fun h => hc (Nat.lt_of_le_of_lt h (by decide))
      simp [h9, hz, hZ]
    have hnot : c ∉ alphabet := fun h =>
      hc (of_decide_eq_true (List.all_eq_true.mp ascii c h))
    simp [hnone, hnot]

/-- What the first character of a pair counts as. -/
def lead? (c : Char) : Option Nat :=
  if c = '+' then some 0 else Unsigned.digit? 16 c

lemma lead?_eq_some_iff {c : Char} {d : Nat} (hd : d < 16) :
    lead? c = some d ↔ (c ∈ alphabet ∨ c = '+') ∧ Nat.digitChar d = rewritten c := by
  have hplus : ∀ d < 16, some 0 = some d ↔ Nat.digitChar d = '0' := by decide
  by_cases hc : c = '+'
  · simp [lead?, rewritten, hc, hplus d hd]
  · simp [lead?, rewritten, hc, digit?_eq_some_iff hd]

lemma lead?_lt {c : Char} {d : Nat} (h : lead? c = some d) : d < 16 := by
  unfold lead? at h
  split_ifs at h
  · cases h
    decide
  · exact Unsigned.digit?_lt h

lemma exists_lead {c : Char} (h : c ∈ alphabet ∨ c = '+') :
    ∃ d < 16, Nat.digitChar d = rewritten c := by
  have all : ('+' :: alphabet).all (fun c => (lead? c).isSome) = true := by decide
  obtain ⟨d, hd⟩ := Option.isSome_iff_exists.mp
    (List.all_eq_true.mp all c (List.mem_cons.mpr h.symm))
  have hlt := lead?_lt hd
  exact ⟨d, hlt, ((lead?_eq_some_iff hlt).mp hd).2⟩

/-! ### Pairs -/

lemma readDigits_last {n : Nat} (hn : n < 16) (low : Char) :
    (Unsigned.readDigits 16 256 n [low]).toOption =
      (Unsigned.digit? 16 low).map fun l => n * 16 + l := by
  rw [Unsigned.readDigits]
  cases hlow : Unsigned.digit? 16 low with
  | none => rfl
  | some l =>
    have hl := Unsigned.digit?_lt hlow
    have hbound : n * 16 + l < 256 := by omega
    simp only [if_pos hbound]
    rfl

lemma byte?_eq (high low : Char) :
    byte? high low = (lead? high).bind fun h =>
      (Unsigned.digit? 16 low).map fun l => UInt8.ofNat (h * 16 + l) := by
  by_cases hplus : high = '+'
  · subst hplus
    calc byte? '+' low
      _ = (Unsigned.readDigits 16 256 0 [low]).toOption.map UInt8.ofNat := rfl
      _ = _ := by
        rw [readDigits_last (by decide), Option.map_map]
        rfl
  · have hread : Unsigned.read 16 256 [high, low] = Unsigned.readDigits 16 256 0 [high, low] := by
      rw [Unsigned.read]
      all_goals simp [hplus]
    rw [byte?, hread, lead?, if_neg hplus, Unsigned.readDigits]
    cases hhigh : Unsigned.digit? 16 high with
    | none => rfl
    | some h =>
      have hh := Unsigned.digit?_lt hhigh
      have hbound : 0 * 16 + h < 256 := by omega
      simp only [if_pos hbound]
      rw [readDigits_last (by omega), Option.map_map, Nat.zero_mul, Nat.zero_add]
      rfl

lemma byteDigits_ofNat {h l : Nat} (hh : h < 16) (hl : l < 16) :
    byteDigits (UInt8.ofNat (h * 16 + l)) = [Nat.digitChar h, Nat.digitChar l] := by
  have hvalue : (UInt8.ofNat (h * 16 + l)).toNat = h * 16 + l :=
    UInt8.toNat_ofNat_of_lt' (by simp only [UInt8.size]; omega)
  have hquot : (h * 16 + l) / 16 = h := by omega
  have hrem : (h * 16 + l) % 16 = l := by omega
  rw [byteDigits, hvalue, hquot, hrem]

lemma rewritten_of_mem {c : Char} (h : c ∈ alphabet) : rewritten c = c.toLower :=
  if_neg fun hc => by simp [hc, alphabet] at h

lemma byte?_eq_some_iff {high low : Char} {b : UInt8} :
    byte? high low = some b ↔ (high ∈ alphabet ∨ high = '+') ∧ low ∈ alphabet ∧
      byteDigits b = [rewritten high, rewritten low] := by
  simp only [byte?_eq, Option.bind_eq_some_iff, Option.map_eq_some_iff]
  constructor
  · rintro ⟨h, hhigh, l, hlow, rfl⟩
    have hh := lead?_lt hhigh
    have hl := Unsigned.digit?_lt hlow
    obtain ⟨hlead, hh'⟩ := (lead?_eq_some_iff hh).mp hhigh
    obtain ⟨hdigit, hl'⟩ := (digit?_eq_some_iff hl).mp hlow
    rw [byteDigits_ofNat hh hl, hh', hl', rewritten_of_mem hdigit]
    exact ⟨hlead, hdigit, rfl⟩
  · rintro ⟨hlead, hdigit, hb⟩
    have hlt := b.toNat_lt
    simp only [byteDigits, List.cons.injEq, and_true] at hb
    refine ⟨_, (lead?_eq_some_iff (by omega)).mpr ⟨hlead, hb.1⟩, _,
      (digit?_eq_some_iff (by omega)).mpr ⟨hdigit, hb.2.trans (rewritten_of_mem hdigit)⟩, ?_⟩
    rw [Nat.div_add_mod' b.toNat 16, UInt8.ofNat_toNat]

/-! ### Texts -/

lemma digits_cons (b : UInt8) (bs : Bytes) : digits (b :: bs) = byteDigits b ++ digits bs := rfl

/-- Bytes are read from a text of pairs that is their digits when it is written again. -/
theorem decode?_eq_some_iff {cs : List Char} {bs : Bytes} :
    decode? cs = some bs ↔ Paired cs ∧ digits bs = cs.map rewritten := by
  induction cs using decode?.induct generalizing bs with
  | case1 =>
    cases bs with
    | nil => simp [decode?, Paired, digits]
    | cons b bs => simp [decode?, Paired, digits, byteDigits]
  | case2 c => simp [decode?, Paired]
  | case3 high low rest ih =>
    simp only [decode?, Option.bind_eq_bind, Option.bind_eq_some_iff, byte?_eq_some_iff, ih, Paired,
      List.map_cons]
    constructor
    · rintro ⟨b, ⟨hlead, hdigit, hb⟩, tail, ⟨hpaired, htail⟩, hbs⟩
      cases hbs
      rw [digits_cons, hb, htail]
      exact ⟨⟨hlead, hdigit, hpaired⟩, rfl⟩
    · rintro ⟨⟨hlead, hdigit, hpaired⟩, hbs⟩
      cases bs with
      | nil => simp [digits] at hbs
      | cons b tail =>
        simp only [digits_cons, byteDigits, List.cons_append, List.nil_append, List.cons.injEq]
          at hbs
        obtain ⟨hhigh, hlow, htail⟩ := hbs
        exact ⟨b, ⟨hlead, hdigit, by rw [byteDigits, hhigh, hlow]⟩, tail, ⟨hpaired, htail⟩, rfl⟩

/-- Every text of pairs is read. -/
lemma Paired.exists_decode? {cs : List Char} (h : Paired cs) : ∃ bs, decode? cs = some bs := by
  induction cs using decode?.induct with
  | case1 => exact ⟨[], rfl⟩
  | case2 c => exact h.elim
  | case3 high low rest ih =>
    obtain ⟨hlead, hdigit, hpaired⟩ := h
    obtain ⟨bs, hbs⟩ := ih hpaired
    obtain ⟨h, hh, hhigh⟩ := exists_lead hlead
    obtain ⟨l, hl, hlow⟩ := exists_lead (.inl hdigit)
    have hb : byte? high low = some (UInt8.ofNat (h * 16 + l)) :=
      byte?_eq_some_iff.mpr ⟨hlead, hdigit, by rw [byteDigits_ofNat hh hl, hhigh, hlow]⟩
    exact ⟨UInt8.ofNat (h * 16 + l) :: bs, by rw [decode?, hb, hbs]; rfl⟩

lemma paired_iff {cs : List Char} (plusFree : '+' ∉ cs) :
    Paired cs ↔ Even cs.length ∧ ∀ c ∈ cs, c ∈ alphabet := by
  induction cs using decode?.induct with
  | case1 => simp [Paired]
  | case2 c => simp [Paired]
  | case3 high low rest ih =>
    simp only [List.mem_cons, not_or] at plusFree
    obtain ⟨hhigh, hlow, hrest⟩ := plusFree
    simp only [Paired, ih hrest, Ne.symm hhigh, or_false, List.length_cons, Nat.even_add_one,
      not_not, List.forall_mem_cons]
    tauto

lemma map_rewritten {cs : List Char} (plusFree : '+' ∉ cs) :
    cs.map rewritten = cs.map Char.toLower :=
  List.map_congr_left fun c hc => if_neg fun (hplus : c = '+') => plusFree (hplus ▸ hc)

end Hex

namespace Fingerprint

lemma toList_hex (f : Fingerprint) : f.hex.toList = Hex.digits f.bytes :=
  String.toList_ofList

/-- A fingerprint is read from a text of pairs that is its own text when it is written again. -/
theorem ofHex?_eq_some_iff {text : String} {f : Fingerprint} :
    ofHex? text = some f ↔
      Hex.Paired text.toList ∧ f.hex.toList = text.toList.map Hex.rewritten := by
  rw [toList_hex, ← Hex.decode?_eq_some_iff, ofHex?]
  constructor
  · intro h
    obtain ⟨bs, hbs, hf⟩ := Option.bind_eq_some_iff.mp h
    split_ifs at hf
    cases hf
    exact hbs
  · intro h
    rw [h]
    exact dif_pos f.length_bytes

lemma exists_ofHex?_iff {text : String} :
    (∃ f, ofHex? text = some f) ↔ text.length = 64 ∧ Hex.Paired text.toList := by
  rw [← String.length_toList]
  constructor
  · rintro ⟨f, hf⟩
    obtain ⟨hpaired, htext⟩ := ofHex?_eq_some_iff.mp hf
    have hlength := congrArg List.length htext
    rw [toList_hex, Hex.length_digits, f.length_bytes, List.length_map] at hlength
    exact ⟨hlength.symm, hpaired⟩
  · rintro ⟨htext, hpaired⟩
    obtain ⟨bs, hbs⟩ := hpaired.exists_decode?
    have hlength := congrArg List.length (Hex.decode?_eq_some_iff.mp hbs).2
    rw [Hex.length_digits, List.length_map] at hlength
    exact ⟨⟨bs, by omega⟩, by rw [ofHex?, hbs]; exact dif_pos (by omega)⟩

/-- A text without a plus sign is read exactly if it is 64 hexadecimal digits. -/
lemma exists_ofHex?_iff_digits {text : String} (plusFree : '+' ∉ text.toList) :
    (∃ f, ofHex? text = some f) ↔ text.length = 64 ∧ ∀ c ∈ text.toList, c ∈ Hex.alphabet := by
  rw [exists_ofHex?_iff, Hex.paired_iff plusFree, String.length_toList]
  refine and_congr_right fun hlength => ?_
  rw [hlength]
  exact and_iff_right (by decide)

/-- A text without a plus sign is that of its fingerprint, up to case. -/
lemma hex_of_ofHex? {text : String} {f : Fingerprint} (plusFree : '+' ∉ text.toList)
    (h : ofHex? text = some f) : f.hex = text.toLower := by
  obtain ⟨-, htext⟩ := ofHex?_eq_some_iff.mp h
  have hlower : text.toLower.toList = text.toList.map Char.toLower := String.toList_map
  rw [← String.toList_inj, htext, Hex.map_rewritten plusFree, hlower]

lemma ofBytes?_of_string {bs : Bytes} {text : String} (h : Json.ofBytes? bs = some (.string text)) :
    ofBytes? bs = ofHex? text := by
  rw [ofBytes?, h]
  rfl

lemma ofBytes?_render_string (layout : Json.Layout) (text : String) :
    Json.ofBytes? (Json.textBytes ((Json.string text).render layout)) = some (.string text) :=
  (Json.ofBytes?_render (Json.readsBack_string text)).trans (if_pos (Nat.zero_le _))

/-- A text is a fingerprint exactly if it has 32 pairs, each of two digits or of a plus sign and a
digit. The fingerprint is written as the text is, in lower case and with zeros for plus signs.
Without a plus sign these are the texts of 64 digits, and those of one fingerprint differ in case
only. It is the same for a string in JSON, however that is written. Every fingerprint is read back
from its text. -/
theorem ofHex?_exact (text : String) :
    ((∃ f, ofHex? text = some f) ↔ text.length = 64 ∧ Hex.Paired text.toList) ∧
    (∀ f, ofHex? text = some f → f.hex.toList = text.toList.map Hex.rewritten) ∧
    ('+' ∉ text.toList →
      ((∃ f, ofHex? text = some f) ↔
        text.length = 64 ∧ ∀ c ∈ text.toList, c ∈ Hex.alphabet) ∧
      ∀ f, ofHex? text = some f → f.hex = text.toLower ∧
        ∀ other : String, '+' ∉ other.toList → ofHex? other = some f →
          other.toLower = text.toLower) ∧
    (∀ bs, Json.ofBytes? bs = some (.string text) → ofBytes? bs = ofHex? text) ∧
    (∀ layout,
      Json.ofBytes? (Json.textBytes ((Json.string text).render layout)) = some (.string text)) ∧
    (∀ f : Fingerprint, ofHex? f.hex = some f) ∧ Function.Injective hex := by
  refine ⟨exists_ofHex?_iff, fun f hf => (ofHex?_eq_some_iff.mp hf).2, fun plusFree => ⟨?_, ?_⟩,
    fun bs => ofBytes?_of_string, fun layout => ofBytes?_render_string layout text, ofHex?_hex, ?_⟩
  · exact exists_ofHex?_iff_digits plusFree
  · intro f hf
    have htext := hex_of_ofHex? plusFree hf
    exact ⟨htext, fun other hother h => (hex_of_ofHex? hother h).symm.trans htext⟩
  · intro f g hfg
    have hread := ofHex?_hex f
    rw [hfg, ofHex?_hex] at hread
    exact (Option.some.inj hread).symm

/-- A text of 64 characters of which the first is no digit is read as a fingerprint. -/
theorem ofHex?_plus_sign :
    let text := "+123456789abcdef0123456789abcdef0123456789abcdef0123456789abcdef"
    (∃ f, ofHex? text = some f ∧
      f.hex = "0123456789abcdef0123456789abcdef0123456789abcdef0123456789abcdef") ∧
    ¬ ∀ c ∈ text.toList, c ∈ Hex.alphabet := by
  intro text
  let bs : Bytes := (List.replicate 4 [0x01, 0x23, 0x45, 0x67, 0x89, 0xab, 0xcd, 0xef]).flatten
  have hread : ofHex? text = some ⟨bs, rfl⟩ := by decide +kernel
  exact ⟨⟨_, hread, by decide +kernel⟩, fun h => absurd (h '+' (by decide)) (by decide)⟩

end Fingerprint

end SegmentWire
