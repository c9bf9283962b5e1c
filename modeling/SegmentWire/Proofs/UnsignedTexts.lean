import Mathlib.Data.Nat.Digits.Defs
import Mathlib.Tactic.Ring
import SegmentWire.Text.Unsigned

/-!
# Texts of unsigned numbers

A text of digits stands for a number in positional notation, however large it is. A bounded
reading gives that number exactly if it is below the bound. A number is read back from the
digits that it is written with, whatever zeros stand before them.
-/
namespace SegmentWire.Unsigned

/-- A text without a plus sign at its front. -/
def withoutSign : List Char → List Char
  | '+' :: cs => cs
  | cs => cs

/-- The number that a text of digits stands for, most significant digit first. -/
def positional? (radix : Nat) (cs : List Char) : Option Nat :=
  (cs.mapM (digit? radix)).map fun digits => Nat.ofDigits radix digits.reverse

/-- The number that a text stands for: one digit or more, and a plus sign before them or none. -/
def value? (radix : Nat) (cs : List Char) : Option Nat :=
  if withoutSign cs = [] then none else positional? radix (withoutSign cs)

variable {radix bound n m d : Nat} {c : Char} {cs : List Char}

/-! ### Positional notation -/

lemma positional?_nil : positional? radix [] = some 0 := rfl

lemma length_of_mapM {digits : List Nat} (h : cs.mapM (digit? radix) = some digits) :
    digits.length = cs.length := by
  induction cs generalizing digits with
  | nil =>
    cases h
    rfl
  | cons c cs ih =>
    rw [List.mapM_cons] at h
    obtain ⟨d, -, h⟩ := Option.bind_eq_some_iff.mp h
    obtain ⟨rest, hrest, h⟩ := Option.bind_eq_some_iff.mp h
    cases h
    rw [List.length_cons, List.length_cons, ih hrest]

/-- The first digit counts with the power that belongs to its place. -/
lemma positional?_cons : positional? radix (c :: cs) =
    (digit? radix c).bind fun d =>
      (positional? radix cs).map fun v => d * radix ^ cs.length + v := by
  rw [positional?, positional?, List.mapM_cons]
  cases digit? radix c with
  | none => rfl
  | some d =>
    cases hdigits : cs.mapM (digit? radix) with
    | none => rfl
    | some digits =>
      have hvalue : Nat.ofDigits radix (d :: digits).reverse =
          d * radix ^ cs.length + Nat.ofDigits radix digits.reverse := by
        rw [Nat.ofDigits_reverse_cons, length_of_mapM hdigits, Nat.add_comm, Nat.mul_comm]
      exact congrArg some hvalue

/-- The last digit counts once. -/
lemma positional?_concat : positional? radix (cs ++ [c]) =
    (positional? radix cs).bind fun v => (digit? radix c).map fun d => v * radix + d := by
  rw [positional?, positional?, List.mapM_append, List.mapM_cons, List.mapM_nil]
  cases cs.mapM (digit? radix) with
  | none => rfl
  | some digits =>
    cases digit? radix c with
    | none => rfl
    | some d =>
      have hvalue : Nat.ofDigits radix (digits ++ [d]).reverse =
          Nat.ofDigits radix digits.reverse * radix + d := by
        rw [List.reverse_append, List.reverse_singleton, List.singleton_append, Nat.ofDigits_cons,
          Nat.add_comm, Nat.mul_comm]
      exact congrArg some hvalue

/-! ### Bounded readings -/

/-- No digit makes the number smaller, so the bound needs to be kept only in the end. -/
lemma readDigits_eq_ok_iff (hradix : 0 < radix) (hn : n < bound) :
    readDigits radix bound n cs = .ok m ↔
      (∃ v, positional? radix cs = some v ∧ n * radix ^ cs.length + v = m) ∧ m < bound := by
  induction cs generalizing n with
  | nil =>
    simp only [readDigits, positional?_nil, Except.ok.injEq, Option.some.injEq, exists_eq_left',
      List.length_nil, pow_zero, Nat.mul_one, Nat.add_zero]
    exact ⟨fun h => ⟨h, h ▸ hn⟩, And.left⟩
  | cons c cs ih =>
    rw [readDigits, positional?_cons]
    cases digit? radix c with
    | none => simp
    | some d =>
      have hshift : ∀ v, n * radix ^ (cs.length + 1) + (d * radix ^ cs.length + v) =
          (n * radix + d) * radix ^ cs.length + v := by
        intro v
        ring
      simp only [Option.bind_some, Option.map_eq_some_iff, List.length_cons]
      by_cases hnext : n * radix + d < bound
      · rw [if_pos hnext, ih hnext]
        refine and_congr_left' ⟨?_, ?_⟩
        · rintro ⟨v, hv, rfl⟩
          exact ⟨_, ⟨v, hv, rfl⟩, hshift v⟩
        · rintro ⟨_, ⟨v, hv, rfl⟩, rfl⟩
          exact ⟨v, hv, (hshift v).symm⟩
      · rw [if_neg hnext]
        refine iff_of_false (fun h => by cases h) ?_
        rintro ⟨⟨_, ⟨v, -, rfl⟩, rfl⟩, hm⟩
        rw [hshift] at hm
        have hle : n * radix + d ≤ (n * radix + d) * radix ^ cs.length :=
          Nat.le_mul_of_pos_right _ (Nat.pow_pos hradix)
        omega

/-- Reading starts behind the sign and needs a digit there. -/
lemma read_cases (radix bound : Nat) (cs : List Char) :
    (withoutSign cs = [] ∧ ∃ fault, read radix bound cs = .error fault) ∨
      (withoutSign cs ≠ [] ∧ read radix bound cs = readDigits radix bound 0 (withoutSign cs)) := by
  unfold read
  split
  · exact .inl ⟨rfl, _, rfl⟩
  · exact .inl ⟨rfl, _, rfl⟩
  · rename_i cs hcs
    exact .inr ⟨fun h => hcs (by rw [withoutSign] at h; rw [h]), rfl⟩
  · rename_i hne _ hsign
    have hcs : withoutSign cs = cs := by
      unfold withoutSign
      split
      · exact absurd rfl (hsign _)
      · rfl
    rw [hcs]
    exact .inr ⟨fun h => hne h, rfl⟩

/-- A text is read as the number that it stands for, if that is below the bound. -/
theorem read_eq_ok_iff (hradix : 0 < radix) (hbound : 0 < bound) :
    read radix bound cs = .ok n ↔ value? radix cs = some n ∧ n < bound := by
  rw [value?]
  obtain ⟨hnone, fault, hread⟩ | ⟨hsome, hread⟩ := read_cases radix bound cs
  · rw [hread, if_pos hnone]
    simp
  · rw [hread, if_neg hsome, readDigits_eq_ok_iff hradix hbound]
    simp

/-! ### Written numbers -/

lemma digit?_digitChar (hradix : radix ≤ 16) (hd : d < radix) :
    digit? radix (Nat.digitChar d) = some d := by
  have all : ∀ radix < 17, ∀ d < radix, digit? radix (Nat.digitChar d) = some d := by
    decide +kernel
  exact all radix (by omega) d hd

lemma positional?_toDigits (hlow : 1 < radix) (hhigh : radix ≤ 16) (n : Nat) :
    positional? radix (Nat.toDigits radix n) = some n := by
  induction n using Nat.strongRecOn with
  | ind n ih =>
    rw [Nat.toDigits_eq_if hlow]
    by_cases hsmall : n < radix
    · rw [if_pos hsmall, positional?_cons, digit?_digitChar hhigh hsmall]
      simp [positional?_nil]
    · have hquot : n / radix < n := Nat.div_lt_self (by omega) hlow
      have hrem : n % radix < radix := Nat.mod_lt _ (by omega)
      rw [if_neg hsmall, positional?_concat, ih _ hquot, digit?_digitChar hhigh hrem]
      exact congrArg some (Nat.div_add_mod' n radix)

lemma positional?_zeros (hlow : 0 < radix) (hhigh : radix ≤ 16) (zeros : Nat) :
    positional? radix (List.replicate zeros '0' ++ cs) = positional? radix cs := by
  induction zeros with
  | zero => rfl
  | succ zeros ih =>
    have hzero : digit? radix '0' = some 0 := digit?_digitChar hhigh hlow
    rw [List.replicate_succ, List.cons_append, positional?_cons, ih, hzero]
    simp

lemma digit?_plus : digit? radix '+' = none := rfl

lemma value?_of_positional? (hne : cs ≠ []) (h : positional? radix cs = some n) :
    value? radix cs = some n := by
  have hcs : withoutSign cs = cs := by
    unfold withoutSign
    split
    · rw [positional?_cons, digit?_plus] at h
      cases h
    · rfl
  rw [value?, hcs, if_neg hne, h]

/-- A number with zeros before it. -/
def padded (radix zeros n : Nat) : List Char :=
  List.replicate zeros '0' ++ Nat.toDigits radix n

theorem value?_padded (hlow : 1 < radix) (hhigh : radix ≤ 16) (zeros n : Nat) :
    value? radix (padded radix zeros n) = some n := by
  refine value?_of_positional? ?_ ?_
  · exact List.append_ne_nil_of_right_ne_nil _ Nat.toDigits_ne_nil
  · rw [padded, positional?_zeros (by omega) hhigh, positional?_toDigits hlow hhigh]

theorem value?_toDigits (hlow : 1 < radix) (hhigh : radix ≤ 16) (n : Nat) :
    value? radix (Nat.toDigits radix n) = some n :=
  value?_padded hlow hhigh 0 n

/-! ### What stands in a number -/

lemma digit?_of_positional? (h : positional? radix cs = some n) (hc : c ∈ cs) :
    digit? radix c ≠ none := by
  induction cs generalizing n with
  | nil => simp at hc
  | cons head cs ih =>
    rw [positional?_cons] at h
    obtain ⟨d, hd, h⟩ := Option.bind_eq_some_iff.mp h
    obtain ⟨v, hv, -⟩ := Option.map_eq_some_iff.mp h
    obtain rfl | hc := List.mem_cons.mp hc
    · simp [hd]
    · exact ih hv hc

/-- A character that is no digit and no plus sign is not part of a number. -/
lemma notMem_of_value? (h : value? radix cs = some n) (hsign : c ≠ '+')
    (hdigit : digit? radix c = none) : c ∉ cs := by
  intro hc
  have hdigits : positional? radix (withoutSign cs) = some n := by
    rw [value?] at h
    split at h
    · cases h
    · exact h
  have hmem : c ∈ withoutSign cs := by
    unfold withoutSign
    split
    · exact (List.mem_cons.mp hc).resolve_left hsign
    · exact hc
  exact digit?_of_positional? hdigits hmem hdigit

end SegmentWire.Unsigned
