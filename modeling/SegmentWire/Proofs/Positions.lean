import Mathlib.Data.List.Forall2
import Std.Data.TreeMap.Lemmas
import SegmentWire.IndexTable
import SegmentWire.Proofs.Results
import SegmentWire.Proofs.Subsegments

/-!
# Positions

An index table numbers slots. A slot holds what was registered at its position, or
nothing if the position was only reserved. What a table answers is the last slot
that holds the fingerprint asked for, and every operation of the table appends one
slot or fails because all positions are taken.
-/
namespace SegmentWire

section LastPosition

variable {α β : Type} [DecidableEq α] [DecidableEq β]

/-- The last position at which a list of slots holds a value. -/
def lastPosition? (a : α) : List (Option α) → Option Nat
  | [] => none
  | slot :: slots =>
    match lastPosition? a slots with
    | some i => some (i + 1)
    | none => if slot = some a then some 0 else none

lemma lastPosition?_append (a : α) (slots later : List (Option α)) :
    lastPosition? a (slots ++ later) =
      match lastPosition? a later with
      | some i => some (slots.length + i)
      | none => lastPosition? a slots := by
  induction slots with
  | nil => cases h : lastPosition? a later <;> simp [h, lastPosition?]
  | cons slot slots ih =>
    rw [List.cons_append, lastPosition?, ih]
    cases h : lastPosition? a later with
    | none => simp [lastPosition?]
    | some i => simp only [List.length_cons, Option.some.injEq]; omega

@[simp] lemma lastPosition?_concat (a : α) (slots : List (Option α)) (slot : Option α) :
    lastPosition? a (slots ++ [slot]) =
      if slot = some a then some slots.length else lastPosition? a slots := by
  rw [lastPosition?_append]
  by_cases h : slot = some a <;> simp [lastPosition?, h]

lemma lastPosition?_eq_none_iff {a : α} {slots : List (Option α)} :
    lastPosition? a slots = none ↔ some a ∉ slots := by
  induction slots with
  | nil => simp [lastPosition?]
  | cons slot slots ih =>
    cases h : lastPosition? a slots with
    | none =>
      have hnot := ih.mp h
      by_cases hslot : slot = some a <;>
        simp [lastPosition?, h, hnot, hslot, @eq_comm _ (some a) slot]
    | some i =>
      have hmem : some a ∈ slots := by
        by_contra hnot
        rw [ih.mpr hnot] at h
        cases h
      simp [lastPosition?, h, hmem]

lemma lastPosition?_isSome_iff {a : α} {slots : List (Option α)} :
    (lastPosition? a slots).isSome ↔ some a ∈ slots := by
  rw [← not_iff_not, Option.not_isSome_iff_eq_none, lastPosition?_eq_none_iff]

/-- Slots that do not hold the value leave its position alone. -/
lemma lastPosition?_append_of_notMem {a : α} {slots later : List (Option α)}
    (h : some a ∉ later) : lastPosition? a (slots ++ later) = lastPosition? a slots := by
  rw [lastPosition?_append, lastPosition?_eq_none_iff.mpr h]

lemma lastPosition?_eq_some_iff {a : α} {slots : List (Option α)} {i : Nat} :
    lastPosition? a slots = some i ↔
      slots[i]? = some (some a) ∧ ∀ j, i < j → slots[j]? ≠ some (some a) := by
  induction slots generalizing i with
  | nil => simp [lastPosition?]
  | cons slot slots ih =>
    cases h : lastPosition? a slots with
    | none =>
      have hnot : ∀ j, slots[j]? ≠ some (some a) := fun j hj =>
        lastPosition?_eq_none_iff.mp h (List.mem_of_getElem? hj)
      cases i with
      | zero =>
        have hlater : ∀ j, 0 < j → (slot :: slots)[j]? ≠ some (some a) := by
          intro j hj
          obtain ⟨j, rfl⟩ := Nat.exists_eq_add_of_lt hj
          simpa using hnot _
        simpa [lastPosition?, h] using fun _ => hlater
      | succ i =>
        by_cases hslot : slot = some a <;> simp [lastPosition?, h, hnot, hslot]
    | some k =>
      obtain ⟨hk, hlast⟩ := ih.mp h
      cases i with
      | zero =>
        have hlater : ∃ j, 0 < j ∧ (slot :: slots)[j]? = some (some a) := ⟨k + 1, by omega, hk⟩
        simpa [lastPosition?, h] using fun _ => hlater
      | succ i =>
        have hshift : (∀ j, i + 1 < j → (slot :: slots)[j]? ≠ some (some a)) ↔
            ∀ j, i < j → slots[j]? ≠ some (some a) := by
          constructor
          · intro hall j hj
            exact hall (j + 1) (by omega)
          · intro hall j hj
            obtain ⟨j, rfl⟩ : ∃ n, j = n + 1 := ⟨j - 1, by omega⟩
            exact hall j (by omega)
        rw [List.getElem?_cons_succ, hshift, ← ih, h]
        simp [lastPosition?, h]

lemma lastPosition?_lt {a : α} {slots : List (Option α)} {i : Nat}
    (h : lastPosition? a slots = some i) : i < slots.length :=
  (List.getElem?_eq_some_iff.mp (lastPosition?_eq_some_iff.mp h).1).1

/-- Only the places that hold the value matter. -/
lemma lastPosition?_congr {a : α} {slots others : List (Option α)}
    (h : List.Forall₂ (fun slot other => slot = some a ↔ other = some a) slots others) :
    lastPosition? a slots = lastPosition? a others := by
  induction h with
  | nil => rfl
  | cons hslot _ ih => simp only [lastPosition?, hslot, ih]

/-- Positions may be looked up by anything that tells the value from the others held. -/
lemma lastPosition?_map {f : α → β} {a : α} {slots : List (Option α)}
    (h : ∀ b, some b ∈ slots → f b = f a → b = a) :
    lastPosition? (f a) (slots.map (Option.map f)) = lastPosition? a slots := by
  induction slots with
  | nil => rfl
  | cons slot slots ih =>
    have hslot : slot.map f = some (f a) ↔ slot = some a := by
      cases slot with
      | none => simp
      | some b =>
        constructor
        · intro hb
          rw [h b (by simp) (by simpa using hb)]
        · intro hb
          rw [hb, Option.map_some]
    rw [List.map_cons, lastPosition?, ih fun b hb => h b (by simp [hb])]
    cases hrest : lastPosition? a slots <;> simp [lastPosition?, hrest, hslot]

end LastPosition

namespace IndexTable

/-- The table has numbered exactly these slots. -/
structure Tracks (table : IndexTable) (slots : List (Option Fingerprint)) : Prop where
  next_eq : table.next = slots.length
  length_le : slots.length ≤ capacity
  get?_eq : ∀ f, table.get? f = (lastPosition? f slots).map UInt16.ofNat

lemma tracks_empty : empty.Tracks [] where
  next_eq := rfl
  length_le := Nat.zero_le _
  get?_eq f := by simp [get?, empty, lastPosition?]

namespace Tracks

variable {table : IndexTable} {slots : List (Option Fingerprint)}

lemma contains_iff (h : table.Tracks slots) (f : Fingerprint) :
    table.contains f = true ↔ some f ∈ slots := by
  rw [← lastPosition?_isSome_iff, contains, Std.TreeMap.contains_eq_isSome_getElem?]
  have hget : table.positions[f]? = (lastPosition? f slots).map UInt16.ofNat := h.get?_eq f
  rw [hget, Option.isSome_map]

lemma reserve_cases (h : table.Tracks slots) :
    (∃ next, table.reserve = .ok (UInt16.ofNat slots.length, next) ∧
      next.Tracks (slots ++ [none])) ∨
    (slots.length = capacity ∧ table.reserve = .error (.indexOverflow capacity)) := by
  have hnext := h.next_eq
  have hle := h.length_le
  by_cases hlt : slots.length < capacity
  · left
    refine ⟨_, by rw [reserve_eq, hnext, if_pos hlt], ?_, ?_, ?_⟩
    · simp
    · rw [List.length_append, List.length_singleton]
      exact hlt
    · intro f
      have hold : table.positions[f]? = (lastPosition? f slots).map UInt16.ofNat := h.get?_eq f
      simpa [get?] using hold
  · right
    have heq : slots.length = capacity := by omega
    exact ⟨heq, by rw [reserve_eq, hnext, if_neg hlt, heq]⟩

lemma assign_cases (h : table.Tracks slots) (f : Fingerprint) :
    (∃ next, table.assign f = .ok (UInt16.ofNat slots.length, next) ∧
      next.Tracks (slots ++ [some f])) ∨
    (slots.length = capacity ∧ table.assign f = .error (.indexOverflow capacity)) := by
  obtain ⟨reserved, hreserve, htracks⟩ | ⟨hfull, hreserve⟩ := h.reserve_cases
  · left
    refine ⟨_, by rw [assign_eq, hreserve]; rfl, ?_, ?_, ?_⟩
    · simpa using htracks.next_eq
    · simpa using htracks.length_le
    · intro g
      have hold : reserved.positions[g]? = (lastPosition? g slots).map UInt16.ofNat := by
        simpa [get?] using htracks.get?_eq g
      by_cases hfg : f = g
      · simp [get?, hfg]
      · simp [get?, Std.TreeMap.getElem?_insert, hfg, hold]
  · right
    exact ⟨hfull, by rw [assign_eq, hreserve]; rfl⟩

lemma assignAll_cases (segments : List Segment) (h : table.Tracks slots) :
    (∃ next, table.assignAll segments = .ok next ∧
      next.Tracks (slots ++ segments.map fun s => some s.fingerprint)) ∨
    (capacity < slots.length + segments.length ∧
      table.assignAll segments = .error (.indexOverflow capacity)) := by
  induction segments generalizing table slots with
  | nil => exact .inl ⟨table, rfl, by simpa using h⟩
  | cons s segments ih =>
    obtain ⟨next, hassign, htracks⟩ | ⟨hfull, hassign⟩ := h.assign_cases s.fingerprint
    · obtain ⟨last, hall, hlast⟩ | ⟨hover, hall⟩ := ih htracks
      · exact .inl ⟨last, by rw [assignAll, hassign]; exact hall, by simpa using hlast⟩
      · refine .inr ⟨?_, by rw [assignAll, hassign]; exact hall⟩
        simp only [List.length_append, List.length_cons, List.length_nil] at hover ⊢
        omega
    · refine .inr ⟨?_, by rw [assignAll, hassign]⟩
      simp only [List.length_cons]
      omega

/-- The table of a cache: a segment that is cached twice has its last position. -/
lemma ofCache_cases (cache : List Segment) :
    (∃ table, ofCache cache = .ok table ∧
      table.Tracks (cache.map fun s => some s.fingerprint)) ∨
    (capacity < cache.length ∧ ofCache cache = .error (.indexOverflow capacity)) := by
  simpa [ofCache] using tracks_empty.assignAll_cases cache

end Tracks

end IndexTable

end SegmentWire
