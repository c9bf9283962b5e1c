import Mathlib.Data.List.Forall2
import SegmentWire.Error

/-!
# Results

How a chain of steps that may fail succeeds, and how a step that is run on each
element of a list does.
-/
namespace SegmentWire

variable {ε α β : Type}

lemma bind_eq_ok {x : Except ε α} {f : α → Except ε β} {b : β} :
    (x >>= f) = .ok b ↔ ∃ a, x = .ok a ∧ f a = .ok b := by
  cases x <;> simp [bind, Except.bind]

lemma bind_eq_error {x : Except ε α} {f : α → Except ε β} {e : ε} :
    (x >>= f) = .error e ↔ x = .error e ∨ ∃ a, x = .ok a ∧ f a = .error e := by
  cases x <;> simp [bind, Except.bind]

@[simp] lemma ok_bind (a : α) (f : α → Except ε β) : ((Except.ok a : Except ε α) >>= f) = f a := rfl

@[simp] lemma error_bind (e : ε) (f : α → Except ε β) :
    ((Except.error e : Except ε α) >>= f) = .error e := rfl

/-- Two continuations need to agree only on what the first step can give. -/
lemma bind_congr_ok {x : Except ε α} {f g : α → Except ε β} (h : ∀ a, x = .ok a → f a = g a) :
    (x >>= f) = (x >>= g) := by
  cases x with
  | ok a => exact h a rfl
  | error e => rfl

/-- A list on which a step succeeds gives one result for each element, in order. -/
lemma mapM_eq_ok_iff {f : α → Except ε β} {xs : List α} {ys : List β} :
    xs.mapM f = .ok ys ↔ List.Forall₂ (fun x y => f x = .ok y) xs ys := by
  induction xs generalizing ys with
  | nil => cases ys <;> simp [pure, Except.pure]
  | cons x xs ih =>
    rw [List.mapM_cons, bind_eq_ok]
    constructor
    · intro h
      obtain ⟨y, hy, h⟩ := h
      obtain ⟨zs, hzs, h⟩ := bind_eq_ok.mp h
      cases h
      exact .cons hy (ih.mp hzs)
    · rintro (_ | ⟨hy, hys⟩)
      exact ⟨_, hy, bind_eq_ok.mpr ⟨_, ih.mpr hys, rfl⟩⟩

/-- A list on which a step fails gives the error of the first element on which it does. -/
lemma mapM_of_first_error {f : α → Except ε β} {before after : List α} {x : α} {e : ε}
    (hbefore : ∀ y ∈ before, ∃ b, f y = .ok b) (hx : f x = .error e) :
    (before ++ x :: after).mapM f = .error e := by
  induction before with
  | nil => rw [List.nil_append, List.mapM_cons, hx, error_bind]
  | cons y before ih =>
    obtain ⟨⟨b, hb⟩, hbefore⟩ := List.forall_mem_cons.mp hbefore
    rw [List.cons_append, List.mapM_cons, hb, ok_bind, ih hbefore, error_bind]

/-- A step fails on a list exactly if there is a first element on which it does. -/
lemma mapM_eq_error_iff {f : α → Except ε β} {xs : List α} {e : ε} :
    xs.mapM f = .error e ↔ ∃ before x after, xs = before ++ x :: after ∧
      (∀ y ∈ before, ∃ b, f y = .ok b) ∧ f x = .error e := by
  constructor
  · intro h
    induction xs with
    | nil => cases h
    | cons x xs ih =>
      rw [List.mapM_cons] at h
      obtain hx | ⟨b, hb, h⟩ := bind_eq_error.mp h
      · exact ⟨[], x, xs, rfl, List.forall_mem_nil _, hx⟩
      · obtain hxs | ⟨ys, -, h⟩ := bind_eq_error.mp h
        · obtain ⟨before, y, after, rfl, hbefore, hy⟩ := ih hxs
          exact ⟨x :: before, y, after, rfl, List.forall_mem_cons.mpr ⟨⟨b, hb⟩, hbefore⟩, hy⟩
        · cases h
  · rintro ⟨before, x, after, rfl, hbefore, hx⟩
    exact mapM_of_first_error hbefore hx

/-! ### Results that agree -/

/-- Both fail with the same error, or their results are related. -/
inductive Agree (R : α → β → Prop) : Except ε α → Except ε β → Prop
  | ok {a : α} {b : β} : R a b → Agree R (.ok a) (.ok b)
  | error (e : ε) : Agree R (.error e) (.error e)

namespace Agree

variable {γ δ : Type} {R : α → β → Prop} {S : γ → δ → Prop}

lemma refl (result : Except ε β) : Agree Eq result result := by
  cases result with
  | ok b => exact .ok rfl
  | error e => exact .error e

lemma eq {result other : Except ε β} (h : Agree Eq result other) : result = other := by
  cases h with
  | ok h => rw [h]
  | error e => rfl

lemma bind {work : Except ε α} {plain : Except ε β} {next : α → Except ε γ}
    {plainNext : β → Except ε δ} (h : Agree R work plain)
    (hnext : ∀ a b, R a b → Agree S (next a) (plainNext b)) :
    Agree S (work >>= next) (plain >>= plainNext) := by
  cases h with
  | ok h => exact hnext _ _ h
  | error e => exact .error e

end Agree

end SegmentWire
