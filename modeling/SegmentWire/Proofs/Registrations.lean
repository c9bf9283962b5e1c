import SegmentWire.IndexTable.Calls
import SegmentWire.Proofs.Positions

/-!
# Registrations

What a table answers is told by the registrations that succeeded, in order: those of
the cache that it was made for and those in the log of its calls. One call adds a
registration, takes a position without one, or fails because no position is left,
and then it has changed nothing. A table is in order after any calls because it is in
order before the first and each call keeps it so.
-/
namespace SegmentWire

/-- A fingerprint with the position that it was registered at. -/
abbrev Registration := Fingerprint × UInt16

/-- The position that the last registration of a fingerprint gave it. -/
def lastRegistered? (f : Fingerprint) (registered : List Registration) : Option UInt16 :=
  (registered.filter fun r => r.1 = f).getLast?.map Prod.snd

/-- The registrations of segments that are numbered from `next` on. -/
def numbered (next : Nat) (segments : List Segment) : List Registration :=
  (segments.zipIdx next).map fun entry => (entry.1.fingerprint, UInt16.ofNat entry.2)

/-- The registration that a logged call has made. -/
def TableEvent.registration? : TableEvent → Option Registration
  | ⟨.assign f, .ok position⟩ => some (f, position)
  | _ => none

def registrations (log : List TableEvent) : List Registration :=
  log.filterMap TableEvent.registration?

lemma registrations_cons (event : TableEvent) (log : List TableEvent) :
    registrations (event :: log) = event.registration?.toList ++ registrations log := by
  cases h : event.registration? <;> simp [registrations, h]

@[simp] lemma lastRegistered?_nil (f : Fingerprint) : lastRegistered? f [] = none := rfl

lemma lastRegistered?_concat (f g : Fingerprint) (position : UInt16)
    (registered : List Registration) :
    lastRegistered? f (registered ++ [(g, position)]) =
      if g = f then some position else lastRegistered? f registered := by
  by_cases h : g = f <;> simp [lastRegistered?, List.filter_append, h]

namespace IndexTable

variable {table : IndexTable} {registered : List Registration}

/-- The table answers what was registered, at different positions below the next one. -/
structure InOrder (table : IndexTable) (registered : List Registration) : Prop where
  next_le : table.next ≤ 65536
  get?_eq : ∀ f, table.get? f = lastRegistered? f registered
  lt_next : ∀ f position, table.get? f = some position → position.toNat < table.next
  get?_inj : ∀ f g position, table.get? f = some position → table.get? g = some position → f = g
  size_le : table.size ≤ table.next

/-- A call takes the next position, or fails without any change when there is none. -/
inductive Answered (table : IndexTable) : Except CodecError UInt16 × IndexTable → Prop
  | position {position : UInt16} {after : IndexTable} : table.next < 65536 →
      position.toNat = table.next → after.next = table.next + 1 →
      Answered table (.ok position, after)
  | overflow : table.next = 65536 → Answered table (.error (.indexOverflow 65536), table)

/-- The table after a fingerprint has been registered at the next position. -/
def register (table : IndexTable) (f : Fingerprint) : IndexTable :=
  ⟨table.positions.insert f (UInt16.ofNat table.next), table.next + 1⟩

/-- The table after the next position has been taken. -/
def skip (table : IndexTable) : IndexTable :=
  { table with next := table.next + 1 }

lemma toNat_next (h : table.next < 65536) : (UInt16.ofNat table.next).toNat = table.next :=
  UInt16.toNat_ofNat_of_lt' h

lemma get?_register (f g : Fingerprint) : (table.register g).get? f =
    if g = f then some (UInt16.ofNat table.next) else table.get? f := by
  by_cases h : g = f <;> simp [get?, register, Std.TreeMap.getElem?_insert, h]

lemma inOrder_empty : empty.InOrder [] where
  next_le := Nat.zero_le _
  get?_eq f := by simp [get?, empty]
  lt_next f position h := by simp [get?, empty] at h
  get?_inj f g position h := by simp [get?, empty] at h
  size_le := by simp [size, empty]

namespace InOrder

lemma register (h : table.InOrder registered) (hlt : table.next < 65536) (f : Fingerprint) :
    (table.register f).InOrder (registered ++ [(f, UInt16.ofNat table.next)]) where
  next_le := hlt
  get?_eq g := by rw [get?_register, lastRegistered?_concat, h.get?_eq]
  lt_next g position hg := by
    rw [get?_register] at hg
    show position.toNat < table.next + 1
    by_cases hfg : f = g
    · rw [if_pos hfg, Option.some.injEq] at hg
      rw [← hg, toNat_next hlt]
      omega
    · rw [if_neg hfg] at hg
      have hbelow := h.lt_next g position hg
      omega
  get?_inj g k position hg hk := by
    rw [get?_register] at hg hk
    -- The new position is above all others.
    have hnew : ∀ other, table.get? other ≠ some (UInt16.ofNat table.next) := by
      intro other hother
      have hbelow := h.lt_next other _ hother
      rw [toNat_next hlt] at hbelow
      omega
    by_cases hfg : f = g
    · by_cases hfk : f = k
      · rw [← hfg, hfk]
      · rw [if_pos hfg, Option.some.injEq] at hg
        rw [if_neg hfk, ← hg] at hk
        exact absurd hk (hnew k)
    · by_cases hfk : f = k
      · rw [if_pos hfk, Option.some.injEq] at hk
        rw [if_neg hfg, ← hk] at hg
        exact absurd hg (hnew g)
      · rw [if_neg hfg] at hg
        rw [if_neg hfk] at hk
        exact h.get?_inj g k position hg hk
  size_le := by
    have hsize : (table.register f).size ≤ table.size + 1 := Std.TreeMap.size_insert_le
    have hle := h.size_le
    show (table.register f).size ≤ table.next + 1
    omega

lemma skip (h : table.InOrder registered) (hlt : table.next < 65536) :
    table.skip.InOrder registered where
  next_le := hlt
  get?_eq := h.get?_eq
  lt_next f position hf := Nat.lt_succ_of_lt (h.lt_next f position hf)
  get?_inj := h.get?_inj
  size_le := Nat.le_succ_of_le h.size_le

end InOrder

/-! ### Calls -/

lemma run_assign_of_lt (h : table.next < 65536) (f : Fingerprint) :
    (TableM.assign f).run.run table = (.ok (UInt16.ofNat table.next), table.register f) := by
  rw [TableM.run_assign]
  exact if_pos h

lemma run_reserve_of_lt (h : table.next < 65536) :
    TableM.reserve.run.run table = (.ok (UInt16.ofNat table.next), table.skip) := by
  rw [TableM.run_reserve]
  exact if_pos h

/-- A call that fails leaves the table as it was. -/
lemma run_of_full (h : table.next = 65536) (call : TableCall) :
    call.perform.run.run table = (.error (.indexOverflow 65536), table) := by
  have hfull : ¬ table.next < capacity := by
    rw [h]
    decide
  cases call with
  | assign f => rw [TableCall.perform, TableM.run_assign, if_neg hfull, h]
  | reserve => rw [TableCall.perform, TableM.run_reserve, if_neg hfull, h]

lemma assign_of_lt (h : table.next < 65536) (f : Fingerprint) :
    table.assign f = .ok (UInt16.ofNat table.next, table.register f) := by
  rw [assign, TableM.resultOn, run_assign_of_lt h]

/-- After one call the table is in order with the registration that the call has made. -/
theorem InOrder.perform (h : table.InOrder registered) (call : TableCall) :
    table.Answered (call.perform.run.run table) ∧
      (call.perform.run.run table).2.InOrder (registered ++
        (TableEvent.registration? ⟨call, (call.perform.run.run table).1⟩).toList) := by
  have hle := h.next_le
  by_cases hlt : table.next < 65536
  · cases call with
    | assign f =>
      rw [TableCall.perform, run_assign_of_lt hlt]
      exact ⟨.position hlt (toNat_next hlt) rfl, h.register hlt f⟩
    | reserve =>
      rw [TableCall.perform, run_reserve_of_lt hlt]
      refine ⟨.position hlt (toNat_next hlt) rfl, ?_⟩
      simpa [TableEvent.registration?] using h.skip hlt
  · have hfull : table.next = 65536 := by omega
    rw [run_of_full hfull]
    refine ⟨.overflow hfull, ?_⟩
    simpa [TableEvent.registration?] using h

lemma serve_cons (table : IndexTable) (call : TableCall) (calls : List TableCall) :
    table.serve (call :: calls) =
      (⟨call, (call.perform.run.run table).1⟩ ::
        ((call.perform.run.run table).2.serve calls).1,
        ((call.perform.run.run table).2.serve calls).2) := rfl

/-- After any calls the table is in order with the registrations in their log. -/
theorem InOrder.serve (h : table.InOrder registered) (calls : List TableCall) :
    (table.serve calls).2.InOrder (registered ++ registrations (table.serve calls).1) := by
  induction calls generalizing table registered with
  | nil => simpa [IndexTable.serve, registrations] using h
  | cons call calls ih =>
    rw [serve_cons, registrations_cons, ← List.append_assoc]
    exact ih (h.perform call).2

lemma InOrder.assignAll (h : table.InOrder registered) {segments : List Segment}
    (hfits : table.next + segments.length ≤ 65536) :
    ∃ last, table.assignAll segments = .ok last ∧
      last.InOrder (registered ++ numbered table.next segments) := by
  induction segments generalizing table registered with
  | nil => exact ⟨table, rfl, by simpa [numbered] using h⟩
  | cons s segments ih =>
    rw [List.length_cons] at hfits
    have hlt : table.next < 65536 := by omega
    have hnext : (table.register s.fingerprint).next = table.next + 1 := rfl
    obtain ⟨last, hall, hlast⟩ := ih (h.register hlt s.fingerprint) (by rw [hnext]; omega)
    refine ⟨last, by rw [IndexTable.assignAll, assign_of_lt hlt]; exact hall, ?_⟩
    rw [List.append_assoc] at hlast
    exact hlast

end IndexTable

/-- A table is made for a cache exactly if 16-bit positions suffice for it; an empty table is made
for none. After any calls, whether they succeeded or not, it answers the last registrations among
those of the cache and those that succeeded, at different positions below the next, and the next
call takes the next position, or fails and changes nothing because there is none. -/
theorem ofCache_serve (cache : List Segment) :
    IndexTable.ofCache [] = .ok .empty ∧
    (65536 < cache.length → IndexTable.ofCache cache = .error (.indexOverflow 65536)) ∧
    (cache.length ≤ 65536 → ∃ table, IndexTable.ofCache cache = .ok table ∧
      ∀ calls : List TableCall,
        (table.serve calls).2.InOrder
          (numbered 0 cache ++ registrations (table.serve calls).1) ∧
        ∀ call : TableCall,
          (table.serve calls).2.Answered (call.perform.run.run (table.serve calls).2)) := by
  refine ⟨rfl, fun hmany => ?_, fun hfits => ?_⟩
  · obtain ⟨table, hmade, htracks⟩ | ⟨-, hfull⟩ := IndexTable.Tracks.ofCache_cases cache
    · have hle := htracks.length_le
      rw [List.length_map, IndexTable.capacity] at hle
      omega
    · exact hfull
  · have hroom : IndexTable.empty.next + cache.length ≤ 65536 := by
      have hnext : IndexTable.empty.next = 0 := rfl
      omega
    obtain ⟨table, hmade, horder⟩ := IndexTable.inOrder_empty.assignAll hroom
    refine ⟨table, hmade, fun calls => ?_⟩
    have hserved := horder.serve calls
    exact ⟨hserved, fun call => (hserved.perform call).1⟩

end SegmentWire
