/-
# Code with a ledger

Code acquires handles and blocks and releases them. A ledger gives each of them a number of its own
and keeps which ones are held, and which numbers were released while they were not held. Code ends
with a value, fails, or does something undefined, unless it never ends.

What code leaves behind is what is held after it and was not held before it.
-/

import XHDF5.Math.Run

namespace XHDF5.Math

/-- What is held, and what was released without being held. -/
structure Ledger where
  next : Nat
  held : List Nat
  strays : List Nat
  held_lt : ∀ id ∈ held, id < next

namespace Ledger

/-- Nothing is held. -/
def empty : Ledger := ⟨0, [], [], nofun⟩

/-- One thing more is held. -/
def acquire (l : Ledger) : Ledger where
  next := l.next + 1
  held := l.next :: l.held
  strays := l.strays
  held_lt id hid := by
    rcases List.mem_cons.mp hid with rfl | hid
    · exact Nat.lt_succ_self _
    · exact Nat.lt_succ_of_lt (l.held_lt id hid)

/-- What is held is released; anything else is a stray. -/
def release (id : Nat) (l : Ledger) : Ledger :=
  if id ∈ l.held then
    { l with
      held := l.held.erase id
      held_lt := fun other hother => l.held_lt other (List.mem_of_mem_erase hother) }
  else { l with strays := id :: l.strays }

/-- Between two ledgers only new things were acquired, of which some are still held, and everything
that was released was held. -/
structure Leaves (kept : List Nat) (l l' : Ledger) : Prop where
  held : l'.held = kept ++ l.held
  strays : l'.strays = l.strays
  next_le : l.next ≤ l'.next
  kept_new : ∀ id ∈ kept, l.next ≤ id

section Leaves

variable {kept more : List Nat} {l l' l'' : Ledger} {id : Nat}

theorem Leaves.refl (l : Ledger) : Leaves [] l l := ⟨rfl, rfl, Nat.le_refl _, nofun⟩

theorem Leaves.trans (h : Leaves kept l l') (h' : Leaves more l' l'') :
    Leaves (more ++ kept) l l'' where
  held := by rw [h'.held, h.held, List.append_assoc]
  strays := h'.strays.trans h.strays
  next_le := Nat.le_trans h.next_le h'.next_le
  kept_new id hid := by
    rcases List.mem_append.mp hid with hid | hid
    · exact Nat.le_trans h.next_le (h'.kept_new id hid)
    · exact h.kept_new id hid

theorem leaves_acquire (l : Ledger) : Leaves [l.next] l l.acquire where
  held := rfl
  strays := rfl
  next_le := Nat.le_succ _
  kept_new _ hid := Nat.le_of_eq (List.mem_singleton.mp hid).symm

/-- What is acquired next is none of the things left behind. -/
theorem Leaves.not_mem_next (h : Leaves kept l l') (hid : id ∈ kept) : id ∉ [l'.next] := by
  intro hnext
  have hheld : id ∈ l'.held := by
    rw [h.held]
    exact List.mem_append_left _ hid
  exact Nat.ne_of_lt (l'.held_lt id hheld) (List.mem_singleton.mp hnext)

/-- What is acquired first and released last leaves no trace. -/
theorem Leaves.release (h : Leaves kept l.acquire l') : Leaves kept l (l'.release l.next) := by
  have hheld : l'.held = kept ++ l.next :: l.held := h.held
  have hkept : l.next ∉ kept := fun hmem => Nat.not_succ_le_self _ (h.kept_new _ hmem)
  have hmem : l.next ∈ l'.held := by
    rw [hheld]
    exact List.mem_append_right _ List.mem_cons_self
  have herase : l'.held.erase l.next = kept ++ l.held := by
    rw [hheld, List.erase_append_right _ hkept, List.erase_cons_head]
  rw [Ledger.release, if_pos hmem]
  refine ⟨herase, h.strays, Nat.le_trans (Nat.le_succ _) h.next_le, fun id hid => ?_⟩
  exact Nat.le_trans (Nat.le_succ _) (h.kept_new id hid)

/-- One of the things that would be left behind is released. -/
theorem Leaves.release_kept (h : Leaves (kept ++ id :: more) l l') (hid : id ∉ kept) :
    Leaves (kept ++ more) l (l'.release id) := by
  have hmem : id ∈ l'.held := by
    rw [h.held]
    simp
  have herase : l'.held.erase id = kept ++ more ++ l.held := by
    rw [h.held, List.append_assoc, List.append_assoc, List.erase_append_right _ hid,
      List.cons_append, List.erase_cons_head]
  rw [Ledger.release, if_pos hmem]
  refine ⟨herase, h.strays, h.next_le, fun other hother => h.kept_new other ?_⟩
  rcases List.mem_append.mp hother with hother | hother
  · exact List.mem_append_left _ hother
  · exact List.mem_append_right _ (List.mem_cons_of_mem _ hother)

theorem Leaves.held_eq_iff (h : Leaves kept l l') : l'.held = l.held ↔ kept = [] := by
  rw [h.held]
  exact List.append_left_eq_self

end Leaves

end Ledger

/-! ## Code -/

/-- Code on a ledger, which ends with an outcome or does not end. -/
def Code (α : Type) : Type := Ledger → Option (Outcome α × Ledger)

namespace Code

variable {α β : Type}

/-- Code that ends at once. -/
def lift (outcome : Outcome α) : Code α := fun l => some (outcome, l)

/-- Code that never ends. -/
def diverge : Code α := fun _ => none

/-- Continue with the value. -/
def bind (m : Code α) (f : α → Code β) : Code β := fun l =>
  match m l with
  | none => none
  | some (.undefined, l') => some (.undefined, l')
  | some (.fail, l') => some (.fail, l')
  | some (.ok value, l') => f value l'

/-- Something is acquired. -/
def acquire : Code Nat := fun l => some (.ok l.next, l.acquire)

/-- Something is released. -/
def release (id : Nat) : Code PUnit := fun l => some (.ok ⟨⟩, l.release id)

/-- Something is released when code ends, whether it fails or not. -/
def releasing (id : Nat) (m : Code α) : Code α := fun l =>
  match m l with
  | some (.fail, l') => some (.fail, l'.release id)
  | some (.ok value, l') => some (.ok value, l'.release id)
  | other => other

/-- What is acquired for the time of a piece of code. -/
def within (m : Code α) : Code α := acquire.bind fun id => releasing id m

/-- Code ends with an outcome, and leaves something behind. -/
def Ends (m : Code α) (l : Ledger) (outcome : Outcome α) (kept : List Nat) : Prop :=
  ∃ l', m l = some (outcome, l') ∧ l.Leaves kept l'

section Rules

variable {m : Code α} {f : α → Code β} {l l' : Ledger} {kept more : List Nat}

theorem ends_lift (outcome : Outcome α) : (lift outcome).Ends l outcome [] := ⟨l, rfl, .refl l⟩

theorem ends_acquire : acquire.Ends l (.ok l.next) [l.next] :=
  ⟨l.acquire, rfl, Ledger.leaves_acquire l⟩

theorem lift_apply (outcome : Outcome α) : lift outcome l = some (outcome, l) := rfl

theorem acquire_apply : acquire l = some (.ok l.next, l.acquire) := rfl

theorem bind_of_ok {value : α} (h : m l = some (.ok value, l')) : m.bind f l = f value l' := by
  rw [bind, h]

theorem ends_bind {value : α} {outcome : Outcome β} (hm : m.Ends l (.ok value) kept)
    (hf : ∀ l', l.Leaves kept l' → (f value).Ends l' outcome more) :
    (m.bind f).Ends l outcome (more ++ kept) := by
  obtain ⟨l', hrun, hkept⟩ := hm
  obtain ⟨l'', hrun', hmore⟩ := hf l' hkept
  exact ⟨l'', by rw [bind_of_ok hrun, hrun'], hkept.trans hmore⟩

theorem ends_bind_fail (hm : m.Ends l .fail kept) : (m.bind f).Ends l .fail kept := by
  obtain ⟨l', hrun, hkept⟩ := hm
  exact ⟨l', by rw [bind, hrun], hkept⟩

/-- Code that continues has come to a value first, or has ended without one. -/
theorem bind_eq_some {outcome : Outcome β} (h : m.bind f l = some (outcome, l')) :
    (m l = some (.undefined, l') ∧ outcome = .undefined) ∨
      (m l = some (.fail, l') ∧ outcome = .fail) ∨
        ∃ value l₁, m l = some (.ok value, l₁) ∧ f value l₁ = some (outcome, l') := by
  rw [bind] at h
  split at h
  · cases h
  · next hm => cases h; exact .inl ⟨hm, rfl⟩
  · next hm => cases h; exact .inr (.inl ⟨hm, rfl⟩)
  · next hm => exact .inr (.inr ⟨_, _, hm, h⟩)

theorem ends_within {outcome : Outcome α} (houtcome : outcome ≠ .undefined)
    (h : m.Ends l.acquire outcome kept) : (within m).Ends l outcome kept := by
  obtain ⟨l', hrun, hkept⟩ := h
  refine ⟨l'.release l.next, ?_, hkept.release⟩
  rw [within, bind_of_ok acquire_apply, releasing, hrun]
  cases outcome with
  | undefined => exact absurd rfl houtcome
  | fail | ok value => rfl

theorem exists_of_releasing {id : Nat} {outcome : Outcome α}
    (h : releasing id m l = some (outcome, l')) : ∃ l₁, m l = some (outcome, l₁) := by
  rw [releasing] at h
  split at h
  · next hm => cases h; exact ⟨_, hm⟩
  · next hm => cases h; exact ⟨_, hm⟩
  · exact ⟨l', h⟩

theorem releasing_eq_some {id : Nat} {outcome : Outcome α} (houtcome : outcome ≠ .undefined)
    (h : releasing id m l = some (outcome, l')) :
    ∃ l₁, m l = some (outcome, l₁) ∧ l' = l₁.release id := by
  rw [releasing] at h
  split at h
  · next hm => cases h; exact ⟨_, hm, rfl⟩
  · next hm => cases h; exact ⟨_, hm, rfl⟩
  · next hfail hok =>
      cases outcome with
      | undefined => exact absurd rfl houtcome
      | fail => exact absurd h (hfail l')
      | ok value => exact absurd h (hok value l')

/-- The piece of code has ended itself. -/
theorem within_eq_some {outcome : Outcome α} (houtcome : outcome ≠ .undefined)
    (h : within m l = some (outcome, l')) :
    ∃ l₁, m l.acquire = some (outcome, l₁) ∧ l' = l₁.release l.next := by
  rw [within, bind_of_ok acquire_apply] at h
  exact releasing_eq_some houtcome h

end Rules

end Code

end XHDF5.Math
