/-
# Buffers that double

A buffer is filled from its start. Before a store the code asks for room, and the buffer doubles
until there is enough of it. The lemmas here say how large the buffer is afterwards.
-/

import Mathlib.Algebra.Order.Ring.Nat
import Mathlib.Data.Nat.Basic
import Mathlib.Tactic.Ring

namespace XHDF5.Math

/-- The buffer length after `CHECKED_REALLOC`, which doubles it until the target fits. -/
def doubled (bufferLen target : Nat) : Nat → Nat
  | 0 => bufferLen
  | rounds + 1 => if target > bufferLen then doubled (2 * bufferLen) target rounds else bufferLen

/-- A buffer with what was stored in it so far, its length, and whether every store was inside. -/
structure Growing (β : Type*) where
  written : List β
  nalloc : Nat
  inside : Bool

namespace Growing

variable {β : Type*} (b : Growing β)

/-- Make room behind what was stored. -/
def reserve (more : Nat) : Growing β :=
  { b with nalloc := doubled b.nalloc (b.written.length + more) (b.written.length + more) }

/-- One store behind the others. -/
def store (value : β) : Growing β :=
  { b with
    written := b.written ++ [value]
    inside := b.inside && decide (b.written.length < b.nalloc) }

@[simp] theorem reserve_written (more : Nat) : (b.reserve more).written = b.written := rfl

@[simp] theorem reserve_inside (more : Nat) : (b.reserve more).inside = b.inside := rfl

@[simp] theorem store_written (value : β) : (b.store value).written = b.written ++ [value] := rfl

@[simp] theorem store_nalloc (value : β) : (b.store value).nalloc = b.nalloc := rfl

@[simp] theorem store_inside (value : β) :
    (b.store value).inside = (b.inside && decide (b.written.length < b.nalloc)) := rfl

end Growing

/-! ## How far a buffer grows -/

/-- The length is the least double of the first length that fits. -/
structure LeastDouble (first len nalloc : Nat) : Prop where
  fits : len ≤ nalloc
  least : ∃ k, nalloc = first * 2 ^ k ∧ (k = 0 ∨ first * 2 ^ (k - 1) < len)

theorem doubled_spec {bufferLen target rounds : Nat} (hpos : 0 < bufferLen)
    (hrounds : target ≤ bufferLen * 2 ^ rounds) :
    target ≤ doubled bufferLen target rounds ∧
      ∃ k, doubled bufferLen target rounds = bufferLen * 2 ^ k ∧
        (k = 0 ∨ bufferLen * 2 ^ (k - 1) < target) := by
  induction rounds generalizing bufferLen with
  | zero => exact ⟨by simpa [doubled] using hrounds, 0, by simp [doubled], Or.inl rfl⟩
  | succ rounds ih =>
      rw [doubled]
      by_cases hmore : target > bufferLen
      · rw [if_pos hmore]
        obtain ⟨hfits, k, hk, hleast⟩ := @ih (2 * bufferLen) (by omega)
          (by rwa [Nat.mul_comm 2, Nat.mul_assoc, Nat.mul_comm 2, ← Nat.pow_succ])
        refine ⟨hfits, k + 1, by rw [hk, Nat.pow_succ]; ring, Or.inr ?_⟩
        rw [Nat.add_sub_cancel]
        cases k with
        | zero => simpa using hmore
        | succ k =>
            rcases hleast with hzero | hlt
            · cases hzero
            · rwa [Nat.add_sub_cancel, Nat.mul_comm 2, Nat.mul_assoc, Nat.mul_comm 2,
                ← Nat.pow_succ] at hlt
      · rw [if_neg hmore]
        exact ⟨Nat.le_of_not_lt hmore, 0, by simp, Or.inl rfl⟩

/-- A longer target is met by the least double of the first length as well. -/
theorem LeastDouble.doubled {first len target nalloc : Nat} (hfirst : 0 < first)
    (h : LeastDouble first len nalloc) (htarget : len ≤ target) :
    LeastDouble first target (doubled nalloc target target) := by
  obtain ⟨k, hk, hleast⟩ := h.least
  have hpos : 0 < nalloc := by
    rw [hk]
    exact Nat.mul_pos hfirst (Nat.two_pow_pos k)
  have hrounds : target ≤ nalloc * 2 ^ target :=
    (Nat.lt_two_pow_self).le.trans (Nat.le_mul_of_pos_left _ hpos)
  obtain ⟨hfits, j, hj, hgrown⟩ := doubled_spec hpos hrounds
  refine ⟨hfits, k + j, by rw [hj, hk, Nat.pow_add]; ring, ?_⟩
  rcases hgrown with rfl | hgrown
  · exact hleast.imp id fun hlt => Nat.lt_of_lt_of_le hlt htarget
  · refine Or.inr ?_
    cases j with
    | zero =>
        rw [Nat.zero_sub, Nat.pow_zero, Nat.mul_one] at hgrown
        refine lt_of_le_of_lt ?_ hgrown
        rw [hk]
        exact Nat.mul_le_mul_left _ (Nat.pow_le_pow_right Nat.two_pos (by omega))
    | succ j =>
        rw [Nat.add_sub_cancel] at hgrown
        rwa [show k + (j + 1) - 1 = k + j by omega, Nat.pow_add, ← Nat.mul_assoc, ← hk]

/-- A reservation keeps the length a least double. -/
theorem LeastDouble.reserve {β : Type*} {b : Growing β} {first more : Nat} (hfirst : 0 < first)
    (h : LeastDouble first b.written.length b.nalloc) :
    LeastDouble first (b.written.length + more) (b.reserve more).nalloc :=
  h.doubled hfirst (Nat.le_add_right _ more)

/-- There is one least double. -/
theorem LeastDouble.unique {first len nalloc other : Nat} (h : LeastDouble first len nalloc)
    (h' : LeastDouble first len other) : nalloc = other := by
  have hle {first len nalloc other : Nat} (h : LeastDouble first len nalloc)
      (h' : LeastDouble first len other) : nalloc ≤ other := by
    obtain ⟨k, hk, hleast⟩ := h.least
    obtain ⟨j, hj, -⟩ := h'.least
    have hfits := h'.fits
    rcases hleast with rfl | hleast
    · rw [hk, hj]
      exact Nat.mul_le_mul_left _ (Nat.pow_le_pow_right Nat.two_pos (Nat.zero_le j))
    · rw [hk, hj] at *
      by_contra hlt
      have hlt := Nat.lt_of_mul_lt_mul_left (Nat.not_le.mp hlt)
      have hjk : j < k := (Nat.pow_lt_pow_iff_right Nat.one_lt_two).mp hlt
      have hpow : first * 2 ^ j ≤ first * 2 ^ (k - 1) :=
        Nat.mul_le_mul_left _ (Nat.pow_le_pow_right Nat.two_pos (Nat.le_sub_one_of_lt hjk))
      omega
  exact Nat.le_antisymm (hle h h') (hle h' h)

theorem leastDouble_first (first : Nat) : LeastDouble first 0 first :=
  ⟨Nat.zero_le first, 0, (Nat.mul_one first).symm, .inl rfl⟩

/-- Every store so far was inside, and the buffer is no longer than it has to be. -/
structure Filled {β : Type*} (first : Nat) (b : Growing β) : Prop where
  inside : b.inside = true
  length : LeastDouble first b.written.length b.nalloc

/-- A buffer that was reserved for some stores takes them. -/
theorem Filled.reserve_stores {β : Type*} {b : Growing β} {first : Nat} (hfirst : 0 < first)
    (h : Filled first b) (values : List β) :
    Filled first (values.foldl Growing.store (b.reserve values.length)) ∧
      (values.foldl Growing.store (b.reserve values.length)).written = b.written ++ values := by
  have hstores (values : List β) (c : Growing β) (hfits : c.written.length + values.length ≤ c.nalloc) :
      (values.foldl Growing.store c).written = c.written ++ values ∧
        (values.foldl Growing.store c).nalloc = c.nalloc ∧
          (values.foldl Growing.store c).inside = c.inside := by
    induction values generalizing c with
    | nil => simp
    | cons value values ih =>
        rw [List.length_cons] at hfits
        obtain ⟨hwritten, hnalloc, hinside⟩ := ih (c.store value) (by simp; omega)
        refine ⟨by simp [hwritten], hnalloc, ?_⟩
        rw [List.foldl_cons, hinside, Growing.store_inside, decide_eq_true (by omega),
          Bool.and_true]
  have hroom := @LeastDouble.reserve _ _ _ values.length hfirst h.length
  obtain ⟨hwritten, hnalloc, hinside⟩ := hstores values (b.reserve values.length) hroom.fits
  refine ⟨⟨hinside.trans h.inside, ?_⟩, hwritten⟩
  rw [hwritten, hnalloc, List.length_append]
  exact hroom

/-- A full buffer is a double of the first one. -/
theorem LeastDouble.eq_iff {first len nalloc : Nat} (h : LeastDouble first len nalloc) : len = nalloc ↔ ∃ k, len = first * 2 ^ k := by
  obtain ⟨j, hj, hleast⟩ := h.least
  constructor
  · exact fun heq => ⟨j, heq.trans hj⟩
  · rintro ⟨k, hk⟩
    by_contra hne
    have hlt : first * 2 ^ k < first * 2 ^ j := by
      have := h.fits
      omega
    have hkj : k < j := (Nat.pow_lt_pow_iff_right Nat.one_lt_two).mp (Nat.lt_of_mul_lt_mul_left hlt)
    rcases hleast with rfl | hleast
    · omega
    · have hle : first * 2 ^ k ≤ first * 2 ^ (j - 1) :=
        Nat.mul_le_mul_left _ (Nat.pow_le_pow_right Nat.two_pos (by omega))
      omega

end XHDF5.Math
