/-
# Ring buffers

A ring buffer keeps a queue in a fixed number of slots: it reads at a head, writes at a tail, and
both start over behind the last slot. The count tells an empty buffer from a full one.
-/

import Mathlib.Data.List.Basic
import Mathlib.Logic.Function.Basic

namespace XHDF5.Math

variable {α : Type*}

/-- Slots with the places to read and to write, and the number of values between them. -/
structure RingBuffer (α : Type*) where
  slots : Nat → Option α
  size : Nat
  head : Nat
  tail : Nat
  count : Nat

namespace RingBuffer

/-- Slots that were not written yet. -/
def empty (size : Nat) : RingBuffer α := ⟨fun _ => none, size, 0, 0, 0⟩

/-- Write a value at the tail. -/
def push (b : RingBuffer α) (value : α) : RingBuffer α where
  slots := Function.update b.slots b.tail (some value)
  size := b.size
  head := b.head
  tail := (b.tail + 1) % b.size
  count := b.count + 1

/-- Leave the value at the head behind. -/
def pop (b : RingBuffer α) : RingBuffer α where
  slots := b.slots
  size := b.size
  head := (b.head + 1) % b.size
  tail := b.tail
  count := b.count - 1

/-- The buffer keeps the values of a queue in their order. -/
structure Queues (b : RingBuffer α) (queue : List α) : Prop where
  count : b.count = queue.length
  fits : queue.length ≤ b.size
  head_lt : 0 < b.size → b.head < b.size
  tail : b.tail = (b.head + b.count) % b.size
  slots : ∀ i value, queue[i]? = some value → b.slots ((b.head + i) % b.size) = some value

theorem queues_empty (size : Nat) : (empty size : RingBuffer α).Queues [] where
  count := rfl
  fits := Nat.zero_le size
  head_lt := id
  tail := (Nat.zero_mod size).symm
  slots i value h := by
    rw [List.getElem?_nil] at h
    cases h

/-- Places that are less than a round apart are different. -/
theorem place_ne {size i j : Nat} (head : Nat) (hij : i < j) (hj : j < head + size) (hi : head ≤ i) :
    i % size ≠ j % size := by
  intro heq
  have hdvd := Nat.sub_mod_eq_zero_of_mod_eq heq.symm
  have hle := Nat.le_of_dvd (Nat.sub_pos_of_lt hij) (Nat.dvd_of_mod_eq_zero hdvd)
  omega

variable {b : RingBuffer α} {queue : List α} {value : α}

/-- A value goes to the end of a queue that does not fill the slots. -/
theorem Queues.push (h : b.Queues queue) (hroom : b.count < b.size) (value : α) :
    (b.push value).Queues (queue ++ [value]) := by
  have hcount := h.count
  refine ⟨?_, ?_, h.head_lt, ?_, fun i other hi => ?_⟩
  · rw [List.length_append]
    exact congrArg (· + 1) hcount
  · rw [List.length_append, ← hcount]
    exact hroom
  · simp only [RingBuffer.push, h.tail, Nat.mod_add_mod]
    rfl
  · by_cases hlast : i < queue.length
    · rw [List.getElem?_append_left hlast] at hi
      have hne : (b.head + i) % b.size ≠ (b.head + b.count) % b.size := by
        apply place_ne b.head <;> omega
      rw [← h.tail] at hne
      exact (Function.update_of_ne hne _ _).trans (h.slots i other hi)
    · rw [List.getElem?_append_right (Nat.le_of_not_lt hlast)] at hi
      have hi' : i = queue.length := by
        by_contra hne
        rw [List.getElem?_eq_none (by simp only [List.length_singleton]; omega)] at hi
        cases hi
      rw [hi', Nat.sub_self] at hi
      obtain rfl := Option.some.inj hi
      rw [hi', ← hcount]
      simp only [RingBuffer.push]
      rw [← h.tail, Function.update_self]

/-- The first value of a queue is at the head. -/
theorem Queues.first (h : b.Queues (value :: queue)) : b.slots b.head = some value := by
  have hslot := h.slots 0 value rfl
  rw [Nat.add_zero, Nat.mod_eq_of_lt] at hslot
  · exact hslot
  · exact h.head_lt (Nat.lt_of_lt_of_le (Nat.succ_pos _) h.fits)

/-- The first value leaves a queue. -/
theorem Queues.pop (h : b.Queues (value :: queue)) : b.pop.Queues queue := by
  have hcount := h.count
  have hfits := h.fits
  rw [List.length_cons] at hcount hfits
  refine ⟨?_, Nat.le_of_succ_le hfits, fun hsize => Nat.mod_lt _ hsize, ?_, fun i other hi => ?_⟩
  · rw [RingBuffer.pop, hcount, Nat.add_sub_cancel]
  · simp only [RingBuffer.pop]
    rw [h.tail, Nat.mod_add_mod, hcount, Nat.add_sub_cancel, Nat.add_assoc, Nat.add_comm 1]
  · have hslot := h.slots (i + 1) other hi
    simp only [RingBuffer.pop]
    rw [Nat.mod_add_mod, Nat.add_assoc, Nat.add_comm 1]
    exact hslot

theorem Queues.eq_nil_of_count (h : b.Queues queue) (hcount : b.count = 0) : queue = [] :=
  List.eq_nil_of_length_eq_zero (h.count.symm.trans hcount)

end RingBuffer

end XHDF5.Math
