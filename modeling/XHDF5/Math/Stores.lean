/-
# Stores behind each other

A structure is written to memory by stores that come one behind the other, with gaps or without.
Each store can then be read back, and a byte that none of them reaches is the old one.
-/

import Mathlib.Data.Nat.Basic
import XHDF5.Math.Region

namespace XHDF5.Math

variable {β : Type*}

/-- The memory after some stores, each with the place where it starts. -/
def Memory.writeAll (memory : Memory β) (stores : List (Nat × List β)) : Memory β :=
  stores.foldl (fun memory store => memory.write store.1 store.2) memory

/-- The stores come one behind the other, between two places. -/
def Stacked : Nat → List (Nat × List β) → Nat → Prop
  | first, [], last => first ≤ last
  | first, store :: stores, last =>
      first ≤ store.1 ∧ Stacked (store.1 + store.2.length) stores last

namespace Memory

variable {memory : Memory β} {stores : List (Nat × List β)} {address : Nat}

theorem writeAll_append (memory : Memory β) (first second : List (Nat × List β)) :
    memory.writeAll (first ++ second) = (memory.writeAll first).writeAll second :=
  List.foldl_append

theorem writeAll_cons (memory : Memory β) (store : Nat × List β) (stores : List (Nat × List β)) :
    memory.writeAll (store :: stores) = (memory.write store.1 store.2).writeAll stores := rfl

/-- What is new in the memory is a byte of some store. -/
theorem exists_store_of_ne (h : memory.writeAll stores address ≠ memory address) :
    ∃ store ∈ stores, ∃ k, ∃ hk : k < store.2.length, address = store.1 + k ∧
      memory.writeAll stores address = store.2[k] := by
  induction stores generalizing memory with
  | nil => exact absurd rfl h
  | cons store stores ih =>
      rw [writeAll_cons] at h ⊢
      by_cases hsame : (memory.write store.1 store.2).writeAll stores address =
          memory.write store.1 store.2 address
      · rw [hsame] at h ⊢
        rcases Nat.lt_or_ge address store.1 with hlt | hge
        · exact absurd (write_of_lt hlt) h
        · obtain ⟨k, rfl⟩ := Nat.exists_eq_add_of_le hge
          rcases Nat.lt_or_ge k store.2.length with hk | hk
          · exact ⟨store, List.mem_cons_self, k, hk, rfl, write_add hk⟩
          · exact absurd (write_of_le (Nat.add_le_add_left hk _)) h
      · obtain ⟨other, hother, hfound⟩ := ih hsame
        exact ⟨other, List.mem_cons_of_mem _ hother, hfound⟩

/-- Pieces of the same bytes are the same. -/
theorem read_of_read {other : Memory β} {first second total offset len : Nat}
    (h : memory.read first total = other.read second total) (hle : offset + len ≤ total) :
    memory.read (first + offset) len = other.read (second + offset) len := by
  have hpoint (k : Nat) (hk : k < total) : memory (first + k) = other (second + k) := by
    have hentry := congrArg (fun bytes => bytes[k]?) h
    simpa [read, hk] using hentry
  refine List.ext_getElem (by rw [length_read, length_read]) fun k hk _ => ?_
  rw [length_read] at hk
  have hentry := hpoint (offset + k) (by omega)
  simpa [read, Nat.add_assoc] using hentry

/-- Stores that do not overlap. -/
def Apart (first second : Nat × List β) : Prop :=
  first.1 + first.2.length ≤ second.1 ∨ second.1 + second.2.length ≤ first.1

/-- Every store can be read back. -/
theorem read_writeAll (h : stores.Pairwise Apart) {store : Nat × List β} (hmem : store ∈ stores) :
    (memory.writeAll stores).read store.1 store.2.length = store.2 := by
  induction stores generalizing memory with
  | nil => cases hmem
  | cons head stores ih =>
      obtain ⟨hhead, hstores⟩ := List.pairwise_cons.mp h
      rw [writeAll_cons]
      rcases List.mem_cons.mp hmem with rfl | hmem
      · refine read_eq_iff.mpr fun k hk => ?_
        have hkeep : (memory.write store.1 store.2).writeAll stores (store.1 + k) =
            memory.write store.1 store.2 (store.1 + k) := by
          by_contra hne
          obtain ⟨other, hother, j, hj, heq, -⟩ := exists_store_of_ne hne
          have hapart := hhead other hother
          unfold Apart at hapart
          omega
        rw [hkeep]
        exact write_add hk
      · exact ih hstores hmem

end Memory

namespace Stacked

variable {first middle last : Nat} {stores more : List (Nat × List β)}

theorem first_le_last (h : Stacked first stores last) : first ≤ last := by
  induction stores generalizing first with
  | nil => exact h
  | cons store stores ih => exact h.1.trans ((Nat.le_add_right _ _).trans (ih h.2))

theorem append (h : Stacked first stores middle) (hmore : Stacked middle more last) :
    Stacked first (stores ++ more) last := by
  induction stores generalizing first with
  | nil =>
      cases more with
      | nil => exact Nat.le_trans h hmore
      | cons store more => exact ⟨Nat.le_trans h hmore.1, hmore.2⟩
  | cons store stores ih => exact ⟨h.1, ih h.2⟩

theorem mono (h : Stacked first stores middle) (hle : middle ≤ last) :
    Stacked first stores last := by
  rw [← List.append_nil stores]
  exact h.append hle

/-- Every store is between the two places. -/
theorem between (h : Stacked first stores last) {store : Nat × List β} (hmem : store ∈ stores) :
    first ≤ store.1 ∧ store.1 + store.2.length ≤ last := by
  induction stores generalizing first with
  | nil => cases hmem
  | cons head stores ih =>
      rcases List.mem_cons.mp hmem with rfl | hmem
      · exact ⟨h.1, h.2.first_le_last⟩
      · obtain ⟨hfirst, hlast⟩ := ih h.2 hmem
        exact ⟨h.1.trans ((Nat.le_add_right _ _).trans hfirst), hlast⟩

/-- Stores behind each other do not overlap. -/
theorem pairwise (h : Stacked first stores last) : stores.Pairwise Memory.Apart := by
  induction stores generalizing first with
  | nil => exact .nil
  | cons store stores ih =>
      exact .cons (fun other hother => .inl (h.2.between hother).1) (ih h.2)

end Stacked

end XHDF5.Math
