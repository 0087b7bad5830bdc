/-
# Buffers

A buffer is memory with a size. A load or a store of bytes outside has no defined result. The rules
below say when the elements at a list of positions can be loaded, and what they are.
-/

import XHDF5.Math.Region
import XHDF5.Math.Run

namespace XHDF5.Math

universe u

/-- A buffer: what it holds, and its size. -/
structure Buffer (β : Type u) where
  bytes : Memory β
  size : Nat

namespace Buffer

variable {β : Type u} (b : Buffer β)

/-- Every byte that is touched is inside. -/
def Within (start len : Nat) : Prop := len = 0 ∨ start + len ≤ b.size

instance (start len : Nat) : Decidable (b.Within start len) := inferInstanceAs (Decidable (_ ∨ _))

/-- Load consecutive bytes. -/
def load (start len : Nat) : Outcome (List β) :=
  if b.Within start len then .ok (b.bytes.read start len) else .undefined

/-- Store consecutive bytes. -/
def store (start : Nat) (values : List β) : Outcome (Buffer β) :=
  if b.Within start values.length then .ok ⟨b.bytes.write start values, b.size⟩ else .undefined

/-- Load the elements of a size at some positions. -/
def gather (size : Nat) (positions : List Nat) : Outcome (List β) :=
  (Outcome.traverse (fun position => b.load (position * size) size) positions).bind fun pieces =>
    .ok pieces.flatten

variable {b} {start len size : Nat} {values : List β} {positions : List Nat}

theorem load_of_within (h : b.Within start len) : b.load start len = .ok (b.bytes.read start len) :=
  if_pos h

theorem load_of_not_within (h : ¬ b.Within start len) : b.load start len = .undefined := if_neg h

theorem store_of_within (h : b.Within start values.length) :
    b.store start values = .ok ⟨b.bytes.write start values, b.size⟩ :=
  if_pos h

/-- Elements that are all inside. -/
theorem gather_of_within (h : ∀ position ∈ positions, b.Within (position * size) size) :
    b.gather size positions =
      .ok (positions.flatMap fun position => b.bytes.read (position * size) size) := by
  have hpieces : Outcome.traverse (fun position => b.load (position * size) size) positions =
      .ok (positions.map fun position => b.bytes.read (position * size) size) := by
    induction positions with
    | nil => rfl
    | cons position positions ih =>
        obtain ⟨hfirst, hrest⟩ := List.forall_mem_cons.mp h
        rw [Outcome.traverse, load_of_within hfirst, ih hrest]
        rfl
  rw [gather, hpieces, List.flatMap_def]
  rfl

/-- One element outside is enough. -/
theorem gather_of_not_within (h : ¬ ∀ position ∈ positions, b.Within (position * size) size) :
    b.gather size positions = .undefined := by
  have hpieces : Outcome.traverse (fun position => b.load (position * size) size) positions =
      .undefined := by
    induction positions with
    | nil => exact absurd (fun _ hmem => absurd hmem List.not_mem_nil) h
    | cons position positions ih =>
        rw [Outcome.traverse]
        by_cases hfirst : b.Within (position * size) size
        · rw [load_of_within hfirst, Outcome.ok_bind, ih fun hrest =>
            h (List.forall_mem_cons.mpr ⟨hfirst, hrest⟩)]
          rfl
        · rw [load_of_not_within hfirst]
          rfl
  rw [gather, hpieces]
  rfl

end Buffer

namespace Memory

variable {β : Type u} {memory other : Memory β}

/-- A piece of a copy is a piece of the original. -/
theorem read_write_read {first len total : Nat} (h : first + len ≤ total) :
    (memory.write 0 (other.read 0 total)).read first len = other.read first len := by
  refine List.map_congr_left fun address haddress => ?_
  have hlt := List.mem_range'_1.mp haddress
  have haddress : address < (other.read 0 total).length := by
    rw [length_read]
    omega
  have hentry := @write_add β memory 0 _ _ haddress
  rw [Nat.zero_add] at hentry
  rw [hentry]
  simp [read]

/-- As many pieces of one size are the same when they are the same behind each other. -/
theorem eq_of_flatten_eq {pieces pieces' : List (List β)} {size : Nat}
    (hsize : ∀ piece ∈ pieces, piece.length = size)
    (hsize' : ∀ piece ∈ pieces', piece.length = size) (hlen : pieces.length = pieces'.length)
    (h : pieces.flatten = pieces'.flatten) : pieces = pieces' := by
  refine List.eq_iff_flatten_eq.mpr ⟨h, ?_⟩
  rw [List.map_congr_left hsize, List.map_congr_left hsize', List.map_const', List.map_const', hlen]

end Memory

end XHDF5.Math
