/-
# Row-major positions

A coordinate tuple of an array has a position in the row-major order of the array. The positions
of a block are consecutive when at most one dimension of it is longer than one element before the
dimensions it covers as a whole.
-/

import XHDF5.Math.Grid

namespace XHDF5.Math

/-- The row-major position of a coordinate tuple. -/
def ravel : List Nat → List Nat → Nat
  | _ :: dims, x :: tuple => x * dims.prod + ravel dims tuple
  | _, _ => 0

/-- The tuples of a block with the given starts and lengths. -/
def block (axes : List (Nat × Nat)) : List (List Nat) :=
  grid (axes.map fun axis => List.range' axis.1 axis.2)

/-- The block covers every dimension as a whole. -/
def Whole (axes : List (Nat × Nat)) (dims : List Nat) : Prop :=
  axes = dims.map fun dim => (0, dim)

/-- Behind a dimension in which the block is longer than one, it covers the others as a whole. -/
def Contiguous : List (Nat × Nat) → List Nat → Prop
  | axis :: axes, _ :: dims => (1 < axis.2 → Whole axes dims) ∧ Contiguous axes dims
  | _, _ => True

section Ravel

variable {dims tuple : List Nat}

@[simp]
theorem ravel_cons (dim : Nat) (dims : List Nat) (x : Nat) (tuple : List Nat) :
    ravel (dim :: dims) (x :: tuple) = x * dims.prod + ravel dims tuple := rfl

theorem ravel_lt (h : List.Forall₂ (· < ·) tuple dims) : ravel dims tuple < dims.prod := by
  induction h with
  | nil => exact Nat.one_pos
  | @cons x dim tuple dims hx _ ih =>
      have hrow : (x + 1) * dims.prod ≤ dim * dims.prod := Nat.mul_le_mul_right _ hx
      rw [ravel_cons, List.prod_cons]
      rw [Nat.add_mul, Nat.one_mul] at hrow
      omega

/-- The position by the scheme of Horner. -/
theorem foldl_ravel (h : tuple.length = dims.length) (offset : Nat) :
    (List.zip dims tuple).foldl (fun offset axis => offset * axis.1 + axis.2) offset =
      offset * dims.prod + ravel dims tuple := by
  induction dims generalizing tuple offset with
  | nil => simp [ravel]
  | cons dim dims ih =>
      cases tuple with
      | nil => cases h
      | cons x tuple =>
          rw [List.zip_cons_cons, List.foldl_cons, ih (Nat.succ.inj h), ravel_cons, List.prod_cons]
          ring

end Ravel

/-! ## Blocks -/

section Block

variable {axes : List (Nat × Nat)} {dims : List Nat}

theorem block_cons (axis : Nat × Nat) (axes : List (Nat × Nat)) :
    block (axis :: axes) = (List.range' axis.1 axis.2).flatMap fun x => (block axes).map (x :: ·) :=
  rfl

theorem length_block (axes : List (Nat × Nat)) :
    (block axes).length = (axes.map Prod.snd).prod := by
  rw [block, length_grid, List.map_map]
  congr 1
  exact List.map_congr_left fun axis _ => List.length_range'

/-- The positions of a block, row by row. -/
theorem map_ravel_block_cons (axis : Nat × Nat) (axes : List (Nat × Nat)) (dim : Nat)
    (dims : List Nat) :
    (block (axis :: axes)).map (ravel (dim :: dims)) =
      (List.range' axis.1 axis.2).flatMap fun x =>
        ((block axes).map (ravel dims)).map (x * dims.prod + ·) := by
  rw [block_cons, List.map_flatMap]
  refine List.flatMap_congr fun x _ => ?_
  rw [List.map_map, List.map_map]
  rfl

/-- Consecutive rows of one length are one interval. -/
theorem flatMap_rows (first count len : Nat) :
    ((List.range' first count).flatMap fun x => (List.range len).map (x * len + ·)) =
      List.range' (first * len) (count * len) := by
  have hrow (x : Nat) : (List.range len).map (x * len + ·) = List.range' (x * len) len := by
    rw [List.range_eq_range', List.map_add_range', Nat.add_zero]
  induction count generalizing first with
  | zero => simp
  | succ count ih =>
      rw [List.range'_succ, List.flatMap_cons, ih, hrow, Nat.succ_mul, Nat.succ_mul,
        Nat.add_comm (count * len), ← List.range'_append_1]

/-- The whole array is listed in row-major order. -/
theorem map_ravel_whole (dims : List Nat) :
    (block (dims.map fun dim => (0, dim))).map (ravel dims) = List.range dims.prod := by
  induction dims with
  | nil => rfl
  | cons dim dims ih =>
      rw [List.map_cons, map_ravel_block_cons, ih, flatMap_rows, List.prod_cons, Nat.zero_mul,
        List.range_eq_range']

theorem map_fst_whole (h : Whole axes dims) : ravel dims (axes.map Prod.fst) = 0 := by
  subst h
  induction dims with
  | nil => rfl
  | cons dim dims ih => rw [List.map_cons, List.map_cons, ravel_cons, ih, Nat.zero_mul]

theorem prod_whole (h : Whole axes dims) : (axes.map Prod.snd).prod = dims.prod := by
  rw [h, List.map_map]
  congr 1
  exact List.map_id dims

/-- A contiguous block occupies consecutive positions. -/
theorem map_ravel_block (hlen : axes.length = dims.length) (hpos : ∀ axis ∈ axes, 0 < axis.2)
    (h : Contiguous axes dims) :
    (block axes).map (ravel dims) =
      List.range' (ravel dims (axes.map Prod.fst)) (axes.map Prod.snd).prod := by
  induction axes generalizing dims with
  | nil =>
      obtain rfl := List.length_eq_zero_iff.mp hlen.symm
      rfl
  | cons axis axes ih =>
      obtain ⟨dim, dims, rfl⟩ : ∃ dim rest, dims = dim :: rest :=
        List.exists_cons_of_length_eq_add_one hlen.symm
      obtain ⟨haxis, hpos⟩ := List.forall_mem_cons.mp hpos
      obtain ⟨hwhole, hrest⟩ := h
      rw [map_ravel_block_cons, List.map_cons, List.map_cons, ravel_cons, List.prod_cons]
      rcases Nat.lt_or_ge 1 axis.2 with hlong | hshort
      · have hwhole := hwhole hlong
        rw [map_fst_whole hwhole, prod_whole hwhole, Nat.add_zero, ← flatMap_rows,
          ← map_ravel_whole dims, hwhole]
      · have hone : axis.2 = 1 := by omega
        rw [ih (Nat.succ.inj hlen) hpos hrest, hone, List.range'_one, List.flatMap_singleton,
          List.map_add_range', Nat.one_mul]

end Block

end XHDF5.Math
