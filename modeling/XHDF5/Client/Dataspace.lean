/-
# Dataspaces and contiguous selections

A write takes its values from the elements that are selected in a memory dataspace. The client
asks whether they are contiguous; if so, it computes where the first of them is and sends the
memory from there on. The check is right, the position is not: the code multiplies where a
row-major position adds.
-/

import Mathlib.Algebra.BigOperators.Group.List.Lemmas
import XHDF5.Client.Selection
import XHDF5.Math.Ravel

namespace XHDF5.Client

open XHDF5.Math

/-! ## The code -/

/-- A selection: one of the regular kinds, or a union of blocks that is no regular hyperslab. -/
inductive Selection
  | regular (selection : SpaceSelection)
  | irregular (list : List (List Nat))

/-- The selection lies inside an extent. Points and blocks are selected along dimensions, a list
of points is not empty, and a union of blocks that is not regular has two elements at least. -/
def Selection.Inside (dims : List Nat) : Selection → Prop
  | .regular .all | .regular .none => True
  | .regular (.points list) =>
      dims ≠ [] ∧ list ≠ [] ∧ ∀ point ∈ list, List.Forall₂ (· < ·) point dims
  | .regular (.hyperslab slabs) => slabs ≠ [] ∧ List.Forall₂ Slab.Inside slabs dims
  | .irregular list =>
      dims ≠ [] ∧ 2 ≤ list.length ∧ ∀ point ∈ list, List.Forall₂ (· < ·) point dims

/-- A dataspace with its selection. -/
structure Space where
  dims : List Nat
  selection : Selection
  inside : selection.Inside dims

namespace Space

/-- The dataspace of an extent with everything selected. -/
def whole (dims : List Nat) : Space where
  dims := dims
  selection := .regular .all
  inside := trivial

variable (s : Space)

/-- The row-major positions of the selected elements, in the order of the selection. -/
def offsets : List Nat :=
  match s.selection with
  | .regular .all => List.range s.dims.prod
  | .regular .none => []
  | .regular (.points list) | .irregular list => list.map (ravel s.dims)
  | .regular (.hyperslab slabs) => (slabCoords slabs).map (ravel s.dims)

/-- `H5Sget_select_npoints`. -/
def npoints : Nat := s.offsets.length

end Space

/-- A dimension of a hyperslab that is selected completely. -/
def isWhole (d : Slab) (dim : Nat) : Bool := d.start == 0 && d.count * d.block == dim

/-- The loop over the faster running dimensions, from the last one on: `none` is the jump with
`FALSE`, a value is the variable `whole`. -/
def wholeLoop : List (Slab × Nat) → Option Bool
  | [] => some true
  | (d, dim) :: axes => do
      let whole ← wholeLoop axes
      if dim > 1 ∧ d.count * d.block > 1 ∧ !whole then none else some (whole && isWhole d dim)

/-- `RV_dataspace_selection_is_contiguous`. -/
def rvDataspaceSelectionIsContiguous (s : Space) : Bool :=
  if s.npoints < 2 then true
  else if s.dims.length = 0 then true
  else
    match s.selection with
    | .irregular _ => false
    | .regular (.hyperslab slabs) =>
        -- `nblocks = H5Sget_select_hyper_nblocks(space_id) < 0` stores the comparison.
        let nblocks := 0
        if slabs.any fun d => d.stride > 1 then false
        else if nblocks > 1 ∧ slabs.dropLast.any fun d => d.count > 1 then false
        else (wholeLoop (List.zip slabs s.dims)).isSome
    | .regular (.points _) => false
    | .regular .all => true
    | .regular .none => false

/-- The lower corner that `H5Sget_select_bounds` reports. -/
def lowerBounds : List (List Nat) → List Nat
  | [] => []
  | first :: others => others.foldl (List.zipWith min) first

/-- The product that stands for the position of the first element. -/
def startProduct (dims start : List Nat) : Nat :=
  (List.zip dims start).tail.foldl (fun offset axis => offset * (axis.1 + axis.2)) (start.headD 0)

/-- `RV_convert_start_to_offset`; `none` is its error return. The product is exact: one that does
not fit `hssize_t` is behind every memory. -/
def rvConvertStartToOffset (s : Space) : Option Nat :=
  match s.selection with
  | .regular (.hyperslab slabs) => some (startProduct s.dims (slabs.map Slab.start))
  | .irregular list => some (startProduct s.dims (lowerBounds list))
  | .regular (.points _) => none
  | .regular .all | .regular .none => some 0

/-- Every start is zero, except one behind dimensions whose position so far is one. -/
def StartsFit : Nat → List (Nat × Nat) → Prop
  | _, [] => True
  | offset, (dim, start) :: axes =>
      (start = 0 ∨ offset = 1) ∧ StartsFit (offset * dim + start) axes

instance decidableStartsFit : (offset : Nat) → (axes : List (Nat × Nat)) →
    Decidable (StartsFit offset axes)
  | _, [] => isTrue trivial
  | offset, (dim, start) :: axes =>
      @instDecidableAnd _ _ _ (decidableStartsFit (offset * dim + start) axes)

/-- The starts for which the product is the position of the first element: everything, or a
hyperslab whose starts behind the first dimension fit. -/
def OffsetFits (s : Space) : Prop :=
  match s.selection with
  | .regular (.hyperslab slabs) =>
      StartsFit ((slabs.map Slab.start).headD 0) (List.zip s.dims (slabs.map Slab.start)).tail
  | _ => True

instance (s : Space) : Decidable (OffsetFits s) := by
  unfold OffsetFits
  split <;> infer_instance

/-! ## The position of the first element -/

section Offset

/-- The product and the position by the scheme of Horner agree exactly when the starts fit. -/
theorem foldl_product_eq_iff {axes : List (Nat × Nat)} (hpos : ∀ axis ∈ axes, 0 < axis.1)
    (offset : Nat) :
    axes.foldl (fun offset axis => offset * (axis.1 + axis.2)) offset =
        axes.foldl (fun offset axis => offset * axis.1 + axis.2) offset ↔
      StartsFit offset axes := by
  -- Once the two differ they differ for good.
  have hlt (axes : List (Nat × Nat)) (hpos : ∀ axis ∈ axes, 0 < axis.1) {first second : Nat}
      (h : second < first) : axes.foldl (fun offset axis => offset * axis.1 + axis.2) second <
        axes.foldl (fun offset axis => offset * (axis.1 + axis.2)) first := by
    induction axes generalizing first second with
    | nil => exact h
    | cons axis axes ih =>
        obtain ⟨haxis, hpos⟩ := List.forall_mem_cons.mp hpos
        apply ih hpos
        calc second * axis.1 + axis.2 < second * axis.1 + axis.2 + second * axis.2 + axis.1 := by
              omega
          _ = (second + 1) * (axis.1 + axis.2) := by ring
          _ ≤ first * (axis.1 + axis.2) := Nat.mul_le_mul_right _ h
  have hzero (axes : List (Nat × Nat)) (hpos : ∀ axis ∈ axes, 0 < axis.1) {second : Nat}
      (h : 0 < second) : axes.foldl (fun offset axis => offset * (axis.1 + axis.2)) 0 <
        axes.foldl (fun offset axis => offset * axis.1 + axis.2) second := by
    induction axes generalizing second with
    | nil => exact h
    | cons axis axes ih =>
        obtain ⟨haxis, hpos⟩ := List.forall_mem_cons.mp hpos
        rw [List.foldl_cons, List.foldl_cons, Nat.zero_mul]
        exact ih hpos (Nat.add_pos_left (Nat.mul_pos h haxis) _)
  induction axes generalizing offset with
  | nil => simp [StartsFit]
  | cons axis axes ih =>
      obtain ⟨dim, start⟩ := axis
      obtain ⟨hdim, hrest⟩ := List.forall_mem_cons.mp hpos
      rw [List.foldl_cons, List.foldl_cons, StartsFit]
      have hsplit : offset * (dim + start) = offset * dim + offset * start := Nat.mul_add _ _ _
      rcases Nat.eq_zero_or_pos start with rfl | hstart
      · simpa using ih hrest (offset * dim)
      · rcases Nat.lt_trichotomy offset 1 with hnone | rfl | hmany
        · obtain rfl : offset = 0 := by omega
          apply iff_of_false
          · have := hzero axes hrest hstart
            simpa using this.ne
          · rintro ⟨h | h, -⟩ <;> omega
        · simpa using ih hrest (dim + start)
        · apply iff_of_false
          · apply ne_of_gt
            apply hlt axes hrest
            rw [hsplit]
            exact Nat.add_lt_add_left ((Nat.lt_mul_iff_one_lt_left hstart).mpr hmany) _
          · rintro ⟨h | h, -⟩ <;> omega

/-- The product is the row-major position of the starts exactly when these fit. -/
theorem startProduct_eq_iff {dims start : List Nat} (hlen : start.length = dims.length)
    (hpos : ∀ dim ∈ dims, 0 < dim) :
    startProduct dims start = ravel dims start ↔
      StartsFit (start.headD 0) (List.zip dims start).tail := by
  cases dims with
  | nil =>
      obtain rfl := List.length_eq_zero_iff.mp hlen
      simp [startProduct, ravel, StartsFit]
  | cons dim dims =>
      cases start with
      | nil => cases hlen
      | cons first start =>
          rw [startProduct, ravel_cons, ← foldl_ravel (Nat.succ.inj hlen), List.zip_cons_cons,
            List.tail_cons, List.headD_cons]
          apply foldl_product_eq_iff
          intro axis haxis
          exact hpos _ (List.mem_cons_of_mem _ (List.of_mem_zip haxis).1)

end Offset

/-! ## Contiguous selections -/

/-- The start and the length of a gap-free dimension. -/
def slabAxis (d : Slab) : Nat × Nat := (d.start, d.count * d.block)

/-- The row-major position of the first selected element, where the selection is contiguous. -/
def Space.first (s : Space) : Nat :=
  match s.selection with
  | .regular (.hyperslab slabs) => ravel s.dims (slabs.map Slab.start)
  | _ => 0

section Contiguous

variable {slabs : List Slab} {dims : List Nat}

theorem slabCoords_eq_block (hinside : List.Forall₂ Slab.Inside slabs dims)
    (hdense : ∀ d ∈ slabs, d.Dense) : slabCoords slabs = block (slabs.map slabAxis) := by
  rw [slabCoords, block, List.map_map]
  congr 1
  refine List.map_congr_left fun d hd => ?_
  obtain ⟨extent, hextent⟩ := forall_inside hinside hd
  have hrange := d.indices_eq_range' hextent (hdense d hd)
  have hlen := congrArg List.length hrange
  rw [d.length_indices, List.length_range'] at hlen
  rw [hrange, ← hlen]
  rfl

theorem slabAxis_pos : ∀ axis ∈ slabs.map slabAxis, 0 < axis.2 := by
  intro axis haxis
  obtain ⟨d, -, rfl⟩ := List.mem_map.mp haxis
  exact Nat.mul_pos d.count_pos d.block_pos

theorem starts_lt (hinside : List.Forall₂ Slab.Inside slabs dims) :
    List.Forall₂ (· < ·) (slabs.map Slab.start) dims := by
  rw [List.forall₂_map_left_iff]
  refine hinside.imp fun d extent h => ?_
  have := d.block_pos
  have := h.1
  omega

theorem dims_pos (hinside : List.Forall₂ Slab.Inside slabs dims) : ∀ dim ∈ dims, 0 < dim := by
  intro dim hdim
  obtain ⟨k, hk, rfl⟩ := List.getElem_of_mem hdim
  have hlt := (starts_lt hinside).get (by simpa [hinside.length_eq] using hk) hk
  exact Nat.zero_lt_of_lt hlt

/-- What the loop over the faster dimensions establishes. -/
theorem wholeLoop_eq_some {whole : Bool} (hinside : List.Forall₂ Slab.Inside slabs dims)
    (hdense : ∀ d ∈ slabs, d.Dense) (h : wholeLoop (List.zip slabs dims) = some whole) :
    Contiguous (slabs.map slabAxis) dims ∧
      (whole = true → Whole (slabs.map slabAxis) dims) := by
  induction hinside generalizing whole with
  | nil => exact ⟨trivial, fun _ => rfl⟩
  | @cons d dim slabs dims hd hrest ih =>
      obtain ⟨hdenseHead, hdense⟩ := List.forall_mem_cons.mp hdense
      rw [List.zip_cons_cons, wholeLoop] at h
      obtain ⟨faster, hfaster, h⟩ := Option.bind_eq_some_iff.mp h
      obtain ⟨hcontiguous, hwhole⟩ := ih hdense hfaster
      split at h
      · cases h
      · next hguard =>
          have hlen : d.count * d.block ≤ dim := by
            have hlength := d.length_indices_le hd
            rw [d.length_indices, d.stop_eq hd] at hlength
            have := hd.1
            omega
          obtain rfl := Option.some.inj h
          refine ⟨⟨fun hlong => hwhole ?_, hcontiguous⟩, fun hall => ?_⟩
          · have hlong : 1 < d.count * d.block := hlong
            by_contra hfalse
            exact hguard ⟨lt_of_lt_of_le hlong hlen, hlong, by simpa using hfalse⟩
          · obtain ⟨hfaster, hhead⟩ := Bool.and_eq_true_iff.mp hall
            obtain ⟨hstart, hextent⟩ := Bool.and_eq_true_iff.mp hhead
            rw [Whole, List.map_cons, List.map_cons, hwhole hfaster]
            exact congrArg (· :: _) (Prod.ext (beq_iff_eq.mp hstart) (beq_iff_eq.mp hextent))

/-- One element is contiguous. -/
theorem contiguous_of_single (h : ∀ d ∈ slabs, d.count * d.block = 1) :
    Contiguous (slabs.map slabAxis) dims := by
  induction slabs generalizing dims with
  | nil => exact trivial
  | cons d slabs ih =>
      obtain ⟨hd, hrest⟩ := List.forall_mem_cons.mp h
      cases dims with
      | nil => exact trivial
      | cons dim dims => exact ⟨fun hlong => absurd hd hlong.ne', ih hrest⟩

/-- The check finds only dense selections, and none whose elements are apart. -/
theorem contiguous_of_check {s : Space} (hs : s.selection = .regular (.hyperslab slabs))
    (h : rvDataspaceSelectionIsContiguous s = true) :
    (∀ d ∈ slabs, d.Dense) ∧ Contiguous (slabs.map slabAxis) s.dims := by
  have hinside : slabs ≠ [] ∧ List.Forall₂ Slab.Inside slabs s.dims := by
    have hinside := s.inside
    rw [hs] at hinside
    exact hinside
  obtain ⟨hne, hinside⟩ := hinside
  rw [rvDataspaceSelectionIsContiguous, hs] at h
  split at h
  · next hsmall =>
      have hprod : (slabs.map fun d => d.count * d.block).prod < 2 := by
        rw [Space.npoints, Space.offsets, hs] at hsmall
        simpa only [List.length_map, length_slabCoords, Slab.length_indices] using hsmall
      have hone : ∀ d ∈ slabs, d.count * d.block = 1 := by
        intro d hd
        have hpos : 0 < (slabs.map fun d => d.count * d.block).prod := by
          apply List.prod_pos_iff_forall_pos_nat.mpr
          exact List.forall_mem_map.mpr fun d _ => Nat.mul_pos d.count_pos d.block_pos
        have hle := Nat.le_of_dvd hpos
          (List.dvd_prod (List.mem_map_of_mem (f := fun d : Slab => d.count * d.block) hd))
        have := Nat.mul_pos d.count_pos d.block_pos
        omega
      exact ⟨fun d hd => Or.inl (Nat.eq_one_of_mul_eq_one_right (hone d hd)),
        contiguous_of_single hone⟩
  · split at h
    · next hrank => exact absurd (hinside.length_eq.trans hrank) (by simpa using hne)
    · simp only [gt_iff_lt, Nat.not_lt_zero, false_and, if_false] at h
      split at h
      · cases h
      · next hstride =>
          have hdense : ∀ d ∈ slabs, d.Dense := by
            intro d hd
            have hle : ¬ 1 < d.stride := fun hlt =>
              hstride (List.any_eq_true.mpr ⟨d, hd, decide_eq_true hlt⟩)
            have hstride := d.stride_pos
            have hblock := d.block_pos
            rcases Nat.lt_or_ge 1 d.count with hmany | hfew
            · have := d.disjoint hmany
              exact Or.inr (by omega)
            · have := d.count_pos
              exact Or.inl (by omega)
          obtain ⟨whole, hwhole⟩ := Option.isSome_iff_exists.mp h
          exact ⟨hdense, (wholeLoop_eq_some hinside hdense hwhole).1⟩

end Contiguous

/-! ## The memory of a contiguous selection -/

section Memory

variable {s : Space}

/-- A union of blocks is never found contiguous. -/
theorem not_contiguous_irregular {list : List (List Nat)} (hs : s.selection = .irregular list) :
    rvDataspaceSelectionIsContiguous s = false := by
  have hinside := s.inside
  rw [hs] at hinside
  obtain ⟨hrank, htwo, -⟩ := hinside
  have hnpoints : ¬ s.npoints < 2 := by
    rw [Space.npoints, Space.offsets, hs, List.length_map]
    exact Nat.not_lt.mpr htwo
  rw [rvDataspaceSelectionIsContiguous, hs, if_neg hnpoints, if_neg (by simpa using hrank)]

/-- A contiguous selection that is not a list of points occupies consecutive positions. -/
theorem offsets_eq_range' (hcontiguous : rvDataspaceSelectionIsContiguous s = true)
    (hoffset : rvConvertStartToOffset s ≠ none) : s.offsets = List.range' s.first s.npoints := by
  have hinside := s.inside
  unfold Space.first Space.npoints
  unfold Space.offsets
  cases hs : s.selection with
  | irregular list =>
      rw [not_contiguous_irregular hs] at hcontiguous
      cases hcontiguous
  | regular selection =>
      cases selection with
      | all => simp [List.range_eq_range']
      | none => rfl
      | points list => exact absurd (by rw [rvConvertStartToOffset, hs]) hoffset
      | hyperslab slabs =>
          rw [hs] at hinside
          obtain ⟨hdense, hconsecutive⟩ := contiguous_of_check hs hcontiguous
          have hblock := slabCoords_eq_block hinside.2 hdense
          have hpositions := map_ravel_block (by simpa using hinside.2.length_eq) slabAxis_pos
            hconsecutive
          have hstarts : (slabs.map slabAxis).map Prod.fst = slabs.map Slab.start :=
            List.map_map
          simp only [hblock, hpositions, hstarts, List.length_range']

/-- The code finds the first element exactly when the starts fit. -/
theorem rvConvertStartToOffset_eq_iff (hcontiguous : rvDataspaceSelectionIsContiguous s = true)
    (hoffset : rvConvertStartToOffset s ≠ none) :
    rvConvertStartToOffset s = some s.first ↔ OffsetFits s := by
  have hinside := s.inside
  unfold rvConvertStartToOffset Space.first OffsetFits
  cases hs : s.selection with
  | irregular list =>
      rw [not_contiguous_irregular hs] at hcontiguous
      cases hcontiguous
  | regular selection =>
      cases selection with
      | all | none => exact iff_of_true rfl trivial
      | points list => exact absurd (by rw [rvConvertStartToOffset, hs]) hoffset
      | hyperslab slabs =>
          rw [hs] at hinside
          have hlen : (slabs.map Slab.start).length = s.dims.length := by
            simpa using hinside.2.length_eq
          simp only [Option.some.injEq]
          exact startProduct_eq_iff hlen (dims_pos hinside.2)

end Memory

end XHDF5.Client
