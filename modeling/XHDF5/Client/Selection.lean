/-
# Selections and their texts

A dataspace selection leaves the client as text. A hyperslab whose values travel as binary data
becomes the request parameter `[X:Y:Z,X:Y:Z,...]`, one triple of start, stop and step for each
dimension; every other partial selection becomes JSON for the request body. The texts below are
the ones `RV_convert_dataspace_selection_to_string` prints into its buffers.
-/

import XHDF5.Math.CInt
import XHDF5.Math.Grid
import XHDF5.Math.Growing

namespace XHDF5.Client

open XHDF5.Math

/-! ## Hyperslabs -/

/-- One dimension of a regular hyperslab, as `H5Sget_regular_hyperslab` reports it. HDF5 refuses
a selection without blocks, an empty block and blocks that overlap. -/
structure Slab where
  start : Nat
  stride : Nat
  count : Nat
  block : Nat
  stride_pos : 0 < stride
  count_pos : 0 < count
  block_pos : 0 < block
  disjoint : 1 < count → block ≤ stride

namespace Slab

variable (d : Slab)

/-- The selected indices in increasing order. -/
def indices : List Nat :=
  (List.range d.count).flatMap fun k => List.range' (d.start + k * d.stride) d.block

/-- One past the last selected index, in the encoder's `hsize_t` arithmetic:
`start[i] + (stride[i] * (count[i] - 1)) + (block[i] - 1) + 1`. -/
def stop : Nat := wrap64 (d.start + d.stride * (d.count - 1) + (d.block - 1) + 1)

/-- The step the encoder prints: `stride[i] / block[i]`. -/
def step : Nat := d.stride / d.block

/-- The hyperslab lies inside a dimension of the given 64-bit extent. -/
def Inside (extent : Nat) : Prop :=
  d.start + d.stride * (d.count - 1) + d.block ≤ extent ∧ extent < 2 ^ 64

/-- The blocks follow each other without a gap. -/
def Dense : Prop := d.count = 1 ∨ d.stride = d.block

instance : Decidable d.Dense := inferInstanceAs (Decidable (_ ∨ _))

/-- The dense dimension `[first, last)`. -/
def range (first last : Nat) (h : first < last) : Slab where
  start := first
  stride := 1
  count := 1
  block := last - first
  stride_pos := Nat.one_pos
  count_pos := Nat.one_pos
  block_pos := Nat.sub_pos_of_lt h
  disjoint h := absurd h (lt_irrefl 1)

theorem stop_eq {extent : Nat} (h : d.Inside extent) :
    d.stop = d.start + d.stride * (d.count - 1) + d.block := by
  have hblock := d.block_pos
  rw [stop, wrap64_of_lt]
  · omega
  · obtain ⟨hle, hlt⟩ := h
    omega

theorem start_lt_stop {extent : Nat} (h : d.Inside extent) : d.start < d.stop := by
  have hblock := d.block_pos
  rw [d.stop_eq h]
  omega

theorem lt_of_mem_indices {d : Slab} {extent x : Nat} (h : d.Inside extent) (hx : x ∈ d.indices) :
    x < extent := by
  obtain ⟨k, hk, hx⟩ := List.mem_flatMap.mp hx
  have hk : k * d.stride ≤ d.stride * (d.count - 1) := by
    rw [Nat.mul_comm]
    exact Nat.mul_le_mul_left _ (Nat.le_sub_one_of_lt (List.mem_range.mp hk))
  have hlt := (List.mem_range'_1.mp hx).2
  have := h.1
  omega

theorem length_indices : d.indices.length = d.count * d.block := by
  simp [indices, List.length_flatMap]

/-- A gap-free hyperslab selects exactly the indices between its bounds. -/
theorem indices_eq_range' {extent : Nat} (h : d.Inside extent) (hdense : d.Dense) :
    d.indices = List.range' d.start (d.stop - d.start) := by
  obtain ⟨count, hcount⟩ : ∃ count, d.count = count + 1 :=
    ⟨d.count - 1, by have := d.count_pos; omega⟩
  have hlen : d.stop - d.start = d.count * d.block := by
    rw [d.stop_eq h]
    rcases hdense with hone | hstride
    · simp only [hone]; omega
    · rw [hstride, hcount, Nat.add_sub_cancel, Nat.mul_comm d.block, Nat.add_mul]; omega
  have hblocks (n : Nat) (hn : n = 1 ∨ d.stride = d.block) :
      ((List.range n).flatMap fun k => List.range' (d.start + k * d.stride) d.block) =
        List.range' d.start (n * d.block) := by
    rcases hn with rfl | hstride
    · simp
    · induction n with
      | zero => simp
      | succ n ih =>
          rw [List.range_succ, List.flatMap_append, ih]
          simp [hstride, Nat.add_mul]
  rw [hlen, indices, hblocks d.count hdense]

/-- A gap makes the bounding interval larger than the selection. -/
theorem length_indices_lt {extent : Nat} (h : d.Inside extent) (hgap : ¬ d.Dense) :
    d.indices.length < d.stop - d.start := by
  have hcount := d.count_pos
  obtain ⟨hone, hstride⟩ := not_or.mp hgap
  have hlt : d.block < d.stride := lt_of_le_of_ne (d.disjoint (by omega)) (Ne.symm hstride)
  obtain ⟨count, hcount'⟩ : ∃ count, d.count = count + 2 := ⟨d.count - 2, by omega⟩
  have hmul : (count + 1) * (d.block + 1) ≤ (count + 1) * d.stride := Nat.mul_le_mul_left _ hlt
  rw [d.length_indices, d.stop_eq h, hcount', show count + 2 - 1 = count + 1 by omega,
    Nat.mul_comm d.stride]
  have hexpand : (count + 2) * d.block + (count + 1) = (count + 1) * (d.block + 1) + d.block := by
    ring
  omega

theorem length_indices_le {extent : Nat} (h : d.Inside extent) :
    d.indices.length ≤ d.stop - d.start := by
  by_cases hdense : d.Dense
  · rw [d.indices_eq_range' h hdense]; simp
  · exact (d.length_indices_lt h hdense).le

theorem indices_ne_nil : d.indices ≠ [] := by
  rw [← List.length_pos_iff, d.length_indices]
  exact Nat.mul_pos d.count_pos d.block_pos

end Slab

/-- The elements of a regular hyperslab in row-major order. -/
def slabCoords (slabs : List Slab) : List (List Nat) :=
  grid (slabs.map Slab.indices)

/-! ## Dense selections -/

/-- A dense selection: one interval `[start, stop)` for each dimension. -/
abbrev Box := List (Nat × Nat)

/-- The indices of one interval. -/
def interval (d : Nat × Nat) : List Nat := List.range' d.1 (d.2 - d.1)

/-- The elements of a dense selection in row-major order. -/
def coords (box : Box) : List (List Nat) := grid (box.map interval)

/-- The number of elements of a dense selection. -/
def points (box : Box) : Nat := (box.map fun d => d.2 - d.1).prod

/-- The selected elements of a dataset, in row-major order. -/
def rowMajor {α : Type} (data : List Nat → α) (box : Box) : List α := (coords box).map data

@[simp]
theorem length_interval (d : Nat × Nat) : (interval d).length = d.2 - d.1 := by
  simp [interval]

theorem interval_ne_nil {d : Nat × Nat} (h : d.1 < d.2) : interval d ≠ [] := by
  rw [← List.length_pos_iff, length_interval]
  omega

theorem nodup_interval (d : Nat × Nat) : (interval d).Nodup := List.nodup_range'

theorem length_coords (box : Box) : (coords box).length = points box := by
  rw [coords, length_grid, points, List.map_map]
  congr 1
  exact List.map_congr_left fun d _ => length_interval d

theorem points_pos {box : Box} (hbox : ∀ d ∈ box, d.1 < d.2) : 0 < points box := by
  rw [← length_coords, List.length_pos_iff]
  refine grid_ne_nil fun axis haxis => ?_
  obtain ⟨d, hd, rfl⟩ := List.mem_map.mp haxis
  exact interval_ne_nil (hbox d hd)

theorem nodup_coords (box : Box) : (coords box).Nodup := by
  refine nodup_grid fun axis haxis => ?_
  obtain ⟨d, _, rfl⟩ := List.mem_map.mp haxis
  exact nodup_interval d

/-! ## Texts -/

/-- `%llu:%llu:%llu`. -/
def tripleText (start stop step : Nat) : Text :=
  [':'].intercalate [decimal start, decimal stop, decimal step]

/-- The text of the request parameter for a list of triples. -/
def paramText (triples : List Text) : Text :=
  '[' :: [','].intercalate triples ++ [']']

/-- The request parameter of a dense selection. -/
def selectText (box : Box) : Text :=
  paramText (box.map fun d => tripleText d.1 d.2 1)

/-- The request parameter of a regular hyperslab. -/
def slabText (slabs : List Slab) : Text :=
  paramText (slabs.map fun d => tripleText d.start d.stop d.step)

/-- The selection kinds of `H5Sget_select_type`. -/
inductive SpaceSelection
  | all
  | none
  | points (list : List (List Nat))
  | hyperslab (slabs : List Slab)

/-- The comparison with `H5S_SEL_POINTS`. -/
def SpaceSelection.isPoints : SpaceSelection → Bool
  | .points _ => true
  | _ => false

/-- The buffer length after `CHECKED_REALLOC`. -/
def checkedRealloc (bufferLen target rounds : Nat) : Nat := doubled bufferLen target rounds

/-- One point of a point list. -/
def pointText (ndims : Nat) (point : List Nat) : Text :=
  let body := [','].intercalate (point.map decimal)
  if ndims > 1 then '[' :: body ++ [']'] else body

/-- The three bodies of a hyperslab in JSON. The opening bracket meant for the steps is
appended to the stops a second time. -/
def slabBodies (slabs : List Slab) : Text × Text × Text :=
  ('[' :: [','].intercalate (slabs.map fun d => decimal d.start) ++ [']'],
    '[' :: '[' :: [','].intercalate (slabs.map fun d => decimal d.stop) ++ [']'],
    [','].intercalate (slabs.map fun d => decimal d.step) ++ [']'])

/-- `RV_convert_dataspace_selection_to_string`; `none` is its error return. -/
def rvConvertDataspaceSelectionToString (ndims : Nat) (selection : SpaceSelection)
    (reqParam : Bool) : Option Text :=
  if ndims = 0 then none
  else if reqParam then
    match selection with
    | .all | .none => some []
    | .points _ => none
    | .hyperslab slabs => some (slabText slabs)
  else
    match selection with
    | .all | .none => some []
    | .points list =>
        some ("\"points\": [".toList ++ [','].intercalate (list.map (pointText ndims)) ++ [']'])
    | .hyperslab slabs =>
        let (startBody, stopBody, stepBody) := slabBodies slabs
        let target := startBody.length + stopBody.length + stepBody.length + 1
        let text := "\"start\": ".toList ++ startBody ++ ",\"stop\": ".toList ++ stopBody ++
          ",\"step\": ".toList ++ stepBody
        if text.length ≥ checkedRealloc 512 target target then none else some text

/-! ## Reading the parameter back -/

theorem not_mem_tripleText {start stop step : Nat} {c : Char} (hcolon : c ≠ ':')
    (hdigit : c.isDigit = false) : c ∉ tripleText start stop step := by
  simp [tripleText, List.intercalate, not_mem_decimal hdigit, hcolon]

theorem tripleText_ne_nil (start stop step : Nat) : tripleText start stop step ≠ [] := by
  simp [tripleText, List.intercalate, decimal_ne_nil]

theorem strtok_tripleText (start stop step : Nat) :
    strtok (· == ':') (tripleText start stop step) =
      [decimal start, decimal stop, decimal step] :=
  strtok_intercalate (by simp [not_mem_decimal (c := ':') (by decide)])
    (by simp [decimal_ne_nil])

theorem getlines_tripleText (start stop step : Nat) :
    getlines ':' (tripleText start stop step) = [decimal start, decimal stop, decimal step] :=
  getlines_intercalate (by simp [not_mem_decimal (c := ':') (by decide)]) (by simp)
    (by simp [decimal_ne_nil])

theorem length_tripleText (start stop step : Nat) :
    (tripleText start stop step).length =
      (decimal start).length + (decimal stop).length + (decimal step).length + 2 := by
  simp [tripleText, List.intercalate]
  omega

/-! ## The interval around a hyperslab -/

/-- The dense selection between the bounds of a hyperslab. -/
def bounds (slabs : List Slab) : Box := slabs.map fun d => (d.start, d.stop)

section Bounds

variable {slabs : List Slab} {dims : List Nat}

theorem forall_inside (hinside : List.Forall₂ Slab.Inside slabs dims) {d : Slab} (hd : d ∈ slabs) :
    ∃ extent, d.Inside extent := by
  obtain ⟨k, hk, rfl⟩ := List.getElem_of_mem hd
  exact ⟨_, hinside.get hk (hinside.length_eq ▸ hk)⟩

theorem length_slabCoords : (slabCoords slabs).length = (slabs.map fun d => d.indices.length).prod := by
  rw [slabCoords, length_grid, List.map_map]
  rfl

theorem length_slabCoords_le (hinside : List.Forall₂ Slab.Inside slabs dims) :
    (slabCoords slabs).length ≤ points (bounds slabs) := by
  rw [length_slabCoords, points, bounds, List.map_map]
  induction hinside with
  | nil => exact le_rfl
  | cons h _ ih =>
      simp only [List.map_cons, List.prod_cons]
      exact Nat.mul_le_mul (Slab.length_indices_le _ h) ih

/-- A gap in one dimension leaves elements of the interval unselected. -/
theorem length_slabCoords_lt (hinside : List.Forall₂ Slab.Inside slabs dims)
    (hgap : ¬ ∀ d ∈ slabs, d.Dense) : (slabCoords slabs).length < points (bounds slabs) := by
  induction hinside with
  | nil => exact absurd (by simp) hgap
  | @cons d extent slabs dims h hrest ih =>
      have hpos : 0 < points (bounds slabs) := by
        refine points_pos fun bound hbound => ?_
        obtain ⟨e, he, rfl⟩ := List.mem_map.mp hbound
        exact e.start_lt_stop (forall_inside hrest he).choose_spec
      have hsplit : (slabCoords (d :: slabs)).length =
          d.indices.length * (slabCoords slabs).length := by
        rw [length_slabCoords, length_slabCoords, List.map_cons, List.prod_cons]
      have hpoints : points (bounds (d :: slabs)) = (d.stop - d.start) * points (bounds slabs) := by
        simp [points, bounds]
      rw [hsplit, hpoints]
      by_cases hdense : d.Dense
      · have hlt := ih fun hall => hgap (List.forall_mem_cons.mpr ⟨hdense, hall⟩)
        have hlen := List.length_pos_iff.mpr d.indices_ne_nil
        exact lt_of_lt_of_le (Nat.mul_lt_mul_of_pos_left hlt hlen)
          (Nat.mul_le_mul_right _ (d.length_indices_le h))
      · exact lt_of_le_of_lt (Nat.mul_le_mul_left _ (length_slabCoords_le hrest))
          (Nat.mul_lt_mul_of_pos_right (d.length_indices_lt h hdense) hpos)

/-- The interval is the hyperslab exactly when no dimension has a gap. -/
theorem coords_bounds_eq_iff (hinside : List.Forall₂ Slab.Inside slabs dims) :
    coords (bounds slabs) = slabCoords slabs ↔ ∀ d ∈ slabs, d.Dense := by
  constructor
  · intro heq
    by_contra hgap
    have hlt := length_slabCoords_lt hinside hgap
    rw [← heq, length_coords] at hlt
    exact lt_irrefl _ hlt
  · intro hdense
    rw [coords, slabCoords, bounds, List.map_map]
    congr 1
    refine List.map_congr_left fun d hd => ?_
    exact (d.indices_eq_range' (forall_inside hinside hd).choose_spec (hdense d hd)).symm

theorem inside_bounds (hinside : List.Forall₂ Slab.Inside slabs dims) :
    List.Forall₂ (fun d extent => d.start < d.stop ∧ d.stop ≤ extent) slabs dims :=
  hinside.imp fun d _ h => ⟨d.start_lt_stop h, (d.stop_eq h).trans_le h.1⟩

theorem bounds_lt (hinside : List.Forall₂ Slab.Inside slabs dims) :
    ∀ d ∈ bounds slabs, d.1 < d.2 := by
  intro bound hbound
  obtain ⟨d, hd, rfl⟩ := List.mem_map.mp hbound
  exact d.start_lt_stop (forall_inside hinside hd).choose_spec

end Bounds

theorem rvConvert_hyperslab {slabs : List Slab} (hne : slabs ≠ []) :
    rvConvertDataspaceSelectionToString slabs.length (.hyperslab slabs) true =
      some (slabText slabs) := by
  rw [rvConvertDataspaceSelectionToString, if_neg (by simpa using hne)]
  rfl

theorem slabText_eq (slabs : List Slab) : slabText slabs =
    paramText ((slabs.map fun d => (d.start, d.stop, d.step)).map
      fun t => tripleText t.1 t.2.1 t.2.2) := by
  rw [slabText, List.map_map]
  rfl

end XHDF5.Client
