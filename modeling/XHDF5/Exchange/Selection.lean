/-
# What a selection means on both sides

The client prints a regular hyperslab as `start:stop:step` for each dimension; the plugin reads
everything between start and stop. Both mean the same elements exactly when no dimension has
gaps between its blocks and every bound survives the `int` parsers and the client's buffers.
-/

import XHDF5.Plugin.Select

namespace XHDF5.Exchange

open XHDF5.Math XHDF5.Client XHDF5.Plugin

/-- A parameter that went once more through `processInput` and `vector_to_string`. -/
def reRender (select : Text) : Option Text := do
  let (offset, count) ← processInput (select.drop 1).dropLast
  vectorToString count offset

/-- The plugin reads the elements of the hyperslab in row-major order, as many as selected. -/
def ReadsSelection (dims : List Nat) (slabs : List Slab) (select : Text) : Prop :=
  ∃ box, xrdReadDatasetInfoByChunked dims select = some box ∧ coords box = slabCoords slabs ∧
    points box = (slabCoords slabs).length

/-- Client and plugin agree on a hyperslab that the client renders as a request parameter. -/
def SelectionAgrees (dims : List Nat) (slabs : List Slab) : Prop :=
  ∀ select, rvConvertDataspaceSelectionToString slabs.length (.hyperslab slabs) true = some select →
    ReadsSelection dims slabs select ∧
      ∃ again, reRender select = some again ∧ ReadsSelection dims slabs again

/-- No gaps, and bounds within the parsers and `char buffer[20]`. -/
def Expressible (slabs : List Slab) : Prop :=
  ∀ d ∈ slabs, d.Dense ∧ d.stop < 2 ^ 31 ∧
    (decimal d.start).length + (decimal d.stop).length ≤ 16

instance (slabs : List Slab) : Decidable (Expressible slabs) :=
  inferInstanceAs (Decidable (∀ d ∈ slabs, _))

/-! ## The two readings -/

section Readings

variable {slabs : List Slab} {dims : List Nat}

/-- The plugin reads the interval between the bounds, if they are `int`s. -/
theorem xrdRead_slabText (hne : slabs ≠ []) (hinside : List.Forall₂ Slab.Inside slabs dims) :
    xrdReadDatasetInfoByChunked dims (slabText slabs) =
      if ∀ d ∈ slabs, d.stop < 2 ^ 31 then some (bounds slabs) else none := by
  have hmapped : List.Forall₂ (fun t extent => t.1 < t.2.1 ∧ t.2.1 ≤ extent)
      (slabs.map fun d => (d.start, d.stop, d.step)) dims :=
    List.forall₂_map_left_iff.mpr (inside_bounds hinside)
  rw [slabText_eq, xrdReadDatasetInfoByChunked_paramText (by simpa using hne) hmapped]
  simp only [List.forall_mem_map, List.map_map]
  rfl

theorem xrdRead_selectText (hne : slabs ≠ []) (hinside : List.Forall₂ Slab.Inside slabs dims) :
    xrdReadDatasetInfoByChunked dims (selectText (bounds slabs)) =
      if ∀ d ∈ slabs, d.stop < 2 ^ 31 then some (bounds slabs) else none := by
  have hmapped : List.Forall₂ (fun t extent => t.1 < t.2.1 ∧ t.2.1 ≤ extent)
      (slabs.map fun d => (d.start, d.stop, 1)) dims :=
    List.forall₂_map_left_iff.mpr (inside_bounds hinside)
  have htext : selectText (bounds slabs) = paramText ((slabs.map fun d => (d.start, d.stop, 1)).map
      fun t => tripleText t.1 t.2.1 t.2.2) := by
    rw [selectText, bounds, List.map_map, List.map_map]
    rfl
  rw [htext, xrdReadDatasetInfoByChunked_paramText (by simpa using hne) hmapped]
  simp only [List.forall_mem_map, List.map_map]
  rfl

/-- The client's splitter drops the steps and keeps the bounds. -/
theorem reRender_slabText (hne : slabs ≠ []) (hinside : List.Forall₂ Slab.Inside slabs dims) :
    reRender (slabText slabs) =
      if (∀ d ∈ slabs, d.stop < 2 ^ 31) ∧ FitsBuffer (bounds slabs) then
        some (selectText (bounds slabs))
      else none := by
  have hbounds : (∀ d ∈ bounds slabs, d.2 < 2 ^ 31) ↔ ∀ d ∈ slabs, d.stop < 2 ^ 31 := by
    rw [bounds, List.forall_mem_map]
  rw [reRender, processInput_slabText hinside]
  simp only [hbounds]
  by_cases hbound : ∀ d ∈ slabs, d.stop < 2 ^ 31
  · rw [if_pos hbound, Option.bind_eq_bind, Option.bind_some,
      vectorToString_box _ (by simpa [bounds] using hne)]
    simp only [and_iff_right hbound]
  · rw [if_neg hbound, if_neg fun h => hbound h.1]
    rfl

theorem readsSelection_iff (hinside : List.Forall₂ Slab.Inside slabs dims) {select : Text}
    (hread : xrdReadDatasetInfoByChunked dims select =
      if ∀ d ∈ slabs, d.stop < 2 ^ 31 then some (bounds slabs) else none) :
    ReadsSelection dims slabs select ↔ ∀ d ∈ slabs, d.Dense ∧ d.stop < 2 ^ 31 := by
  constructor
  · rintro ⟨box, hbox, hcoords, -⟩
    rw [hread] at hbox
    split at hbox
    · next hbound =>
        obtain rfl := Option.some.inj hbox
        exact fun d hd => ⟨(coords_bounds_eq_iff hinside).mp hcoords d hd, hbound d hd⟩
    · cases hbox
  · intro h
    have hcoords := (coords_bounds_eq_iff hinside).mpr fun d hd => (h d hd).1
    refine ⟨bounds slabs, ?_, hcoords, ?_⟩
    · rw [hread, if_pos fun d hd => (h d hd).2]
    · rw [← hcoords, length_coords]

end Readings

theorem zero_lt_three : 0 < 3 := by decide

/-- Two single elements three apart: start 0, stride 3, count 2, block 1. -/
def stridedSlab : Slab where
  start := 0
  stride := 3
  count := 2
  block := 1
  stride_pos := zero_lt_three
  count_pos := Nat.two_pos
  block_pos := Nat.one_pos
  disjoint := by decide

end XHDF5.Exchange
