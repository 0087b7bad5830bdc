/-
# The bytes of a contiguous selection

For a memory selection that is found contiguous a write sends the memory from the first element
on; for any other it first gathers the selected elements. Both are stated here for one buffer, and
the first is compared with the second.
-/

import XHDF5.Client.Write
import XHDF5.Math.Buffer

namespace XHDF5.Client

open XHDF5.Math

/-! ## The two paths -/

/-- What is sent for a contiguous selection: `npoints` elements at `buf_to_write`, which is moved
by `offset * dtype_size`. -/
def contiguousBytes (s : Space) (size : Nat) (buf : Buffer UInt8) : Outcome (List UInt8) :=
  match rvConvertStartToOffset s with
  | none => .fail
  | some offset => buf.load (offset * size) (s.npoints * size)

/-- What `H5Dgather` puts into `write_body`: the selected elements, in the order of the
selection. -/
def gatheredBytes (s : Space) (size : Nat) (buf : Buffer UInt8) : Outcome (List UInt8) :=
  buf.gather size s.offsets

/-- A buffer with room for the elements of an extent. -/
def extentBuffer (s : Space) (size : Nat) (bytes : Memory UInt8) : Buffer UInt8 :=
  ⟨bytes, s.dims.prod * size⟩

/-- Whatever the memory holds, the contiguous path sends what the general path gathers. -/
def PathsAgree (s : Space) (size : Nat) : Prop :=
  rvDataspaceSelectionIsContiguous s = true → ∀ bytes : Memory UInt8,
    contiguousBytes s size (extentBuffer s size bytes) =
      gatheredBytes s size (extentBuffer s size bytes)

/-! ## When the paths agree -/

section Paths

variable {s : Space} {size : Nat} {bytes : Memory UInt8}

theorem within_extentBuffer {start count : Nat} (h : count = 0 ∨ start + count ≤ s.dims.prod) :
    (extentBuffer s size bytes).Within (start * size) (count * size) := by
  rcases h with rfl | h
  · exact Or.inl (Nat.zero_mul _)
  · exact Or.inr ((Nat.add_mul _ _ _).symm.trans_le (Nat.mul_le_mul_right _ h))

/-- The general path reads inside the memory. -/
theorem gatheredBytes_extentBuffer :
    gatheredBytes s size (extentBuffer s size bytes) =
      .ok (s.offsets.flatMap fun offset => bytes.read (offset * size) size) := by
  apply Buffer.gather_of_within
  intro offset hoffset
  have hlt := offsets_lt offset hoffset
  simpa using @within_extentBuffer s size bytes offset 1 (Or.inr hlt)

/-- Consecutive elements are gathered as one piece. -/
theorem gatheredBytes_consecutive {first : Nat}
    (hoffsets : s.offsets = List.range' first s.npoints) :
    gatheredBytes s size (extentBuffer s size bytes) =
      (extentBuffer s size bytes).load (first * size) (s.npoints * size) := by
  have hwithin : s.npoints = 0 ∨ first + s.npoints ≤ s.dims.prod := by
    rcases Nat.eq_zero_or_pos s.npoints with hzero | hpos
    · exact Or.inl hzero
    · have hlast : first + s.npoints - 1 ∈ s.offsets := by
        rw [hoffsets, List.mem_range'_1]
        omega
      have hlt := offsets_lt _ hlast
      omega
  rw [gatheredBytes_extentBuffer, Buffer.load_of_within (within_extentBuffer hwithin), hoffsets,
    ← Memory.read_mul]
  rfl

/-- A hyperslab has elements. -/
theorem npoints_pos_of_not_fits (h : ¬ OffsetFits s) : 0 < s.npoints := by
  unfold OffsetFits at h
  split at h
  · next slabs hs =>
      rw [Space.npoints, Space.offsets, hs, List.length_map, length_slabCoords]
      apply List.prod_pos_iff_forall_pos_nat.mpr
      refine List.forall_mem_map.mpr fun d _ => ?_
      rw [d.length_indices]
      exact Nat.mul_pos d.count_pos d.block_pos
  · exact absurd trivial h

/-- Elements that are read at another place differ in some memory. -/
theorem exists_load_ne {offset first len : Nat} (hlen : 0 < len) (hne : offset ≠ first) :
    ∃ bytes : Memory UInt8, bytes.read offset len ≠ bytes.read first len := by
  refine ⟨fun address => if address = first then 1 else 0, fun heq => ?_⟩
  obtain ⟨k, rfl⟩ := Nat.exists_eq_add_one.mpr hlen
  have hhead := congrArg List.head? heq
  simp [Memory.read, List.range'_succ, hne] at hhead

/-- The contiguous path sends the gathered elements exactly when the selection is no single point
and its starts fit. -/
theorem pathsAgree_iff (hsize : 0 < size) :
    PathsAgree s size ↔
      (rvDataspaceSelectionIsContiguous s = true → ¬ IsSinglePoint s ∧ OffsetFits s) := by
  refine forall_congr' fun hcontiguous => ?_
  by_cases hpoint : IsSinglePoint s
  · -- The first element is not found.
    have hnone := (isSinglePoint_iff.mp hpoint).2
    refine iff_of_false (fun hagree => ?_) fun h => h.1 hpoint
    have hbytes := hagree fun _ => 0
    rw [contiguousBytes, hnone, gatheredBytes_extentBuffer] at hbytes
    cases hbytes
  · have hsome : rvConvertStartToOffset s ≠ none := fun hnone =>
      hpoint (isSinglePoint_iff.mpr ⟨hcontiguous, hnone⟩)
    have hoffsets := offsets_eq_range' hcontiguous hsome
    have hfits := rvConvertStartToOffset_eq_iff hcontiguous hsome
    rw [and_iff_right hpoint]
    constructor
    · intro hagree
      by_contra hmisfit
      obtain ⟨offset, hoffset⟩ := Option.ne_none_iff_exists'.mp hsome
      have hne : offset ≠ s.first := fun heq => hmisfit (hfits.mp (heq ▸ hoffset))
      have hlen : 0 < s.npoints * size := Nat.mul_pos (npoints_pos_of_not_fits hmisfit) hsize
      obtain ⟨bytes, hbytes⟩ := exists_load_ne hlen fun heq =>
        hne (Nat.eq_of_mul_eq_mul_right hsize heq)
      have hsent := hagree bytes
      rw [contiguousBytes, hoffset, gatheredBytes_extentBuffer, hoffsets,
        ← Memory.read_mul] at hsent
      simp only [Buffer.load] at hsent
      split at hsent
      · exact hbytes (Outcome.ok.inj hsent)
      · cases hsent
    · intro hall bytes
      rw [contiguousBytes, hfits.mpr hall, gatheredBytes_consecutive hoffsets]

end Paths

/-! ## A part of a row -/

theorem one_lt_three : 1 < 3 := by decide

/-- The last two elements of the first row of a square. -/
def endOfRow : Space where
  dims := [3, 3]
  selection := .regular (.hyperslab [.range 0 1 Nat.one_pos, .range 1 3 one_lt_three])
  inside := ⟨by decide, by simp [Slab.Inside, Slab.range]⟩

theorem pathsAgree_iff_endOfRow :
    PathsAgree endOfRow 8 ↔ (rvDataspaceSelectionIsContiguous endOfRow = true →
      ¬ IsSinglePoint endOfRow ∧ OffsetFits endOfRow) :=
  pathsAgree_iff (by decide)

/-- The first two elements of the row are sent in their place. -/
theorem not_pathsAgree_endOfRow : ¬ PathsAgree endOfRow 1 := by
  intro hagree
  have hsent := hagree (by decide) fun address => if address = 0 then 1 else 0
  revert hsent
  decide

end XHDF5.Client
