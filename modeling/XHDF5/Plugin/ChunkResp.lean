/-
# Chunked responses

A payload larger than `MAX_DATA_BUFFER` is sent in chunks of that size, a last one for the rest, and
an empty one that ends the response. The loop for whole datasets counts and multiplies in `int`; the
loop for selections computes in `size_t` and only counts in `int`.
-/

import XHDF5.Math.CInt

namespace XHDF5.Plugin

open XHDF5.Math

/-! ## Blocks in a row -/

/-- The blocks are not empty and lie one behind the other between two positions. -/
def Tiles : Nat → List (Nat × Nat) → Nat → Prop
  | start, [], stop => start = stop
  | start, block :: blocks, stop =>
      block.1 = start ∧ 0 < block.2 ∧ Tiles (start + block.2) blocks stop

/-- Equal blocks and a rest. -/
def equalBlocks (size total k n : Nat) : List (Nat × Nat) :=
  (List.range (n + 1)).map fun i =>
    ((k + i) * size, if i = n then total - (k + i) * size else size)

/-- Equal blocks and a rest cover everything when something is left for the rest. -/
theorem tiles_equalBlocks_iff {size total : Nat} (hsize : 0 < size) (k n : Nat) :
    Tiles (k * size) (equalBlocks size total k n) total ↔ (k + n) * size < total := by
  induction n generalizing k with
  | zero =>
      rw [equalBlocks, List.range_one, List.map_singleton]
      simp only [Tiles, Nat.add_zero, if_true, true_and]
      omega
  | succ n ih =>
      have htail : equalBlocks size total k (n + 1) =
          (k * size, size) :: equalBlocks size total (k + 1) n := by
        rw [equalBlocks, List.range_succ_eq_map, List.map_cons, List.map_map, equalBlocks]
        congr 1
        apply List.map_congr_left
        intro i _
        simp only [Function.comp_apply, Nat.succ_eq_add_one, Nat.add_right_cancel_iff]
        rw [Nat.add_assoc, Nat.add_comm 1 i]
      have hnext : k * size + size = (k + 1) * size := (Nat.succ_mul k size).symm
      rw [htail, Tiles, hnext, ih, Nat.add_assoc, Nat.add_comm 1 n]
      exact ⟨fun h => h.2.2, fun h => ⟨rfl, hsize, h⟩⟩

/-! ## The loops -/

/-- `MAX_DATA_BUFFER`, an `int`. -/
def maxDataBuffer : Nat := 1024000000

/-- The arguments of `ChunkResp`: an offset into `read_data`, or NULL, and the length. -/
structure ChunkCall where
  body : Option Nat
  bodyLen : Nat
deriving DecidableEq

/-- `ChunkResp(NULL, 0)`. -/
def lastCall : ChunkCall := ⟨none, 0⟩

/-- The handlers that send a value: of a whole dataset, and of a selection. -/
inductive ValuePath
  | whole
  | selection
deriving DecidableEq

/-- The loop for whole datasets; the product of two `int` must not overflow. -/
def wholeCalls (dataSize : Nat) : Option (List ChunkCall) :=
  let numChunks := toInt (dataSize / maxDataBuffer + 1)
  (List.range numChunks.toNat).mapM fun i : Nat =>
    (cint (i * maxDataBuffer)).map fun product =>
      let offset := toSize product
      ⟨some offset, if (i : Int) = numChunks - 1 then dataSize - offset else maxDataBuffer⟩

/-- The loop for selections; its `int` counter must not overflow before it reaches `numChunks`. -/
def selectionCalls (dataSize : Nat) : Option (List ChunkCall) :=
  let numChunks := dataSize / maxDataBuffer + 1
  if numChunks < 2 ^ 31 then
    some ((List.range numChunks).map fun i =>
      let offset := wrap64 (i * maxDataBuffer)
      ⟨some offset, if i = numChunks - 1 then dataSize - offset else maxDataBuffer⟩)
  else none

/-- The calls of `ChunkResp` for a payload larger than `MAX_DATA_BUFFER`. -/
def chunkCalls (path : ValuePath) (dataSize : Nat) : Option (List ChunkCall) :=
  (match path with
    | .whole => wholeCalls dataSize
    | .selection => selectionCalls dataSize).map fun calls => calls ++ [lastCall]

/-! ## What they send -/

/-- The payload is sent in chunks that are not empty, one behind the other, and one empty chunk
after them. -/
def PartitionsPayload (dataSize : Nat) (calls : Option (List ChunkCall)) : Prop :=
  ∃ blocks, calls = some ((blocks.map fun block => ⟨some block.1, block.2⟩) ++ [lastCall]) ∧
    Tiles 0 blocks dataSize

/-- The number of full chunks fits the loop, and something is left for the last one. -/
def ChunksFit : ValuePath → Nat → Prop
  | .whole, dataSize =>
      dataSize / maxDataBuffer % 2 ^ 32 ≤ 2 ∧
        dataSize / maxDataBuffer % 2 ^ 32 * maxDataBuffer < dataSize
  | .selection, dataSize =>
      dataSize / maxDataBuffer + 1 < 2 ^ 31 ∧ dataSize % maxDataBuffer ≠ 0

/-- Calls for equal blocks send the payload when these cover it. -/
theorem partitionsPayload_equalBlocks_iff {dataSize n : Nat} {calls : Option (List ChunkCall)}
    (hcalls : calls = some (((equalBlocks maxDataBuffer dataSize 0 n).map fun block =>
      ⟨some block.1, block.2⟩) ++ [lastCall])) :
    PartitionsPayload dataSize calls ↔ n * maxDataBuffer < dataSize := by
  have htiles := @tiles_equalBlocks_iff _ dataSize (show 0 < maxDataBuffer by decide) 0 n
  rw [Nat.zero_mul, Nat.zero_add] at htiles
  rw [← htiles]
  constructor
  · intro h
    obtain ⟨blocks, hblocks, htiling⟩ := h
    rw [hcalls] at hblocks
    have hmap := List.append_cancel_right (Option.some.inj hblocks)
    have hinjective : Function.Injective fun block : Nat × Nat =>
        (⟨some block.1, block.2⟩ : ChunkCall) := by
      intro a b hab
      simp only [ChunkCall.mk.injEq, Option.some.injEq] at hab
      exact Prod.ext hab.1 hab.2
    rwa [List.map_injective_iff.mpr hinjective hmap]
  · exact fun h => ⟨_, hcalls, h⟩
/-! ## The loop for whole datasets -/

/-- With so many chunks every product must be an `int`. -/
theorem wholeCalls_eq {dataSize n : Nat} (hn : toInt (dataSize / maxDataBuffer + 1) = (n + 1 : Nat)) :
    wholeCalls dataSize =
      if n ≤ 2 then
        some ((equalBlocks maxDataBuffer dataSize 0 n).map fun block => ⟨some block.1, block.2⟩)
      else none := by
  let call (i : Nat) : ChunkCall := ⟨some (i * maxDataBuffer),
    if i = n then dataSize - i * maxDataBuffer else maxDataBuffer⟩
  have hstep (i : Nat) : ((cint (i * maxDataBuffer)).map fun product =>
      let offset := toSize product
      (⟨some offset, if (i : Int) = (n + 1 : Nat) - 1 then dataSize - offset else maxDataBuffer⟩ :
        ChunkCall)) = if i * maxDataBuffer < 2 ^ 31 then some (call i) else none := by
    have hlast : ((i : Int) = (n + 1 : Nat) - 1) ↔ i = n := by omega
    rw [← Int.natCast_mul, cint_natCast]
    by_cases hi : i * maxDataBuffer < 2 ^ 31
    · rw [if_pos hi, if_pos hi, Option.map_some, toSize_natCast (by omega)]
      simp only [hlast, call]
    · rw [if_neg hi, if_neg hi, Option.map_none]
  have hall : (∀ i ∈ List.range (n + 1), i * maxDataBuffer < 2 ^ 31) ↔ n ≤ 2 := by
    rw [maxDataBuffer]
    constructor
    · intro h
      have hlast := h n (by simp)
      omega
    · intro h i hi
      rw [List.mem_range] at hi
      omega
  have hmap : (List.range (n + 1)).map call =
      (equalBlocks maxDataBuffer dataSize 0 n).map fun block => ⟨some block.1, block.2⟩ := by
    rw [equalBlocks, List.map_map]
    apply List.map_congr_left
    intro i _
    simp only [Function.comp_apply, Nat.zero_add, call]
  rw [wholeCalls, hn]
  simp only [Int.toNat_natCast, hstep]
  rw [mapM_check, hmap]
  by_cases hsmall : n ≤ 2
  · rw [if_pos hsmall, if_pos (hall.mpr hsmall)]
  · rw [if_neg hsmall, if_neg fun h => hsmall (hall.mp h)]

/-- A conversion that gives no positive number of chunks sends none of them. -/
theorem wholeCalls_eq_nil {dataSize : Nat} (hn : toInt (dataSize / maxDataBuffer + 1) ≤ 0) :
    wholeCalls dataSize = some [] := by
  rw [wholeCalls, Int.toNat_of_nonpos hn]
  rfl

theorem whole_partitionsPayload_iff {dataSize : Nat} (hsize : maxDataBuffer < dataSize) :
    PartitionsPayload dataSize (chunkCalls .whole dataSize) ↔ ChunksFit .whole dataSize := by
  have hcalls : chunkCalls .whole dataSize =
      (wholeCalls dataSize).map fun calls => calls ++ [lastCall] := rfl
  rw [ChunksFit]
  have hmod : (dataSize / maxDataBuffer + 1) % 2 ^ 32 =
      if dataSize / maxDataBuffer % 2 ^ 32 = 2 ^ 32 - 1 then 0
      else dataSize / maxDataBuffer % 2 ^ 32 + 1 := by
    split <;> omega
  by_cases hpositive : 0 < toInt (dataSize / maxDataBuffer + 1)
  · have hlt : (dataSize / maxDataBuffer + 1) % 2 ^ 32 < 2 ^ 31 := by
      by_contra hge
      have hneg := toInt_neg_of_le (Nat.le_of_not_lt hge)
      omega
    have hint := toInt_of_lt hlt
    have hn : toInt (dataSize / maxDataBuffer + 1) =
        (dataSize / maxDataBuffer % 2 ^ 32 + 1 : Nat) := by
      rw [hint] at hpositive ⊢
      split at hmod <;> omega
    rw [wholeCalls_eq hn] at hcalls
    by_cases hsmall : dataSize / maxDataBuffer % 2 ^ 32 ≤ 2
    · rw [if_pos hsmall] at hcalls
      rw [partitionsPayload_equalBlocks_iff hcalls]
      exact ⟨fun h => ⟨hsmall, h⟩, fun h => h.2⟩
    · rw [if_neg hsmall] at hcalls
      refine iff_of_false ?_ fun h => hsmall h.1
      intro h
      obtain ⟨blocks, hblocks, -⟩ := h
      rw [hcalls] at hblocks
      cases hblocks
  · have hnil := wholeCalls_eq_nil (Int.not_lt.mp hpositive)
    rw [hnil] at hcalls
    apply iff_of_false
    · intro h
      obtain ⟨blocks, hblocks, htiles⟩ := h
      rw [hcalls] at hblocks
      cases blocks with
      | nil =>
          rw [Tiles] at htiles
          omega
      | cons block blocks => simp at hblocks
    · intro h
      have hlt : (dataSize / maxDataBuffer + 1) % 2 ^ 32 < 2 ^ 31 := by
        split at hmod <;> omega
      rw [toInt_of_lt hlt] at hpositive
      split at hmod <;> omega

/-! ## The loop for selections -/

theorem selection_partitionsPayload_iff {dataSize : Nat} (hsize : dataSize < 2 ^ 64) :
    PartitionsPayload dataSize (chunkCalls .selection dataSize) ↔ ChunksFit .selection dataSize := by
  have hcalls : chunkCalls .selection dataSize =
      (selectionCalls dataSize).map fun calls => calls ++ [lastCall] := rfl
  rw [ChunksFit]
  by_cases hcount : dataSize / maxDataBuffer + 1 < 2 ^ 31
  · have hmap : ((List.range (dataSize / maxDataBuffer + 1)).map fun i =>
        let offset := wrap64 (i * maxDataBuffer)
        (⟨some offset, if i = dataSize / maxDataBuffer + 1 - 1 then dataSize - offset
          else maxDataBuffer⟩ : ChunkCall)) =
        (equalBlocks maxDataBuffer dataSize 0 (dataSize / maxDataBuffer)).map fun block =>
          ⟨some block.1, block.2⟩ := by
      rw [equalBlocks, List.map_map]
      apply List.map_congr_left
      intro i hi
      have hle : i * maxDataBuffer ≤ dataSize := by
        rw [List.mem_range, Nat.lt_succ_iff] at hi
        exact Nat.le_trans (Nat.mul_le_mul_right _ hi) (Nat.div_mul_le_self _ _)
      simp only [Function.comp_apply, Nat.zero_add, Nat.add_sub_cancel]
      rw [wrap64_of_lt (by omega)]
    rw [selectionCalls, if_pos hcount, hmap] at hcalls
    rw [partitionsPayload_equalBlocks_iff hcalls]
    have hdiv := Nat.div_add_mod' dataSize maxDataBuffer
    constructor
    · intro h
      exact ⟨hcount, by omega⟩
    · intro h
      have hrest := h.2
      omega
  · rw [selectionCalls, if_neg hcount] at hcalls
    refine iff_of_false ?_ fun h => hcount h.1
    intro h
    obtain ⟨blocks, hblocks, -⟩ := h
    rw [hcalls] at hblocks
    cases hblocks

/-- A payload is sent as a partition exactly when the number of its chunks fits the loop and the
last chunk is not empty. -/
theorem partitionsPayload_iff_chunksFit (path : ValuePath) (dataSize : UInt64)
    (hsize : maxDataBuffer < dataSize.toNat) :
    PartitionsPayload dataSize.toNat (chunkCalls path dataSize.toNat) ↔
      ChunksFit path dataSize.toNat := by
  cases path with
  | whole => exact whole_partitionsPayload_iff hsize
  | selection => exact selection_partitionsPayload_iff dataSize.toNat_lt

/-- One byte more than a full chunk. -/
theorem partitionsPayload_iff_chunksFit_twoChunks :
    PartitionsPayload 1024000001 (chunkCalls .whole 1024000001) ↔ ChunksFit .whole 1024000001 :=
  partitionsPayload_iff_chunksFit .whole 1024000001 (by decide)

/-- Two full chunks are followed by an empty one before the last call. -/
theorem not_partitionsPayload_fullChunks :
    ¬ PartitionsPayload 2048000000 (chunkCalls .selection 2048000000) := by
  rw [selection_partitionsPayload_iff (by decide)]
  exact fun h => h.2 (by decide)

end XHDF5.Plugin
