/-
# The functions that track the memory of the connector

With `RV_TRACK_MEM_USAGE` the connector allocates through functions of its own. A block has its size
in front of what the caller gets, and `H5_rest_curr_alloc_bytes` adds the sizes up; `H5rest_term`
complains when it is not zero. For the caller the functions are those of C, but a reallocation that is
refused copies to the null pointer.
-/

import Mathlib.Data.List.Nodup
import XHDF5.Math.Bytes
import XHDF5.Math.Heap

namespace XHDF5.Client.MemTracker

open XHDF5.Math

/-! ## The code -/

/-- `sizeof(size_t)`. -/
def sizeBytes : Nat := 8

/-- The number of values of `size_t`. -/
def sizeMod : Nat := 2 ^ 64

/-- The heap, and `H5_rest_curr_alloc_bytes`. -/
structure Tracker where
  heap : Heap UInt8
  currAllocBytes : Nat

/-- What `malloc` answers to a number of bytes: nothing, or the address of a block with the bytes that
are found in it. -/
abbrev Malloc := Nat → Option (Nat × List UInt8)

/-- The number of bytes that are asked for. -/
def requested (size : Nat) : Nat := (size + sizeBytes) % sizeMod

/-- `RV_malloc_debug`. -/
def rvMallocDebug (t : Tracker) (size : Nat) (malloc : Malloc) : Outcome (Tracker × Nat) :=
  if size = 0 then .ok (t, 0)
  else
    match malloc (requested size) with
    | none => .ok (t, 0)
    | some (address, fresh) =>
        ((t.heap.alloc address fresh).store address (littleEndian sizeBytes size)).bind fun heap =>
          .ok ({ heap := heap, currAllocBytes := (t.currAllocBytes + size) % sizeMod },
            address + sizeBytes)

/-- `RV_calloc_debug`, which the macro `RV_calloc` does not call. -/
def rvCallocDebug (t : Tracker) (size : Nat) (malloc : Malloc) : Outcome (Tracker × Nat) :=
  if size = 0 then .ok (t, 0)
  else
    (rvMallocDebug t size malloc).bind fun (t, mem) =>
      if mem = 0 then .ok (t, 0)
      else
        (t.heap.store mem (List.replicate size 0)).bind fun heap =>
          .ok ({ t with heap := heap }, mem)

/-- `RV_free_debug`. -/
def rvFreeDebug (t : Tracker) (mem : Nat) : Outcome (Tracker × Nat) :=
  if mem = 0 then .ok (t, 0)
  else
    (t.heap.load (mem - sizeBytes) sizeBytes).bind fun blockSize =>
      (t.heap.free (mem - sizeBytes)).bind fun heap =>
        .ok ({ heap := heap
               currAllocBytes :=
                (t.currAllocBytes + sizeMod - ofLittleEndian blockSize) % sizeMod }, 0)

/-- `RV_realloc_debug`. -/
def rvReallocDebug (t : Tracker) (mem size : Nat) (malloc : Malloc) : Outcome (Tracker × Nat) :=
  if mem = 0 ∧ size = 0 then .ok (t, 0)
  else if 0 < size then
    if mem ≠ 0 then
      (t.heap.load (mem - sizeBytes) sizeBytes).bind fun blockSize =>
        (rvMallocDebug t size malloc).bind fun (t, new) =>
          (t.heap.load mem (min size (ofLittleEndian blockSize))).bind fun bytes =>
            (t.heap.store new bytes).bind fun heap =>
              (rvFreeDebug { t with heap := heap } mem).bind fun (t, _) => .ok (t, new)
    else rvMallocDebug t size malloc
  else rvFreeDebug t mem

/-- What the connector does with its memory. The macro `RV_calloc` stands for `RV_malloc_debug`. -/
inductive Call
  | malloc (size : Nat)
  | calloc (size : Nat)
  | callocDebug (size : Nat)
  | realloc (mem size : Nat)
  | free (mem : Nat)
  | store (mem offset : Nat) (values : List UInt8)

/-- One call, with the pointer it returns. -/
def Tracker.step (t : Tracker) (malloc : Malloc) : Call → Outcome (Tracker × Nat)
  | .malloc size | .calloc size => rvMallocDebug t size malloc
  | .callocDebug size => rvCallocDebug t size malloc
  | .realloc mem size => rvReallocDebug t mem size malloc
  | .free mem => rvFreeDebug t mem
  | .store mem offset values =>
      (t.heap.store (mem + offset) values).bind fun heap => .ok ({ t with heap := heap }, 0)

/-- Some calls, each with the answers of `malloc`. -/
def Tracker.run (t : Tracker) : List (Call × Malloc) → Outcome Tracker
  | [] => .ok t
  | (call, malloc) :: rest => (t.step malloc call).bind fun (t, _) => t.run rest

/-! ## What the caller owns -/

/-- The pointers that the caller has got and not given back, with what it finds there. -/
abbrev Owned := List (Nat × List UInt8)

namespace Owned

variable (o : Owned)

/-- The pointer to a new block. -/
def grant (size : Nat) (malloc : Malloc) : Owned × Nat :=
  if size = 0 then (o, 0)
  else
    match malloc (requested size) with
    | none => (o, 0)
    | some (address, fresh) =>
        ((address + sizeBytes, fresh.drop sizeBytes) :: o, address + sizeBytes)

/-- Without a pointer. -/
def without (mem : Nat) : Owned := o.filter fun block => block.1 ≠ mem

/-- With other bytes behind a pointer. -/
def change (mem offset : Nat) (values : List UInt8) : Owned :=
  o.map fun block => if block.1 = mem then (block.1, splice block.2 offset values) else block

/-- The bytes behind a pointer. -/
def bytes (mem : Nat) : List UInt8 := ((o.find? fun block => block.1 = mem).map Prod.snd).getD []

/-- One call as C describes it. A reallocation keeps the bytes that fit, and when it is refused the
block is left as it is. -/
def step (malloc : Malloc) : Call → Owned × Nat
  | .malloc size | .calloc size => o.grant size malloc
  | .callocDebug size =>
      ((o.grant size malloc).1.change (o.grant size malloc).2 0 (List.replicate size 0),
        (o.grant size malloc).2)
  | .realloc mem size =>
      if mem = 0 then o.grant size malloc
      else if size = 0 then (o.without mem, 0)
      else if (o.grant size malloc).2 = 0 then (o, 0)
      else
        (((o.grant size malloc).1.change (o.grant size malloc).2 0
            ((o.bytes mem).take size)).without mem,
          (o.grant size malloc).2)
  | .free mem => (o.without mem, 0)
  | .store mem offset values => (o.change mem offset values, 0)

/-- Some calls. -/
def after (o : Owned) : List (Call × Malloc) → Owned
  | [] => o
  | (call, malloc) :: rest => after (o.step malloc call).1 rest

/-- The blocks that `malloc` has given away. -/
def blocks : List (Nat × Nat) :=
  o.map fun block => (block.1 - sizeBytes, sizeBytes + block.2.length)

/-- The caller gives back and changes only what it owns, and sizes are values of `size_t`. -/
def Proper : Call → Prop
  | .malloc size | .calloc size | .callocDebug size => size < sizeMod
  | .realloc mem size => (mem = 0 ∨ mem ∈ o.map Prod.fst) ∧ size < sizeMod
  | .free mem => mem = 0 ∨ mem ∈ o.map Prod.fst
  | .store mem offset values => ∃ block ∈ o, block.1 = mem ∧ offset + values.length ≤ block.2.length

/-- `malloc` answers with as many bytes as it is asked for, where there is room. -/
def Honest (malloc : Malloc) : Prop :=
  ∀ size address fresh, malloc size = some (address, fresh) →
    fresh.length = size ∧ Heap.Room o.blocks sizeMod address size

/-- Proper calls, and honest answers. -/
def Admissible (o : Owned) : List (Call × Malloc) → Prop
  | [] => True
  | (call, malloc) :: rest =>
      o.Proper call ∧ o.Honest malloc ∧ Admissible (o.step malloc call).1 rest

end Owned

/-- A call that the functions are not made for: a size for which the number of bytes asked for wraps
around, and a reallocation that is refused. -/
def Overruns (malloc : Malloc) : Call → Prop
  | .malloc size | .calloc size | .callocDebug size =>
      malloc (requested size) ≠ none ∧ size ≠ 0 ∧ sizeMod ≤ size + sizeBytes
  | .realloc mem size =>
      size ≠ 0 ∧ ((malloc (requested size) ≠ none ∧ sizeMod ≤ size + sizeBytes) ∨
        (mem ≠ 0 ∧ malloc (requested size) = none))
  | .free _ | .store _ _ _ => False

/-! ## The heap of the tracker -/

/-- A block with its size in front. -/
def framed (block : Nat × List UInt8) : Nat × List UInt8 :=
  (block.1 - sizeBytes, littleEndian sizeBytes block.2.length ++ block.2)

/-- The tracker has what the caller owns, each block behind its size, and the sum of the sizes. -/
structure Tracks (t : Tracker) (o : Owned) : Prop where
  consists : t.heap.Consists sizeMod (o.map framed)
  above : ∀ block ∈ o, sizeBytes ≤ block.1
  size_pos : ∀ block ∈ o, 0 < block.2.length
  counted : t.currAllocBytes = (o.map fun block => block.2.length).sum

section Tracks

variable {t : Tracker} {o : Owned} (h : Tracks t o)

theorem length_framed (block : Nat × List UInt8) :
    (framed block).2.length = sizeBytes + block.2.length := by
  rw [framed, List.length_append, length_littleEndian]

theorem mem_framed {block : Nat × List UInt8} (hmem : block ∈ o) :
    framed block ∈ o.map framed := List.mem_map.mpr ⟨block, hmem, rfl⟩

/-- The sizes and what stands in front of the blocks fit below the last address. -/
theorem sum_le_of_consists {heap : Heap UInt8} (hc : heap.Consists sizeMod (o.map framed)) :
    (o.map fun block => block.2.length).sum + sizeBytes * o.length ≤ sizeMod := by
  have hle := hc.sum_le
  rw [List.map_map] at hle
  refine le_trans (le_of_eq ?_) hle
  clear hle hc
  induction o with
  | nil => rfl
  | cons block o ih =>
      rw [List.map_cons, List.sum_cons, List.map_cons, List.sum_cons, List.length_cons, ← ih]
      have hlength := length_framed block
      rw [Nat.mul_succ, Function.comp_apply, hlength]
      omega

include h

theorem Tracks.blocks_eq : t.heap.blocks = o.blocks := by
  rw [h.consists.blocks_eq, List.map_map, Owned.blocks]
  exact List.map_congr_left fun block _ => Prod.ext rfl (length_framed block)

/-- A pointer is the pointer of one block. -/
theorem Tracks.pointer_inj {first second : Nat × List UInt8} (hfirst : first ∈ o)
    (hsecond : second ∈ o) (heq : first.1 = second.1) : first = second := by
  have hframed := h.consists.address_inj (mem_framed hfirst) (mem_framed hsecond)
    (congrArg (· - sizeBytes) heq)
  have hbytes := congrArg Prod.snd hframed
  have hlength := congrArg List.length hbytes
  rw [length_framed, length_framed] at hlength
  refine Prod.ext heq ?_
  exact (List.append_inj' hbytes (by omega)).2

theorem Tracks.nodup_pointers : (o.map Prod.fst).Nodup := by
  have hnodup := h.consists.nodup_addresses
  have hmap : (o.map framed).map Prod.fst = (o.map Prod.fst).map (· - sizeBytes) := by
    rw [List.map_map, List.map_map]
    rfl
  rw [hmap] at hnodup
  exact hnodup.of_map _

/-- Without a block the sizes add up to less by its size. -/
theorem Tracks.sum_without {block : Nat × List UInt8} (hmem : block ∈ o) :
    (o.map fun block => block.2.length).sum =
      ((o.without block.1).map fun block => block.2.length).sum + block.2.length := by
  have hnodup := h.nodup_pointers
  clear h
  induction o with
  | nil => cases hmem
  | cons first o ih =>
      rw [List.map_cons, List.nodup_cons] at hnodup
      rw [List.map_cons, List.sum_cons, Owned.without]
      rcases List.mem_cons.mp hmem with rfl | hmem
      · have hkept : o.filter (fun other => other.1 ≠ block.1) = o := by
          refine List.filter_eq_self.mpr fun other hother => decide_eq_true fun heq => hnodup.1 ?_
          exact List.mem_map.mpr ⟨other, hother, heq⟩
        rw [List.filter_cons_of_neg (by simp), hkept, Nat.add_comm]
      · have hne : first.1 ≠ block.1 := fun heq =>
          hnodup.1 (List.mem_map.mpr ⟨block, hmem, heq.symm⟩)
        rw [List.filter_cons_of_pos (by simpa using hne), List.map_cons, List.sum_cons,
          ih hmem hnodup.2, Nat.add_assoc]
        rfl

/-- The size of a block stands in front of it. -/
theorem Tracks.load_size {block : Nat × List UInt8} (hmem : block ∈ o) :
    t.heap.load (block.1 - sizeBytes) sizeBytes =
      .ok (littleEndian sizeBytes block.2.length) := by
  have hload := h.consists.load_eq (mem_framed hmem) 0 sizeBytes (by rw [length_framed]; omega)
  rw [Nat.add_zero, List.drop_zero] at hload
  refine hload.trans (congrArg Outcome.ok ?_)
  exact List.take_left' (length_littleEndian _ _)

theorem Tracks.length_lt {block : Nat × List UInt8} (hmem : block ∈ o) :
    block.2.length < sizeMod := by
  have hbelow := h.consists.below _ (h.consists.mem_blocks (mem_framed hmem))
  have hlength := length_framed block
  have hsize : sizeBytes = 8 := rfl
  simp only at hbelow
  omega

theorem Tracks.ofLittleEndian_size {block : Nat × List UInt8} (hmem : block ∈ o) :
    ofLittleEndian (littleEndian sizeBytes block.2.length) = block.2.length :=
  ofLittleEndian_of_lt (h.length_lt hmem)

/-- The bytes behind a pointer. -/
theorem Tracks.load_eq {block : Nat × List UInt8} (hmem : block ∈ o) {len : Nat}
    (hle : len ≤ block.2.length) : t.heap.load block.1 len = .ok (block.2.take len) := by
  have habove := h.above block hmem
  have hload := h.consists.load_eq (mem_framed hmem) sizeBytes len (by rw [length_framed]; omega)
  have haddress : (framed block).1 + sizeBytes = block.1 := Nat.sub_add_cancel habove
  rw [haddress] at hload
  refine hload.trans (congrArg Outcome.ok ?_)
  exact congrArg (List.take len) (List.drop_left' (length_littleEndian _ _))

/-! ## The functions -/

/-- A store behind a pointer. -/
theorem Tracks.store {block : Nat × List UInt8} (hmem : block ∈ o) (offset : Nat)
    {values : List UInt8} (hle : offset + values.length ≤ block.2.length) :
    ∃ heap, t.heap.store (block.1 + offset) values = .ok heap ∧
      Tracks { t with heap := heap } (o.change block.1 offset values) := by
  have habove := h.above block hmem
  have hframed : sizeBytes + offset + values.length ≤ (framed block).2.length := by
    rw [length_framed]
    omega
  obtain ⟨heap, hstore, hconsists⟩ :=
    h.consists.store_eq (mem_framed hmem) (sizeBytes + offset) hframed
  have haddress : (framed block).1 + (sizeBytes + offset) = block.1 + offset := by
    rw [framed, ← Nat.add_assoc, Nat.sub_add_cancel habove]
  rw [haddress] at hstore
  have hlength : ∀ other ∈ o, (if other.1 = block.1 then
      ((other.1, splice other.2 offset values) : Nat × List UInt8) else other).2.length =
        other.2.length := by
    intro other hother
    split
    · next heq =>
        obtain rfl := h.pointer_inj hother hmem heq
        exact length_splice hle
    · rfl
  refine ⟨heap, hstore, ?_, ?_, ?_, ?_⟩
  · rw [List.map_map] at hconsists
    rw [Owned.change, List.map_map]
    convert hconsists using 1
    refine List.map_congr_left fun other hother => ?_
    have hother' := h.above other hother
    rw [Function.comp_apply, Function.comp_apply]
    by_cases heq : other.1 = block.1
    · obtain rfl := h.pointer_inj hother hmem heq
      rw [if_pos rfl, if_pos rfl, framed, framed, length_splice hle]
      refine Prod.ext rfl ?_
      have hsplice := splice_append (littleEndian sizeBytes other.2.length) other.2 offset values
      rw [length_littleEndian] at hsplice
      exact hsplice.symm
    · have hne : (framed other).1 ≠ (framed block).1 := by
        simp only [framed]
        omega
      rw [if_neg heq, if_neg hne]
  · intro changed hchanged
    obtain ⟨other, hother, rfl⟩ := List.mem_map.mp hchanged
    have hfst : (if other.1 = block.1 then
      ((other.1, splice other.2 offset values) : Nat × List UInt8) else other).1 = other.1 := by
      split <;> rfl
    rw [hfst]
    exact h.above other hother
  · intro changed hchanged
    obtain ⟨other, hother, rfl⟩ := List.mem_map.mp hchanged
    rw [hlength other hother]
    exact h.size_pos other hother
  · rw [h.counted, Owned.change, List.map_map]
    exact congrArg List.sum (List.map_congr_left fun other hother => (hlength other hother).symm)

omit h in
/-- The number of bytes asked for, when it does not wrap around. -/
theorem requested_of_lt {size : Nat} (hsize : size + sizeBytes < sizeMod) :
    requested size = size + sizeBytes := Nat.mod_eq_of_lt hsize

/-- `RV_malloc_debug` with a size that wraps around. -/
theorem Tracks.malloc_undefined {malloc : Malloc} (hm : o.Honest malloc) {size : Nat}
    (hsize : size < sizeMod) (hpos : size ≠ 0) (hgranted : malloc (requested size) ≠ none)
    (hwrap : sizeMod ≤ size + sizeBytes) : rvMallocDebug t size malloc = .undefined := by
  obtain ⟨⟨address, fresh⟩, hanswer⟩ := Option.ne_none_iff_exists'.mp hgranted
  obtain ⟨hlength, hroom⟩ := hm _ _ _ hanswer
  have hbytes : sizeBytes = 8 := rfl
  have hvalues : sizeMod = 2 ^ 64 := rfl
  have hsmall : fresh.length < sizeBytes := by
    have hmod : requested size = size + sizeBytes - sizeMod := by
      rw [requested, Nat.mod_eq_sub_mod hwrap, Nat.mod_eq_of_lt (by omega)]
    omega
  rw [← h.blocks_eq, ← hlength] at hroom
  have hnot := Heap.not_holds_alloc hroom hsmall
  have hstore : (t.heap.alloc address fresh).store address (littleEndian sizeBytes size) =
      .undefined := by
    rw [Heap.store, length_littleEndian]
    exact if_neg hnot
  rw [rvMallocDebug, if_neg hpos, hanswer]
  simp only [hstore]
  rfl

/-- `RV_malloc_debug`. -/
theorem Tracks.malloc {malloc : Malloc} (hm : o.Honest malloc) {size : Nat}
    (hfits : ¬ (malloc (requested size) ≠ none ∧ size ≠ 0 ∧ sizeMod ≤ size + sizeBytes)) :
    ∃ after, rvMallocDebug t size malloc = .ok (after, (o.grant size malloc).2) ∧
      Tracks after (o.grant size malloc).1 := by
  rw [rvMallocDebug, Owned.grant]
  by_cases hzero : size = 0
  · rw [if_pos hzero, if_pos hzero]
    exact ⟨t, rfl, h⟩
  · rw [if_neg hzero, if_neg hzero]
    cases hanswer : malloc (requested size) with
    | none => exact ⟨t, rfl, h⟩
    | some answer =>
        obtain ⟨address, fresh⟩ := answer
        have hlt : size + sizeBytes < sizeMod := by
          by_contra hle
          exact hfits ⟨by rw [hanswer]; exact Option.some_ne_none _, hzero, Nat.le_of_not_lt hle⟩
        obtain ⟨hlength, hroom⟩ := hm _ _ _ hanswer
        rw [requested_of_lt hlt] at hlength hroom
        have hunique := hroom.unique
        rw [← h.blocks_eq, ← hlength] at hroom
        have halloc := h.consists.alloc_eq hroom (by rw [hlength]; omega)
        have hheader : 0 + (littleEndian sizeBytes size).length ≤ fresh.length := by
          rw [length_littleEndian]
          omega
        obtain ⟨heap, hstore, hconsists⟩ := halloc.store_eq List.mem_cons_self 0 hheader
        have hdrop : (fresh.drop sizeBytes).length = size := by
          rw [List.length_drop]
          omega
        have hsplice : splice fresh 0 (littleEndian sizeBytes size) =
            littleEndian sizeBytes size ++ fresh.drop sizeBytes := by
          rw [splice, List.take_zero, List.nil_append, Nat.zero_add, length_littleEndian]
        have hothers : (o.map framed).map (fun other => if other.1 = address then
            (other.1, splice other.2 0 (littleEndian sizeBytes size)) else other) =
              o.map framed := by
          rw [List.map_map]
          refine List.map_congr_left fun other hother => if_neg fun heq => hunique ?_
          exact List.mem_map.mpr ⟨_, List.mem_map.mpr ⟨other, hother, rfl⟩, heq⟩
        have hcontents : heap.Consists sizeMod
            (((address + sizeBytes, fresh.drop sizeBytes) :: o).map framed) := by
          rw [List.map_cons, hothers, if_pos rfl, hsplice] at hconsists
          rw [List.map_cons, framed, hdrop, Nat.add_sub_cancel]
          exact hconsists
        have hsum := sum_le_of_consists hcontents
        rw [List.map_cons, List.sum_cons, List.length_cons, hdrop, Nat.mul_succ] at hsum
        rw [Nat.add_zero] at hstore
        simp only [hstore, Outcome.ok_bind]
        refine ⟨_, rfl, hcontents, ?_, ?_, ?_⟩
        · exact List.forall_mem_cons.mpr ⟨Nat.le_add_left _ _, h.above⟩
        · exact List.forall_mem_cons.mpr ⟨hdrop ▸ Nat.pos_of_ne_zero hzero, h.size_pos⟩
        · have hsize : sizeBytes = 8 := rfl
          rw [h.counted, List.map_cons, List.sum_cons, hdrop, Nat.mod_eq_of_lt (by omega),
            Nat.add_comm]

/-- `RV_free_debug`. -/
theorem Tracks.free {block : Nat × List UInt8} (hmem : block ∈ o) :
    ∃ after, rvFreeDebug t block.1 = .ok (after, 0) ∧ Tracks after (o.without block.1) := by
  have habove := h.above block hmem
  have hsize : sizeBytes = 8 := rfl
  have hne : block.1 ≠ 0 := by omega
  obtain ⟨heap, hfree, hconsists⟩ := h.consists.free_eq (mem_framed hmem)
  have haddress : (framed block).1 = block.1 - sizeBytes := rfl
  rw [haddress] at hfree
  rw [rvFreeDebug, if_neg hne, h.load_size hmem, Outcome.ok_bind, hfree, Outcome.ok_bind,
    h.ofLittleEndian_size hmem]
  have hkept : (o.map framed).filter (fun other => other.1 ≠ (framed block).1) =
      (o.without block.1).map framed := by
    rw [List.filter_map, Owned.without]
    refine congrArg (List.map framed) (List.filter_congr fun other hother => ?_)
    have hother' := h.above other hother
    refine decide_eq_decide.mpr (not_congr ?_)
    simp only [framed]
    omega
  rw [hkept] at hconsists
  have hsum := h.sum_without hmem
  have hle := sum_le_of_consists h.consists
  have hpos : 0 < o.length := List.length_pos_of_mem hmem
  have hlt : 0 < sizeBytes * o.length := by
    rw [hsize]
    omega
  refine ⟨_, rfl, hconsists, fun other hother => h.above other (List.mem_of_mem_filter hother),
    fun other hother => h.size_pos other (List.mem_of_mem_filter hother), ?_⟩
  rw [h.counted, hsum]
  have hshift (rest len : Nat) : rest + len + sizeMod - len = rest + sizeMod := by omega
  rw [hshift, Nat.add_mod_right, Nat.mod_eq_of_lt (by omega)]

/-! ## Calls -/

omit h in
/-- A block is granted or not. -/
theorem grant_cases {malloc : Malloc} (hm : o.Honest malloc) {size : Nat}
    (hfits : ¬ (malloc (requested size) ≠ none ∧ size ≠ 0 ∧ sizeMod ≤ size + sizeBytes)) :
    (o.grant size malloc = (o, 0) ∧ (size = 0 ∨ malloc (requested size) = none)) ∨
      ∃ block, o.grant size malloc = (block :: o, block.1) ∧ block.2.length = size ∧
        block.1 ≠ 0 ∧ size ≠ 0 ∧ malloc (requested size) ≠ none := by
  rw [Owned.grant]
  by_cases hzero : size = 0
  · exact .inl ⟨if_pos hzero, .inl hzero⟩
  · rw [if_neg hzero]
    cases hanswer : malloc (requested size) with
    | none => exact .inl ⟨rfl, .inr rfl⟩
    | some answer =>
        obtain ⟨address, fresh⟩ := answer
        have hlt : size + sizeBytes < sizeMod := by
          by_contra hle
          exact hfits ⟨by rw [hanswer]; exact Option.some_ne_none _, hzero, Nat.le_of_not_lt hle⟩
        obtain ⟨hlength, -⟩ := hm _ _ _ hanswer
        rw [requested_of_lt hlt] at hlength
        have hdrop : (fresh.drop sizeBytes).length = size := by
          rw [List.length_drop]
          omega
        have hne : address + sizeBytes ≠ 0 := Nat.succ_ne_zero _
        exact .inr ⟨_, rfl, hdrop, hne, hzero, Option.some_ne_none _⟩

/-- The null pointer is not owned. -/
theorem Tracks.pointer_ne {block : Nat × List UInt8} (hmem : block ∈ o) : block.1 ≠ 0 := by
  have habove := h.above block hmem
  have hsize : sizeBytes = 8 := rfl
  omega

theorem Tracks.without_zero : o.without 0 = o :=
  List.filter_eq_self.mpr fun _ hmem => decide_eq_true (h.pointer_ne hmem)

theorem Tracks.change_zero (offset : Nat) (values : List UInt8) : o.change 0 offset values = o :=
  (List.map_congr_left fun _ hmem => if_neg (h.pointer_ne hmem)).trans (List.map_id' o)

theorem Tracks.bytes_eq {block : Nat × List UInt8} (hmem : block ∈ o) :
    o.bytes block.1 = block.2 := by
  rw [Owned.bytes]
  cases hfind : o.find? fun other => other.1 = block.1 with
  | none =>
      have hnot := List.find?_eq_none.mp hfind block hmem
      simp at hnot
  | some found =>
      have heq : found.1 = block.1 := by simpa using List.find?_some hfind
      rw [h.pointer_inj (List.mem_of_find?_eq_some hfind) hmem heq]
      rfl

/-- `RV_calloc_debug`. -/
theorem Tracks.callocDebug {malloc : Malloc} (hm : o.Honest malloc) {size : Nat}
    (hfits : ¬ (malloc (requested size) ≠ none ∧ size ≠ 0 ∧ sizeMod ≤ size + sizeBytes)) :
    ∃ after, rvCallocDebug t size malloc =
        .ok (after, (o.step malloc (.callocDebug size)).2) ∧
      Tracks after (o.step malloc (.callocDebug size)).1 := by
  obtain ⟨after, hmalloc, hafter⟩ := h.malloc hm hfits
  rw [Owned.step]
  rcases grant_cases hm hfits with ⟨hgrant, -⟩ | ⟨block, hgrant, hlength, hne, hzero, -⟩
  · rw [hgrant] at hmalloc hafter ⊢
    rw [rvCallocDebug, hmalloc, Outcome.ok_bind]
    dsimp only
    rw [if_pos rfl, h.change_zero]
    by_cases hzero : size = 0
    · rw [if_pos hzero]
      exact ⟨t, rfl, h⟩
    · rw [if_neg hzero]
      exact ⟨after, rfl, hafter⟩
  · rw [hgrant] at hmalloc hafter ⊢
    have hle : 0 + (List.replicate size (0 : UInt8)).length ≤ block.2.length := by
      rw [List.length_replicate, hlength, Nat.zero_add]
    obtain ⟨heap, hstore, hchanged⟩ := hafter.store List.mem_cons_self 0 hle
    rw [Nat.add_zero] at hstore
    rw [rvCallocDebug, if_neg hzero, hmalloc, Outcome.ok_bind]
    dsimp only
    rw [if_neg hne, hstore, Outcome.ok_bind]
    exact ⟨_, rfl, hchanged⟩

/-- `RV_realloc_debug` of a block. -/
theorem Tracks.realloc_block {malloc : Malloc} (hm : o.Honest malloc) {block : Nat × List UInt8}
    (hmem : block ∈ o) {size : Nat} (hzero : size ≠ 0)
    (hfits : ¬ (malloc (requested size) ≠ none ∧ size ≠ 0 ∧ sizeMod ≤ size + sizeBytes)) :
    (malloc (requested size) = none → rvReallocDebug t block.1 size malloc = .undefined) ∧
      (malloc (requested size) ≠ none → ∃ after, rvReallocDebug t block.1 size malloc =
          .ok (after, (o.step malloc (.realloc block.1 size)).2) ∧
        Tracks after (o.step malloc (.realloc block.1 size)).1) := by
  have hne := h.pointer_ne hmem
  obtain ⟨after, hmalloc, hafter⟩ := h.malloc hm hfits
  have hcode : rvReallocDebug t block.1 size malloc =
      (after.heap.load block.1 (min size block.2.length)).bind fun bytes =>
        (after.heap.store (o.grant size malloc).2 bytes).bind fun heap =>
          (rvFreeDebug { after with heap := heap } block.1).bind fun (freed, _) =>
            .ok (freed, (o.grant size malloc).2) := by
    rw [rvReallocDebug, if_neg fun hand => hzero hand.2, if_pos (Nat.pos_of_ne_zero hzero),
      if_pos hne, h.load_size hmem, Outcome.ok_bind, hmalloc, Outcome.ok_bind,
      h.ofLittleEndian_size hmem]
  rcases grant_cases hm hfits with ⟨hgrant, hnone⟩ | ⟨new, hgrant, hlength, hnew, -, hsome⟩
  · have hrefused := hnone.resolve_left hzero
    refine ⟨fun _ => ?_, fun hsome => absurd hrefused hsome⟩
    rw [hgrant] at hafter hcode
    have hnull : ∀ bytes, after.heap.store 0 bytes = .undefined := fun bytes =>
      if_neg (Heap.not_holds_zero hafter.consists.address_ne _)
    rw [hcode, hafter.load_eq hmem (Nat.min_le_right _ _), Outcome.ok_bind, hnull]
    rfl
  · refine ⟨fun hnone => absurd hnone hsome, fun _ => ?_⟩
    rw [hgrant] at hafter hcode
    have hmem' : block ∈ new :: o := List.mem_cons_of_mem new hmem
    have htake : block.2.take (min size block.2.length) = block.2.take size := by
      rcases Nat.le_total size block.2.length with hle | hle
      · rw [Nat.min_eq_left hle]
      · rw [Nat.min_eq_right hle, List.take_length, List.take_of_length_le hle]
    have hle : 0 + (block.2.take size).length ≤ new.2.length := by
      rw [List.length_take, hlength]
      omega
    obtain ⟨heap, hstore, hchanged⟩ := hafter.store List.mem_cons_self 0 hle
    rw [Nat.add_zero] at hstore
    have hother : block.1 ≠ new.1 := by
      have hnodup := hafter.nodup_pointers
      rw [List.map_cons, List.nodup_cons] at hnodup
      exact fun heq => hnodup.1 (heq ▸ List.mem_map_of_mem hmem)
    have hkept : block ∈ Owned.change (new :: o) new.1 0 (block.2.take size) :=
      List.mem_map.mpr ⟨block, hmem', if_neg hother⟩
    obtain ⟨freed, hfree, hfreed⟩ := hchanged.free hkept
    rw [hcode, hafter.load_eq hmem' (Nat.min_le_right _ _), Outcome.ok_bind, htake, hstore,
      Outcome.ok_bind, hfree, Outcome.ok_bind, Owned.step, if_neg hne, if_neg hzero, hgrant,
      if_neg hnew, h.bytes_eq hmem]
    exact ⟨freed, rfl, hfreed⟩

/-- One call goes wrong exactly where the functions are not made for it; otherwise the tracker has what
the caller owns afterwards, and returns the pointer that the caller expects. -/
theorem Tracks.step {malloc : Malloc} {call : Call} (hp : o.Proper call) (hm : o.Honest malloc) :
    (Overruns malloc call → t.step malloc call = .undefined) ∧
      (¬ Overruns malloc call → ∃ after,
        t.step malloc call = .ok (after, (o.step malloc call).2) ∧
          Tracks after (o.step malloc call).1) := by
  cases call with
  | malloc size | calloc size =>
      exact ⟨fun hover => h.malloc_undefined hm hp hover.2.1 hover.1 hover.2.2,
        fun hfits => h.malloc hm hfits⟩
  | callocDebug size =>
      refine ⟨fun hover => ?_, fun hfits => h.callocDebug hm hfits⟩
      have hundefined := h.malloc_undefined hm hp hover.2.1 hover.1 hover.2.2
      have hcode : t.step malloc (.callocDebug size) = rvCallocDebug t size malloc := rfl
      rw [hcode, rvCallocDebug, if_neg hover.2.1, hundefined]
      rfl
  | free mem =>
      refine ⟨fun hover => hover.elim, fun _ => ?_⟩
      by_cases hzero : mem = 0
      · subst hzero
        refine ⟨t, rfl, ?_⟩
        have hsame : (o.step malloc (.free 0)).1 = o := h.without_zero
        rw [hsame]
        exact h
      · obtain ⟨block, hmem, rfl⟩ := List.mem_map.mp (hp.resolve_left hzero)
        exact h.free hmem
  | store mem offset values =>
      refine ⟨fun hover => hover.elim, fun _ => ?_⟩
      obtain ⟨block, hmem, rfl, hle⟩ := hp
      obtain ⟨heap, hstore, hchanged⟩ := h.store hmem offset hle
      refine ⟨_, ?_, hchanged⟩
      have hcode : t.step malloc (.store block.1 offset values) =
          (t.heap.store (block.1 + offset) values).bind fun heap =>
            .ok ({ t with heap := heap }, 0) := rfl
      rw [hcode, hstore]
      rfl
  | realloc mem size =>
      have hcode : t.step malloc (.realloc mem size) = rvReallocDebug t mem size malloc := rfl
      rw [hcode]
      by_cases hnull : mem = 0
      · subst hnull
        have hgrant : o.step malloc (.realloc 0 size) = o.grant size malloc := by
          rw [Owned.step, if_pos rfl]
        have hmalloc : rvReallocDebug t 0 size malloc = rvMallocDebug t size malloc := by
          rw [rvReallocDebug]
          by_cases hzero : size = 0
          · rw [if_pos ⟨rfl, hzero⟩, rvMallocDebug, if_pos hzero]
          · rw [if_neg fun hand => hzero hand.2, if_pos (Nat.pos_of_ne_zero hzero),
              if_neg (not_not.mpr rfl)]
        rw [hgrant, hmalloc]
        refine ⟨fun hover => ?_, fun hfits => h.malloc hm fun hwraps => hfits ?_⟩
        · have hwraps := hover.2.resolve_right fun hand => hand.1 rfl
          exact h.malloc_undefined hm hp.2 hover.1 hwraps.1 hwraps.2
        · exact ⟨hwraps.2.1, .inl ⟨hwraps.1, hwraps.2.2⟩⟩
      · obtain ⟨block, hmem, rfl⟩ := List.mem_map.mp (hp.1.resolve_left hnull)
        by_cases hzero : size = 0
        · refine ⟨fun hover => absurd hzero hover.1, fun _ => ?_⟩
          have hfree : rvReallocDebug t block.1 size malloc = rvFreeDebug t block.1 := by
            rw [rvReallocDebug, if_neg fun hand => hnull hand.1, if_neg (by omega)]
          rw [hfree, Owned.step, if_neg hnull, if_pos hzero]
          exact h.free hmem
        · by_cases hwraps : malloc (requested size) ≠ none ∧ size ≠ 0 ∧ sizeMod ≤ size + sizeBytes
          · refine ⟨fun _ => ?_, fun hfits => absurd ⟨hzero, .inl ⟨hwraps.1, hwraps.2.2⟩⟩ hfits⟩
            rw [rvReallocDebug, if_neg fun hand => hzero hand.2, if_pos (Nat.pos_of_ne_zero hzero),
              if_pos hnull, h.load_size hmem, Outcome.ok_bind,
              h.malloc_undefined hm hp.2 hzero hwraps.1 hwraps.2.2]
            rfl
          · obtain ⟨hrefused, hgranted⟩ := h.realloc_block hm hmem hzero hwraps
            constructor
            · rintro ⟨-, hover | hover⟩
              · exact absurd ⟨hover.1, hzero, hover.2⟩ hwraps
              · exact hrefused hover.2
            · intro hfits
              exact hgranted fun hnone => hfits ⟨hzero, .inr ⟨hnull, hnone⟩⟩

end Tracks

/-! ## Runs -/

/-- A heap that has given nothing away, before the first call. -/
def Tracker.initial (memory : Memory UInt8) : Tracker where
  heap := { values := memory, blocks := [] }
  currAllocBytes := 0

theorem tracks_initial (memory : Memory UInt8) : Tracks (.initial memory) [] where
  consists :=
    { blocks_eq := rfl
      read_eq := fun _ hmem => absurd hmem List.not_mem_nil
      apart := List.Pairwise.nil
      address_ne := fun _ hmem => absurd hmem List.not_mem_nil
      below := fun _ hmem => absurd hmem List.not_mem_nil
      size_pos := fun _ hmem => absurd hmem List.not_mem_nil }
  above := fun _ hmem => absurd hmem List.not_mem_nil
  size_pos := fun _ hmem => absurd hmem List.not_mem_nil
  counted := rfl

/-- A run goes wrong with its first call that the functions are not made for. -/
theorem Tracks.run {t : Tracker} {o : Owned} {calls : List (Call × Malloc)} (h : Tracks t o)
    (hcalls : o.Admissible calls) :
    ((∃ call ∈ calls, Overruns call.2 call.1) → t.run calls = .undefined) ∧
      ((∀ call ∈ calls, ¬ Overruns call.2 call.1) →
        ∃ after, t.run calls = .ok after ∧ Tracks after (o.after calls)) := by
  induction calls generalizing t o with
  | nil =>
      refine ⟨?_, fun _ => ⟨t, rfl, h⟩⟩
      rintro ⟨call, hcall, -⟩
      exact absurd hcall List.not_mem_nil
  | cons first rest ih =>
      obtain ⟨call, malloc⟩ := first
      obtain ⟨hp, hm, hrest⟩ := hcalls
      obtain ⟨hwrong, hright⟩ := h.step hp hm
      rw [Tracker.run, List.exists_mem_cons_iff, List.forall_mem_cons]
      by_cases hover : Overruns malloc call
      · rw [hwrong hover]
        exact ⟨fun _ => rfl, fun hfits => absurd hover hfits.1⟩
      · obtain ⟨mid, hmid, htracks⟩ := hright hover
        obtain ⟨hundefined, hok⟩ := ih htracks hrest
        rw [hmid, Outcome.ok_bind]
        exact ⟨fun hsome => hundefined (hsome.resolve_left hover), fun hfits => hok hfits.2⟩

section Runs

variable {calls : List (Call × Malloc)} (memory : Memory UInt8)
  (hcalls : Owned.Admissible [] calls)

include hcalls

/-- Whatever the connector allocates, changes and gives back, the functions go wrong exactly where a
size wraps around or a reallocation is refused. -/
theorem run_undefined_iff : (Tracker.initial memory).run calls = .undefined ↔
    ∃ call ∈ calls, Overruns call.2 call.1 := by
  obtain ⟨hwrong, hright⟩ := (tracks_initial memory).run hcalls
  refine ⟨fun hundefined => ?_, hwrong⟩
  by_contra hnone
  obtain ⟨after, hafter, -⟩ := hright fun call hcall hover => hnone ⟨call, hcall, hover⟩
  rw [hundefined] at hafter
  cases hafter

omit hcalls in
/-- A run without such calls comes to an end. -/
theorem exists_run (hcalls : Owned.Admissible [] calls)
    (hfits : ∀ call ∈ calls, ¬ Overruns call.2 call.1) :
    ∃ after, (Tracker.initial memory).run calls = .ok after := by
  obtain ⟨after, hafter, -⟩ := ((tracks_initial memory).run hcalls).2 hfits
  exact ⟨after, hafter⟩

/-- After every other run each pointer that was not given back leads to the bytes that C describes,
`H5_rest_curr_alloc_bytes` is the sum of their numbers, and it is zero exactly when everything was
given back. -/
theorem run_owned {t : Tracker} (hrun : (Tracker.initial memory).run calls = .ok t) :
    (∀ block ∈ Owned.after [] calls, t.heap.load block.1 block.2.length = .ok block.2) ∧
      t.currAllocBytes = ((Owned.after [] calls).map fun block => block.2.length).sum ∧
      (t.currAllocBytes = 0 ↔ Owned.after [] calls = []) := by
  obtain ⟨hwrong, hright⟩ := (tracks_initial memory).run hcalls
  have htracks : Tracks t (Owned.after [] calls) := by
    obtain ⟨after, hafter, htracks⟩ := hright fun call hcall hover => by
      rw [hwrong ⟨call, hcall, hover⟩] at hrun
      cases hrun
    exact Outcome.ok.inj (hafter.symm.trans hrun) ▸ htracks
  refine ⟨fun block hmem => ?_, htracks.counted, ?_⟩
  · rw [htracks.load_eq hmem le_rfl, List.take_length]
  · rw [htracks.counted]
    cases howned : Owned.after [] calls with
    | nil => exact iff_of_true rfl rfl
    | cons block rest =>
        have hpos := htracks.size_pos block (by rw [howned]; exact List.mem_cons_self)
        rw [List.map_cons, List.sum_cons]
        exact iff_of_false (by omega) (List.cons_ne_nil _ _)

end Runs

/-! ## A block that grows -/

/-- `malloc` has a block of sixteen bytes to give. -/
def blockAt (address : Nat) : Malloc := fun size =>
  if size ≤ 16 then some (address, List.replicate size 0) else none

/-- A block of one byte that grows to two. -/
def growingBlock : List (Call × Malloc) := [(.malloc 1, blockAt 16), (.realloc 24 2, blockAt 48)]

theorem admissible_growingBlock : Owned.Admissible [] growingBlock := by
  have hhonest {o : Owned} {address : Nat} (haddress : 0 < address ∧ address < 64)
      (hroom : ∀ block ∈ o.blocks, block.1 + block.2 ≤ address ∧ block.1 < address) :
      o.Honest (blockAt address) := by
    intro size found fresh hanswer
    rw [blockAt] at hanswer
    split at hanswer
    · next hsize =>
        obtain ⟨rfl, rfl⟩ := Prod.mk.inj (Option.some.inj hanswer)
        have hvalues : sizeMod = 2 ^ 64 := rfl
        refine ⟨List.length_replicate, haddress.1.ne', by omega, fun hmem => ?_, fun block hmem => ?_⟩
        · obtain ⟨block, hblock, heq⟩ := List.mem_map.mp hmem
          exact absurd heq (hroom block hblock).2.ne
        · exact .inr (hroom block hmem).1
    · cases hanswer
  have hone : 1 < sizeMod := by decide
  have htwo : 2 < sizeMod := by decide
  exact ⟨hone, hhonest (by decide) fun block hmem => absurd hmem List.not_mem_nil,
    ⟨.inr (by decide), htwo⟩, hhonest (by decide) (by decide), trivial⟩

theorem run_undefined_iff_growingBlock :
    (Tracker.initial fun _ => 0).run growingBlock = .undefined ↔
      ∃ call ∈ growingBlock, Overruns call.2 call.1 :=
  run_undefined_iff _ admissible_growingBlock

theorem run_owned_growingBlock :
    ∃ t, (Tracker.initial fun _ => 0).run growingBlock = .ok t ∧ t.currAllocBytes = 2 := by
  have hvalues : sizeMod = 2 ^ 64 := rfl
  have hbytes : sizeBytes = 8 := rfl
  obtain ⟨t, ht⟩ := exists_run (fun _ => 0) admissible_growingBlock fun call hcall hover => by
    rcases List.mem_cons.mp hcall with rfl | hcall
    · have hwraps := hover.2.2
      omega
    · obtain rfl := List.mem_singleton.mp hcall
      rcases hover.2 with hwraps | hrefused
      · have hwraps := hwraps.2
        omega
      · exact absurd hrefused.2 (by decide)
  exact ⟨t, ht, (run_owned _ admissible_growingBlock ht).2.1⟩

end XHDF5.Client.MemTracker
