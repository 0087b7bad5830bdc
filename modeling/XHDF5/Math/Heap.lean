/-
# A heap of blocks

The values of a heap can be loaded and stored inside its live blocks only. A new block lies apart
from the live ones, and a block is given back by its address. A heap that consists of some blocks with
known contents is changed by each operation in the block it is about and nowhere else.
-/

import Mathlib.Data.List.Basic
import Mathlib.Data.List.Pairwise
import XHDF5.Math.Intervals
import XHDF5.Math.Region
import XHDF5.Math.Run

namespace XHDF5.Math

/-- Replace the values from an index on. -/
def splice {β : Type} (values : List β) (index : Nat) (more : List β) : List β :=
  values.take index ++ more ++ values.drop (index + more.length)

theorem splice_append {β : Type} (first rest : List β) (index : Nat) (more : List β) :
    splice (first ++ rest) (first.length + index) more = first ++ splice rest index more := by
  rw [splice, splice, List.take_length_add_append, Nat.add_assoc, List.drop_length_add_append,
    List.append_assoc, List.append_assoc, List.append_assoc]

theorem length_splice {β : Type} {values : List β} {index : Nat} {more : List β}
    (h : index + more.length ≤ values.length) :
    (splice values index more).length = values.length := by
  simp only [splice, List.length_append, List.length_take, List.length_drop]
  omega

/-- The values at all addresses, and the live blocks with their addresses and sizes. -/
structure Heap (β : Type) where
  values : Memory β
  blocks : List (Nat × Nat)

namespace Heap

variable {β : Type} (h : Heap β)

/-- Some addresses are in one live block. -/
def Holds (start len : Nat) : Prop :=
  ∃ block ∈ h.blocks, block.1 ≤ start ∧ start + len ≤ block.1 + block.2

instance (start len : Nat) : Decidable (h.Holds start len) :=
  inferInstanceAs (Decidable (∃ block ∈ h.blocks, _ ∧ _))

/-- Load values. -/
def load (start len : Nat) : Outcome (List β) :=
  if h.Holds start len then .ok (h.values.read start len) else .undefined

/-- Store values. -/
def store (start : Nat) (values : List β) : Outcome (Heap β) :=
  if h.Holds start values.length then .ok { h with values := h.values.write start values }
  else .undefined

/-- A new block, with the values that are found in it. -/
def alloc (address : Nat) (fresh : List β) : Heap β where
  values := h.values.write address fresh
  blocks := (address, fresh.length) :: h.blocks

/-- Give the block of an address back. -/
def free (address : Nat) : Outcome (Heap β) :=
  if address ∈ h.blocks.map Prod.fst then
    .ok { h with blocks := h.blocks.filter fun block => block.1 ≠ address }
  else .undefined

/-- Where a new block can be: not at address zero nor at the address of another block, below a limit,
and apart from the live blocks. -/
structure Room (blocks : List (Nat × Nat)) (limit address size : Nat) : Prop where
  address_ne : address ≠ 0
  below : address + size ≤ limit
  unique : address ∉ blocks.map Prod.fst
  apart : ∀ block ∈ blocks, Intervals.Disjoint (address, size) block

/-- The heap consists of some blocks with their contents. -/
structure Consists (limit : Nat) (contents : List (Nat × List β)) : Prop where
  blocks_eq : h.blocks = contents.map fun block => (block.1, block.2.length)
  read_eq : ∀ block ∈ contents, h.values.read block.1 block.2.length = block.2
  apart : h.blocks.Pairwise Intervals.Disjoint
  address_ne : ∀ block ∈ h.blocks, block.1 ≠ 0
  below : ∀ block ∈ h.blocks, block.1 + block.2 ≤ limit
  size_pos : ∀ block ∈ h.blocks, 0 < block.2

variable {h} {limit : Nat} {contents : List (Nat × List β)}

/-! ## Outside the blocks -/

/-- No block holds address zero. -/
theorem not_holds_zero (hne : ∀ block ∈ h.blocks, block.1 ≠ 0) (len : Nat) : ¬ h.Holds 0 len := by
  rintro ⟨block, hblock, hle, -⟩
  exact hne block hblock (Nat.le_zero.mp hle)

/-- A new block that is too small holds no more than it has. -/
theorem not_holds_alloc {address len : Nat} {fresh : List β}
    (hroom : Room h.blocks limit address fresh.length) (hlen : fresh.length < len) :
    ¬ (h.alloc address fresh).Holds address len := by
  rintro ⟨block, hblock, hle, hend⟩
  rcases List.mem_cons.mp hblock with rfl | hblock
  · simp only at hend
    omega
  · have hne : block.1 ≠ address := fun heq =>
      hroom.unique (List.mem_map.mpr ⟨block, hblock, heq⟩)
    rcases hroom.apart block hblock with happart | happart <;> simp only at happart <;> omega

/-! ## Inside the blocks -/

namespace Consists

variable (hc : h.Consists limit contents)

include hc

theorem mem_blocks {block : Nat × List β} (hmem : block ∈ contents) :
    (block.1, block.2.length) ∈ h.blocks := by
  rw [hc.blocks_eq]
  exact List.mem_map.mpr ⟨block, hmem, rfl⟩

theorem holds {block : Nat × List β} (hmem : block ∈ contents) {index len : Nat}
    (hle : index + len ≤ block.2.length) : h.Holds (block.1 + index) len :=
  ⟨_, hc.mem_blocks hmem, Nat.le_add_right _ _, by simp only; omega⟩

theorem nodup_addresses : (contents.map Prod.fst).Nodup := by
  have happart := hc.apart
  rw [hc.blocks_eq, List.pairwise_map] at happart
  refine List.pairwise_map.mpr (happart.imp_of_mem fun {a b} ha hb hdisjoint hab => ?_)
  have hpa := hc.size_pos _ (hc.mem_blocks ha)
  have hpb := hc.size_pos _ (hc.mem_blocks hb)
  rcases hdisjoint with hle | hle <;> simp only at hle hpa hpb <;> omega

/-- Two blocks with one address are one block. -/
theorem address_inj {first second : Nat × List β} (hfirst : first ∈ contents)
    (hsecond : second ∈ contents) (heq : first.1 = second.1) : first = second :=
  List.inj_on_of_nodup_map hc.nodup_addresses hfirst hsecond heq

/-- Different blocks lie apart. -/
theorem disjoint {first second : Nat × List β} (hfirst : first ∈ contents)
    (hsecond : second ∈ contents) (hne : first.1 ≠ second.1) :
    first.1 + first.2.length ≤ second.1 ∨ second.1 + second.2.length ≤ first.1 := by
  have happart := hc.apart
  rw [hc.blocks_eq, List.pairwise_map] at happart
  have : Std.Symm fun a b : Nat × List β =>
      Intervals.Disjoint (a.1, a.2.length) (b.1, b.2.length) := ⟨fun _ _ hab => Or.symm hab⟩
  exact happart.forall hfirst hsecond fun heq => hne (heq ▸ rfl)

/-- What is loaded from a block is what it contains. -/
theorem load_eq {block : Nat × List β} (hmem : block ∈ contents) (index len : Nat)
    (hle : index + len ≤ block.2.length) :
    h.load (block.1 + index) len = .ok ((block.2.drop index).take len) := by
  rw [load, if_pos (hc.holds hmem hle)]
  have hread := hc.read_eq block hmem
  refine congrArg Outcome.ok ?_
  have hsplit : block.2.length = index + (len + (block.2.length - index - len)) := by omega
  rw [hsplit, Memory.read_append, Memory.read_append] at hread
  rw [← hread, List.drop_left' (Memory.length_read index), List.take_left' (Memory.length_read len)]

/-- A store into a block changes this block and no other. -/
theorem store_eq {block : Nat × List β} (hmem : block ∈ contents) (index : Nat) {more : List β}
    (hle : index + more.length ≤ block.2.length) :
    ∃ after, h.store (block.1 + index) more = .ok after ∧
      after.Consists limit (contents.map fun other =>
        if other.1 = block.1 then (other.1, splice other.2 index more) else other) := by
  have hlength : ∀ other ∈ contents, (if other.1 = block.1 then
      ((other.1, splice other.2 index more) : Nat × List β) else other).2.length =
        other.2.length := by
    intro other hother
    split
    · next heq =>
        obtain rfl := hc.address_inj hother hmem heq
        exact length_splice hle
    · rfl
  have hfst (other : Nat × List β) : (if other.1 = block.1 then
      ((other.1, splice other.2 index more) : Nat × List β) else other).1 = other.1 := by
    split <;> rfl
  refine ⟨_, if_pos (hc.holds hmem hle), ?_, ?_, hc.apart, hc.address_ne, hc.below, hc.size_pos⟩
  · rw [List.map_map, hc.blocks_eq]
    refine List.map_congr_left fun other hother => ?_
    exact Prod.ext (hfst other).symm (hlength other hother).symm
  · intro changed hchanged
    obtain ⟨other, hother, rfl⟩ := List.mem_map.mp hchanged
    rw [hlength other hother, hfst other]
    have hread := hc.read_eq other hother
    by_cases heq : other.1 = block.1
    · obtain rfl := hc.address_inj hother hmem heq
      rw [if_pos rfl]
      have hsplit : other.2.length =
          index + (more.length + (other.2.length - index - more.length)) := by omega
      rw [hsplit, Memory.read_append, Memory.read_append] at hread ⊢
      have htake := congrArg (List.take index) hread
      rw [List.take_left' (Memory.length_read index)] at htake
      have hdrop := congrArg (List.drop (index + more.length)) hread
      rw [← List.append_assoc, List.drop_left' (by simp)] at hdrop
      rw [Memory.read_write_of_le le_rfl, Memory.read_write_self, Memory.read_write_of_ge le_rfl,
        htake, hdrop, splice, List.append_assoc]
    · rw [if_neg heq]
      rcases hc.disjoint hother hmem heq with hle' | hle'
      · rw [Memory.read_write_of_le (by omega), hread]
      · rw [Memory.read_write_of_ge (by omega), hread]

/-- A new block stands before the others. -/
theorem alloc_eq {address : Nat} {fresh : List β}
    (hroom : Room h.blocks limit address fresh.length) (hpos : 0 < fresh.length) :
    (h.alloc address fresh).Consists limit ((address, fresh) :: contents) where
  blocks_eq := by rw [alloc, hc.blocks_eq, List.map_cons]
  read_eq block hblock := by
    rcases List.mem_cons.mp hblock with rfl | hblock
    · exact Memory.read_write_self fresh
    · have hread := hc.read_eq block hblock
      rcases hroom.apart _ (hc.mem_blocks hblock) with hle | hle
      · exact (Memory.read_write_of_ge hle).trans hread
      · exact (Memory.read_write_of_le hle).trans hread
  apart := List.pairwise_cons.mpr ⟨hroom.apart, hc.apart⟩
  address_ne := List.forall_mem_cons.mpr ⟨hroom.address_ne, hc.address_ne⟩
  below := List.forall_mem_cons.mpr ⟨hroom.below, hc.below⟩
  size_pos := List.forall_mem_cons.mpr ⟨hpos, hc.size_pos⟩

/-- A block that is given back leaves the others. -/
theorem free_eq {block : Nat × List β} (hmem : block ∈ contents) :
    ∃ after, h.free block.1 = .ok after ∧
      after.Consists limit (contents.filter fun other => other.1 ≠ block.1) := by
  have hfound : block.1 ∈ h.blocks.map Prod.fst :=
    List.mem_map.mpr ⟨_, hc.mem_blocks hmem, rfl⟩
  refine ⟨_, if_pos hfound, ?_, ?_, ?_, ?_, ?_, ?_⟩
  · rw [hc.blocks_eq, List.filter_map]
    rfl
  · exact fun other hother => hc.read_eq other (List.mem_of_mem_filter hother)
  · exact hc.apart.sublist List.filter_sublist
  · exact fun other hother => hc.address_ne other (List.mem_of_mem_filter hother)
  · exact fun other hother => hc.below other (List.mem_of_mem_filter hother)
  · exact fun other hother => hc.size_pos other (List.mem_of_mem_filter hother)

/-- All blocks together are no longer than the addresses there are. -/
theorem sum_le : (contents.map fun block => block.2.length).sum ≤ limit := by
  have hle := Intervals.sum_le hc.apart hc.below
  rw [hc.blocks_eq, List.map_map] at hle
  exact hle

end Consists

end Heap

end XHDF5.Math
