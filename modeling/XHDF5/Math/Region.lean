/-
# Writers that share a region

A region of memory is divided into consecutive slices, one for each writer. A writer receives
its values in chunks, and the chunks of different writers arrive in any interleaving. The lemmas
here say what a write changes, and when the whole region holds the writers' values one after
another.
-/

import Mathlib.Algebra.BigOperators.Group.List.Basic
import Mathlib.Algebra.Order.Ring.Nat

namespace XHDF5.Math

variable {β : Type*}

/-- The values of a region, by address. -/
abbrev Memory (β : Type*) := Nat → β

namespace Memory

variable (memory : Memory β) (start : Nat)

/-- Store values at consecutive addresses. -/
def write (values : List β) : Memory β := fun address =>
  if start ≤ address then (values[address - start]?).getD (memory address) else memory address

/-- Load values from consecutive addresses. -/
def read (len : Nat) : List β := (List.range' start len).map memory

variable {memory start}

theorem write_of_lt {values : List β} {address : Nat} (h : address < start) :
    memory.write start values address = memory address :=
  if_neg (Nat.not_le_of_lt h)

theorem write_of_le {values : List β} {address : Nat} (h : start + values.length ≤ address) :
    memory.write start values address = memory address := by
  rw [write, if_pos (by omega), List.getElem?_eq_none (by omega), Option.getD_none]

theorem write_add {values : List β} {k : Nat} (hk : k < values.length) :
    memory.write start values (start + k) = values[k] := by
  rw [write, if_pos (Nat.le_add_right _ _), Nat.add_sub_cancel_left,
    List.getElem?_eq_getElem hk, Option.getD_some]

/-- Two adjacent writes are one. -/
theorem write_append (first second : List β) :
    memory.write start (first ++ second) =
      (memory.write start first).write (start + first.length) second := by
  funext address
  rcases Nat.lt_or_ge address start with hlt | hge
  · rw [write_of_lt hlt, write_of_lt (by omega), write_of_lt hlt]
  · obtain ⟨k, rfl⟩ := Nat.exists_eq_add_of_le hge
    rcases Nat.lt_or_ge k first.length with hfirst | hsecond
    · rw [write_add (by rw [List.length_append]; omega), write_of_lt (by omega),
        write_add hfirst, List.getElem_append_left hfirst]
    · obtain ⟨m, rfl⟩ := Nat.exists_eq_add_of_le hsecond
      rcases Nat.lt_or_ge m second.length with hlt | hle
      · rw [write_add (by rw [List.length_append]; omega), ← Nat.add_assoc, write_add hlt,
          List.getElem_append_right (Nat.le_add_right _ _)]
        simp
      · rw [write_of_le (by rw [List.length_append]; omega), write_of_le (by omega),
          write_of_le (by omega)]

@[simp]
theorem length_read (len : Nat) : (memory.read start len).length = len := by
  simp [read]

theorem read_append (first second : Nat) :
    memory.read start (first + second) =
      memory.read start first ++ memory.read (start + first) second := by
  rw [read, read, read, ← List.map_append, List.range'_append_1]

theorem read_eq_iff {values : List β} :
    memory.read start values.length = values ↔
      ∀ k, (hk : k < values.length) → memory (start + k) = values[k] := by
  constructor
  · intro h k hk
    have hentry := List.getElem_of_eq h (i := k) (by simpa using hk)
    simpa [read] using hentry
  · intro h
    refine List.ext_getElem (by simp) fun k hk hk' => ?_
    simpa [read] using h k hk'

theorem read_write_self (values : List β) :
    (memory.write start values).read start values.length = values :=
  read_eq_iff.mpr fun _ hk => write_add hk

/-- A load that a store does not reach. -/
theorem read_write_of_le {values : List β} {first len : Nat} (h : first + len ≤ start) :
    (memory.write start values).read first len = memory.read first len := by
  refine List.map_congr_left fun address haddress => write_of_lt ?_
  have := List.mem_range'_1.mp haddress
  omega

theorem read_write_of_ge {values : List β} {first len : Nat} (h : start + values.length ≤ first) :
    (memory.write start values).read first len = memory.read first len := by
  refine List.map_congr_left fun address haddress => write_of_le ?_
  have := List.mem_range'_1.mp haddress
  omega

theorem read_const (value : β) (first len : Nat) :
    Memory.read (fun _ => value) first len = List.replicate len value := by
  simp [read, List.map_const']

/-- Pieces of one size have this length together. -/
theorem length_flatten_of_size {pieces : List (List β)} {size : Nat}
    (hsize : ∀ piece ∈ pieces, piece.length = size) : pieces.flatten.length = pieces.length * size := by
  have hsizes : pieces.map List.length = List.replicate pieces.length size := by
    rw [List.eq_replicate_iff, List.length_map]
    exact ⟨rfl, List.forall_mem_map.mpr hsize⟩
  rw [List.length_flatten, hsizes]
  simp

/-- A load of one piece of what was stored as consecutive pieces of one size. -/
theorem read_write_flatten {pieces : List (List β)} {size k : Nat}
    (hsize : ∀ piece ∈ pieces, piece.length = size) (hk : k < pieces.length) :
    (memory.write 0 pieces.flatten).read (k * size) size = pieces[k] := by
  have hbefore : (pieces.take k).flatten.length = k * size := by
    rw [length_flatten_of_size fun piece hpiece => hsize piece (List.mem_of_mem_take hpiece),
      List.length_take_of_le (Nat.le_of_lt hk)]
  have hlen : pieces[k].length = size := hsize _ (List.getElem_mem hk)
  have hsplit : pieces.flatten =
      (pieces.take k).flatten ++ (pieces[k] ++ (pieces.drop (k + 1)).flatten) := by
    rw [← List.flatten_cons, List.getElem_cons_drop, ← List.flatten_append,
      List.take_append_drop]
  rw [hsplit, write_append, write_append, Nat.zero_add, hbefore,
    read_write_of_le (by omega), ← hlen, read_eq_iff]
  exact fun i hi => write_add hi

/-- Pieces of one size behind each other. -/
theorem read_mul (first count size : Nat) :
    memory.read (first * size) (count * size) =
      (List.range' first count).flatMap fun k => memory.read (k * size) size := by
  induction count generalizing first with
  | zero => simp [read]
  | succ count ih =>
      rw [List.range'_succ, List.flatMap_cons, ← ih, Nat.succ_mul, Nat.succ_mul,
        Nat.add_comm (count * size), read_append]

end Memory

/-! ## Slices -/

/-- Where the `i`-th of the consecutive slices begins. -/
def sliceStart (sizes : List Nat) (i : Nat) : Nat := (sizes.take i).sum

@[simp]
theorem sliceStart_zero (sizes : List Nat) : sliceStart sizes 0 = 0 := by
  simp [sliceStart]

@[simp]
theorem sliceStart_cons_succ (size : Nat) (sizes : List Nat) (i : Nat) :
    sliceStart (size :: sizes) (i + 1) = size + sliceStart sizes i := by
  simp [sliceStart]

theorem sliceStart_succ {sizes : List Nat} {i : Nat} (hi : i < sizes.length) :
    sliceStart sizes (i + 1) = sliceStart sizes i + sizes[i] := by
  rw [sliceStart, List.take_succ_eq_append_getElem hi, List.sum_append, List.sum_singleton,
    sliceStart]

theorem sliceStart_mono {sizes : List Nat} {i j : Nat} (h : i ≤ j) :
    sliceStart sizes i ≤ sliceStart sizes j := by
  induction h with
  | refl => exact Nat.le_refl _
  | @step j _ ih =>
      refine Nat.le_trans ih ?_
      rw [sliceStart, sliceStart, List.take_add_one, List.sum_append]
      exact Nat.le_add_right _ _

/-- A slice ends before any later one begins. -/
theorem slice_le {sizes : List Nat} {i j : Nat} (hi : i < sizes.length) (hij : i < j) :
    sliceStart sizes i + sizes[i] ≤ sliceStart sizes j := by
  rw [← sliceStart_succ hi]
  exact sliceStart_mono hij

/-- A chunk that keeps within its slice, with a terminator behind it, reaches into another slice
only at the first address of a later one. -/
theorem write_terminated_other {memory : Memory β} {sizes : List Nat} {i j cursor : Nat}
    {chunk : List β} {terminator : β} (hi : i < sizes.length) (hj : j < sizes.length)
    (hne : i ≠ j) (hlow : sliceStart sizes j ≤ cursor)
    (hhigh : cursor + chunk.length ≤ sliceStart sizes j + sizes[j]) {k : Nat} (hk : k < sizes[i])
    (hsafe : k = 0 → j < i → cursor + chunk.length ≠ sliceStart sizes i) :
    memory.write cursor (chunk ++ [terminator]) (sliceStart sizes i + k) =
      memory (sliceStart sizes i + k) := by
  rcases Nat.lt_or_gt_of_ne hne with hlt | hgt
  · have hend := slice_le hi hlt
    exact Memory.write_of_lt (by omega)
  · have hend := slice_le hj hgt
    refine Memory.write_of_le ?_
    rw [List.length_append, List.length_singleton]
    rcases Nat.eq_zero_or_pos k with rfl | hpos
    · have := hsafe rfl hgt
      omega
    · omega

/-- A region holds the concatenation when every slice holds its own values. -/
theorem read_flatten_iff (memory : Memory β) (bodies : List (List β)) (start : Nat) :
    memory.read start bodies.flatten.length = bodies.flatten ↔
      ∀ i, (hi : i < bodies.length) →
        memory.read (start + sliceStart (bodies.map List.length) i) bodies[i].length =
          bodies[i] := by
  induction bodies generalizing start with
  | nil => simp [Memory.read]
  | cons body bodies ih =>
      rw [List.flatten_cons, List.length_append, Memory.read_append]
      constructor
      · intro h i hi
        obtain ⟨hhead, htail⟩ := List.append_inj h (by simp)
        cases i with
        | zero => simpa using hhead
        | succ i =>
            have hslice := (ih (start + body.length)).mp htail i (by simpa using hi)
            simpa [Nat.add_assoc] using hslice
      · intro h
        have hhead := h 0 (by simp)
        have htail : ∀ i, (hi : i < bodies.length) →
            memory.read (start + body.length + sliceStart (bodies.map List.length) i)
              bodies[i].length = bodies[i] := fun i hi => by
          have hslice := h (i + 1) (by simpa using hi)
          rwa [List.map_cons, sliceStart_cons_succ, ← Nat.add_assoc] at hslice
        rw [(ih _).mpr htail]
        exact congrArg (· ++ bodies.flatten) (by simpa using hhead)

/-! ## Deliveries -/

/-- The values a schedule of deliveries brings to one writer. -/
def received (writer : Nat) (schedule : List (Nat × List β)) : List β :=
  (schedule.filter fun delivery => delivery.1 == writer).flatMap Prod.snd

@[simp]
theorem received_nil (writer : Nat) : received writer ([] : List (Nat × List β)) = [] := rfl

theorem received_append (writer : Nat) (first second : List (Nat × List β)) :
    received writer (first ++ second) = received writer first ++ received writer second := by
  simp [received]

theorem received_snoc (writer : Nat) (schedule : List (Nat × List β)) (delivery : Nat × List β) :
    received writer (schedule ++ [delivery]) =
      received writer schedule ++ if delivery.1 = writer then delivery.2 else [] := by
  rw [received_append]
  by_cases h : delivery.1 = writer <;> simp [received, h]

theorem length_received_le (writer : Nat) (first second : List (Nat × List β)) :
    (received writer first).length ≤ (received writer (first ++ second)).length := by
  rw [received_append, List.length_append]
  exact Nat.le_add_right _ _

end XHDF5.Math
