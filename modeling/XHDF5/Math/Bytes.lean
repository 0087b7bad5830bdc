/-
# Numbers as bytes

The bytes of an unsigned number in memory, the lowest first, and the number that some first bytes
of a zeroed variable make.
-/

import Mathlib.Algebra.Order.Ring.Nat
import Mathlib.Data.Nat.Basic
import Mathlib.Tactic.Ring

namespace XHDF5.Math

/-- The lowest bytes of a number. -/
def littleEndian : Nat → Nat → List UInt8
  | 0, _ => []
  | width + 1, value => UInt8.ofNat value :: littleEndian width (value / 256)

/-- The number that some lowest bytes make when the others are zero. -/
def ofLittleEndian (bytes : List UInt8) : Nat :=
  bytes.foldr (fun byte rest => byte.toNat + 256 * rest) 0

@[simp]
theorem length_littleEndian (width value : Nat) : (littleEndian width value).length = width := by
  induction width generalizing value with
  | zero => rfl
  | succ width ih => rw [littleEndian, List.length_cons, ih]

theorem ofLittleEndian_littleEndian (width value : Nat) :
    ofLittleEndian (littleEndian width value) = value % 256 ^ width := by
  induction width generalizing value with
  | zero => simp [littleEndian, ofLittleEndian, Nat.mod_one]
  | succ width ih =>
      rw [littleEndian, ofLittleEndian, List.foldr_cons, ← ofLittleEndian, ih, Nat.pow_succ,
        Nat.mul_comm (256 ^ width), Nat.mod_mul]
      simp

/-- A number that fits is read back. -/
theorem ofLittleEndian_of_lt {width value : Nat} (h : value < 256 ^ width) :
    ofLittleEndian (littleEndian width value) = value := by
  rw [ofLittleEndian_littleEndian, Nat.mod_eq_of_lt h]

/-! ## Elements of one size -/

/-- The elements that some bytes consist of, if they are whole. -/
def elementsOf (size : Nat) (bytes : List UInt8) : Option (List (List UInt8)) :=
  if bytes.length = size * (bytes.length / size) then
    some ((List.range (bytes.length / size)).map fun k => (bytes.drop (size * k)).take size)
  else none

/-- Elements that were put next to each other are read one by one. -/
theorem elementsOf_flatten {size : Nat} (hsize : 0 < size) {elements : List (List UInt8)}
    (h : ∀ element ∈ elements, element.length = size) :
    elementsOf size elements.flatten = some elements := by
  have hlength (elements : List (List UInt8)) (h : ∀ element ∈ elements, element.length = size) :
      elements.flatten.length = size * elements.length := by
    induction elements with
    | nil => rfl
    | cons element elements ih =>
        rw [List.flatten_cons, List.length_append, h element List.mem_cons_self,
          ih fun other hother => h other (List.mem_cons_of_mem _ hother), List.length_cons,
          Nat.mul_succ, Nat.add_comm]
  have hread (elements : List (List UInt8)) (h : ∀ element ∈ elements, element.length = size) :
      (List.range elements.length).map
        (fun k => (elements.flatten.drop (size * k)).take size) = elements := by
    induction elements with
    | nil => rfl
    | cons element elements ih =>
        have hhead := h element List.mem_cons_self
        rw [List.length_cons, List.range_succ_eq_map, List.map_cons, List.map_map, Nat.mul_zero,
          List.drop_zero, List.flatten_cons, List.take_left' hhead]
        refine congrArg (element :: ·) ?_
        refine (List.map_congr_left fun k _ => ?_).trans
          (ih fun other hother => h other (List.mem_cons_of_mem _ hother))
        rw [Function.comp_apply, Nat.succ_eq_add_one, Nat.mul_succ, Nat.add_comm,
          ← List.drop_drop, List.drop_left' hhead]
  rw [elementsOf, hlength elements h, Nat.mul_div_cancel_left _ hsize, if_pos rfl, hread elements h]

end XHDF5.Math
