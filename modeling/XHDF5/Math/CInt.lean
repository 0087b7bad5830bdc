/-
# Machine integers

Values of the C type `int` are Lean integers whose operations are checked: signed overflow and
a numeral out of range for `atoi` are undefined, and undefined behaviour is `none` throughout.
Values of `size_t` and of HDF5's `hsize_t` are natural numbers, reduced where the code can wrap.
-/

import XHDF5.Math.Token

namespace XHDF5.Math

/-- A result of the type `int`, if it has one. -/
def cint (value : Int) : Option Int :=
  if -2147483648 ≤ value ∧ value ≤ 2147483647 then some value else none

/-- `atoi`: zero without digits, undefined out of range. -/
def atoi (text : Text) : Option Int :=
  match strtol text with
  | none => some 0
  | some value => cint value

/-- `std::stoi`: it throws without digits and out of range. -/
def stoi (text : Text) : Option Int :=
  (strtol text).bind cint

/-- The conversion of an `int` to a 64-bit unsigned type. -/
def toSize (value : Int) : Nat := (BitVec.ofInt 64 value).toNat

/-- The conversion of a 64-bit unsigned value to `int`. -/
def toInt (value : Nat) : Int := (BitVec.ofNat 32 value).toInt

/-- Arithmetic of a 64-bit unsigned type. -/
def wrap64 (value : Nat) : Nat := value % 2 ^ 64

theorem wrap64_of_lt {value : Nat} (h : value < 2 ^ 64) : wrap64 value = value :=
  Nat.mod_eq_of_lt h

theorem cint_natCast (value : Nat) :
    cint (value : Int) = if value < 2 ^ 31 then some (value : Int) else none := by
  unfold cint
  by_cases h : value < 2 ^ 31
  · rw [if_pos h, if_pos (by omega)]
  · rw [if_neg h, if_neg (by omega)]

theorem cint_natCast_of_lt {value : Nat} (h : value < 2 ^ 31) :
    cint (value : Int) = some (value : Int) := by
  rw [cint_natCast, if_pos h]

theorem cint_eq_some_iff {value result : Int} :
    cint value = some result ↔ result = value ∧ -2147483648 ≤ value ∧ value ≤ 2147483647 := by
  unfold cint
  constructor
  · intro h
    split at h
    · next hrange => exact ⟨(Option.some.inj h).symm, hrange⟩
    · cases h
  · rintro ⟨rfl, hrange⟩
    exact if_pos hrange

@[simp]
theorem atoi_decimal (value : Nat) :
    atoi (decimal value) = if value < 2 ^ 31 then some (value : Int) else none := by
  simp only [atoi, strtol_decimal, cint_natCast]

@[simp]
theorem stoi_decimal (value : Nat) :
    stoi (decimal value) = if value < 2 ^ 31 then some (value : Int) else none := by
  rw [stoi, strtol_decimal, Option.bind_some, cint_natCast]

theorem toSize_natCast {value : Nat} (h : value < 2 ^ 64) : toSize (value : Int) = value := by
  rw [toSize, BitVec.ofInt_natCast, BitVec.toNat_ofNat, Nat.mod_eq_of_lt h]

theorem toInt_of_lt {value : Nat} (h : value % 2 ^ 32 < 2 ^ 31) :
    toInt value = (value % 2 ^ 32 : Nat) := by
  rw [toInt, BitVec.toInt_eq_toNat_of_lt]
  · rw [BitVec.toNat_ofNat]
  · rw [BitVec.toNat_ofNat]
    omega

theorem toInt_neg_of_le {value : Nat} (h : 2 ^ 31 ≤ value % 2 ^ 32) : toInt value < 0 := by
  rw [toInt, BitVec.toInt_eq_toNat_cond, BitVec.toNat_ofNat, if_neg (by omega)]
  omega

/-- Results that are all defined. -/
theorem mapM_eq_some_map {α β : Type*} {f : α → Option β} {g : α → β} {list : List α}
    (h : ∀ x ∈ list, f x = some (g x)) : list.mapM f = some (list.map g) := by
  induction list with
  | nil => rfl
  | cons x list ih =>
      rw [List.mapM_cons, h x List.mem_cons_self, ih fun y hy => h y (List.mem_cons_of_mem _ hy)]
      rfl

/-- A list of checked results is defined when every element passes its check. -/
theorem mapM_check {α β : Type*} (check : α → Prop) [DecidablePred check] (f : α → β)
    (list : List α) :
    (list.mapM fun x => if check x then some (f x) else none) =
      if ∀ x ∈ list, check x then some (list.map f) else none := by
  induction list with
  | nil => rfl
  | cons x list ih =>
      rw [List.mapM_cons, ih]
      by_cases hx : check x
      · by_cases hlist : ∀ y ∈ list, check y
        · simp [hx, if_pos hlist]
        · simp [hx, if_neg hlist]
      · simp [hx]

end XHDF5.Math
