/-
# Intervals that do not overlap

Intervals of addresses, each with its first address and its length, that lie below a bound and do
not overlap are as long together as the addresses they have. So they have every address below the
bound exactly when their lengths add up to it.
-/

import Mathlib.Algebra.BigOperators.Group.List.Basic
import Mathlib.Algebra.Order.Ring.Nat
import Mathlib.Data.List.Nodup
import Mathlib.Data.List.Perm.Subperm

namespace XHDF5.Math.Intervals

/-- Intervals that do not overlap. -/
def Disjoint (first second : Nat × Nat) : Prop :=
  first.1 + first.2 ≤ second.1 ∨ second.1 + second.2 ≤ first.1

/-- The addresses of some intervals. -/
def addresses (intervals : List (Nat × Nat)) : List Nat :=
  intervals.flatMap fun interval => List.range' interval.1 interval.2

/-- Every address below a bound is in an interval. -/
def Cover (bound : Nat) (intervals : List (Nat × Nat)) : Prop :=
  ∀ address < bound, ∃ interval ∈ intervals,
    interval.1 ≤ address ∧ address < interval.1 + interval.2

variable {intervals : List (Nat × Nat)} {bound : Nat}

theorem mem_addresses {address : Nat} : address ∈ addresses intervals ↔
    ∃ interval ∈ intervals, interval.1 ≤ address ∧ address < interval.1 + interval.2 := by
  rw [addresses, List.mem_flatMap]
  simp only [List.mem_range'_1]

theorem length_addresses : (addresses intervals).length = (intervals.map Prod.snd).sum := by
  rw [addresses, List.length_flatMap]
  simp only [List.length_range']

theorem nodup_addresses (h : intervals.Pairwise Disjoint) : (addresses intervals).Nodup := by
  apply List.nodup_flatMap.mpr
  refine ⟨fun interval _ => List.nodup_range', h.imp fun {first second} hdisjoint => ?_⟩
  intro address hfirst hsecond
  rw [List.mem_range'_1] at hfirst hsecond
  rcases hdisjoint with hle | hle <;> omega

theorem addresses_subperm (h : intervals.Pairwise Disjoint)
    (hbound : ∀ interval ∈ intervals, interval.1 + interval.2 ≤ bound) :
    (addresses intervals).Subperm (List.range bound) := by
  apply (nodup_addresses h).subperm
  intro address haddress
  obtain ⟨interval, hinterval, -, hlt⟩ := mem_addresses.mp haddress
  exact List.mem_range.mpr (hlt.trans_le (hbound interval hinterval))

theorem sum_le (h : intervals.Pairwise Disjoint)
    (hbound : ∀ interval ∈ intervals, interval.1 + interval.2 ≤ bound) :
    (intervals.map Prod.snd).sum ≤ bound := by
  have hle := (addresses_subperm h hbound).length_le
  rwa [length_addresses, List.length_range] at hle

/-- The intervals have every address when their lengths add up to the bound. -/
theorem cover_iff (h : intervals.Pairwise Disjoint)
    (hbound : ∀ interval ∈ intervals, interval.1 + interval.2 ≤ bound) :
    Cover bound intervals ↔ (intervals.map Prod.snd).sum = bound := by
  have hsubperm := addresses_subperm h hbound
  constructor
  · intro hcover
    apply Nat.le_antisymm (sum_le h hbound)
    have hrange : (List.range bound).Subperm (addresses intervals) := by
      apply List.nodup_range.subperm
      intro address haddress
      exact mem_addresses.mpr (hcover address (List.mem_range.mp haddress))
    have hle := hrange.length_le
    rwa [length_addresses, List.length_range] at hle
  · intro hsum address haddress
    have hperm : (addresses intervals).Perm (List.range bound) := by
      apply hsubperm.perm_of_length_le
      rw [length_addresses, List.length_range, hsum]
    exact mem_addresses.mp (hperm.mem_iff.mpr (List.mem_range.mpr haddress))

end XHDF5.Math.Intervals
