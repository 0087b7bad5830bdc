/-
# Row-major grids

A grid lists every coordinate tuple whose `k`-th entry is drawn from the `k`-th axis, the last
axis running fastest. An axis is any list of indices, so dense intervals, strided blocks and
single points are all axes.

The second half is about cutting one axis into consecutive parts. Listing the grids of the
parts one after another gives the grid of the whole when nothing runs slower than the cut axis,
and otherwise leaves the row-major order right after the first row of the first part. The last
section cuts an interval into parts whose sizes differ by at most one, the larger ones first.
-/

import Mathlib.Data.List.Nodup
import Mathlib.Algebra.BigOperators.Group.List.Basic
import Mathlib.Tactic.Ring

namespace XHDF5.Math

variable {ι : Type*}

/-- All tuples of the axes in row-major order. -/
def grid : List (List ι) → List (List ι)
  | [] => [[]]
  | axis :: axes => axis.flatMap fun x => (grid axes).map (x :: ·)

@[simp]
theorem grid_nil : grid ([] : List (List ι)) = [[]] := rfl

theorem grid_cons (axis : List ι) (axes : List (List ι)) :
    grid (axis :: axes) = axis.flatMap fun x => (grid axes).map (x :: ·) := rfl

/-- The number of tuples is the product of the axis lengths. -/
theorem length_grid (axes : List (List ι)) :
    (grid axes).length = (axes.map List.length).prod := by
  induction axes with
  | nil => rfl
  | cons axis axes ih =>
      rw [grid_cons, List.length_flatMap]
      simp [ih, List.map_const']

theorem mem_grid {axes : List (List ι)} {tuple : List ι} :
    tuple ∈ grid axes ↔ List.Forall₂ (· ∈ ·) tuple axes := by
  induction axes generalizing tuple with
  | nil => simp
  | cons axis axes ih =>
      simp only [grid_cons, List.mem_flatMap, List.mem_map]
      constructor
      · rintro ⟨x, hx, rest, hrest, rfl⟩
        exact List.Forall₂.cons hx (ih.mp hrest)
      · intro h
        cases h with
        | cons hx hrest => exact ⟨_, hx, _, ih.mpr hrest, rfl⟩

theorem length_of_mem_grid {axes : List (List ι)} {tuple : List ι} (h : tuple ∈ grid axes) :
    tuple.length = axes.length :=
  (mem_grid.mp h).length_eq

/-- A grid is empty exactly when one of its axes is. -/
theorem grid_eq_nil_iff {axes : List (List ι)} : grid axes = [] ↔ [] ∈ axes := by
  induction axes with
  | nil => simp
  | cons axis axes ih =>
      rw [grid_cons, List.flatMap_eq_nil_iff, List.mem_cons, ← ih]
      cases axis with
      | nil => simp
      | cons x axis => simpa using fun hnil _ _ => hnil

theorem grid_ne_nil {axes : List (List ι)} (h : ∀ axis ∈ axes, axis ≠ []) : grid axes ≠ [] :=
  fun hnil => h [] (grid_eq_nil_iff.mp hnil) rfl

/-- Axes without repetition span a grid without repetition. -/
theorem nodup_grid {axes : List (List ι)} (h : ∀ axis ∈ axes, axis.Nodup) :
    (grid axes).Nodup := by
  induction axes with
  | nil => simp
  | cons axis axes ih =>
      rw [grid_cons, List.nodup_flatMap]
      have htail : (grid axes).Nodup := ih fun a ha => h a (List.mem_cons_of_mem _ ha)
      refine ⟨fun x _ => htail.map fun _ _ heq => (List.cons.inj heq).2, ?_⟩
      refine (h axis List.mem_cons_self).imp fun {x y} hxy => ?_
      intro tuple hx hy
      obtain ⟨_, _, rfl⟩ := List.mem_map.mp hx
      obtain ⟨_, _, heq⟩ := List.mem_map.mp hy
      exact hxy (List.cons.inj heq).1.symm

/-- The grid of concatenated axis lists nests the second grid inside the first. -/
theorem grid_append (outer inner : List (List ι)) :
    grid (outer ++ inner) = (grid outer).flatMap fun a => (grid inner).map (a ++ ·) := by
  induction outer with
  | nil => simp
  | cons axis outer ih =>
      rw [List.cons_append, grid_cons, grid_cons, ih, List.flatMap_assoc]
      congr 1
      funext x
      simp [List.map_flatMap, List.flatMap_map, Function.comp_def]

/-- Cutting the slowest axis concatenates the grids of its parts. -/
theorem grid_flatten_cons (parts : List (List ι)) (inner : List (List ι)) :
    grid (parts.flatten :: inner) = parts.flatMap fun part => grid (part :: inner) := by
  simp only [grid_cons]
  induction parts with
  | nil => rfl
  | cons part parts ih => simp [ih]

/-! ## Cutting an axis in the middle -/

section Cut

variable (outer : List (List ι)) (parts : List (List ι)) (inner : List (List ι))

/-- The grids of the parts of the cut axis, one after another. -/
def cutGrid : List (List ι) :=
  parts.flatMap fun part => grid (outer ++ part :: inner)

variable {outer parts inner}

/-- Behind a single outer tuple the cut is invisible. -/
theorem cutGrid_of_single {head : List ι} (houter : grid outer = [head]) :
    cutGrid outer parts inner = grid (outer ++ parts.flatten :: inner) := by
  simp [cutGrid, grid_append, houter, grid_flatten_cons, List.map_flatMap]

/-- A cut that leaves everything in one part is invisible too. -/
theorem cutGrid_of_rest_empty {part : List ι} {rest : List (List ι)}
    (hrest : ∀ other ∈ rest, other = []) :
    cutGrid outer (part :: rest) inner =
      grid (outer ++ (part :: rest).flatten :: inner) := by
  have hflat : rest.flatten = [] := by simpa [List.flatten_eq_nil_iff] using hrest
  have hgrids : (rest.flatMap fun part => grid (outer ++ part :: inner)) = [] := by
    refine List.flatMap_eq_nil_iff.mpr fun other hother => ?_
    rw [hrest other hother]
    exact grid_eq_nil_iff.mpr (by simp)
  simp [cutGrid, hflat, hgrids]

/-- With two outer tuples and two nonempty parts, both listings begin with the tuples of the
first part under the first outer tuple. There the cut listing moves on to the second outer
tuple, while the row-major one continues along the cut axis. -/
theorem cutGrid_diverges {first second : List ι} {others : List (List ι)}
    (houter : grid outer = first :: second :: others)
    {x : ι} {part : List ι} {y : ι} {after : List ι} {rest : List (List ι)}
    (hrest : rest.flatten = y :: after) (hinner : ∀ axis ∈ inner, axis ≠ []) :
    ∃ row tail tailWhole tailCut,
      row.length = (part.length + 1) * (grid inner).length ∧
      grid (outer ++ ((x :: part) :: rest).flatten :: inner) =
        row ++ (first ++ y :: tail) :: tailWhole ∧
      cutGrid outer ((x :: part) :: rest) inner = row ++ (second ++ x :: tail) :: tailCut := by
  obtain ⟨tail, tails, htail⟩ := List.exists_cons_of_ne_nil (grid_ne_nil hinner)
  have hstart (z : ι) (axis : List ι) :
      ∃ more, grid ((z :: axis) :: inner) = (z :: tail) :: more :=
    ⟨_, by rw [grid_cons, List.flatMap_cons, htail, List.map_cons, List.cons_append]⟩
  obtain ⟨moreWhole, hmoreWhole⟩ := hstart y after
  obtain ⟨moreCut, hmoreCut⟩ := hstart x part
  have hsplit : grid (((x :: part) :: rest).flatten :: inner) =
      grid ((x :: part) :: inner) ++ (y :: tail) :: moreWhole := by
    rw [List.flatten_cons, hrest, ← hmoreWhole]
    simp only [grid_cons, List.flatMap_append]
  have hsecond : (grid ((x :: part) :: inner)).map (second ++ ·) =
      (second ++ x :: tail) :: moreCut.map (second ++ ·) := by
    rw [hmoreCut, List.map_cons]
  refine ⟨(grid ((x :: part) :: inner)).map (first ++ ·), tail, moreWhole.map (first ++ ·) ++
    (second :: others).flatMap fun a =>
      (grid (((x :: part) :: rest).flatten :: inner)).map (a ++ ·),
    moreCut.map (second ++ ·) ++ ((others.flatMap fun a =>
      (grid ((x :: part) :: inner)).map (a ++ ·)) ++ cutGrid outer rest inner), ?_, ?_, ?_⟩
  · simp [length_grid]
  · rw [grid_append, houter, List.flatMap_cons]
    nth_rewrite 1 [hsplit]
    simp
  · rw [cutGrid, List.flatMap_cons, grid_append, houter, List.flatMap_cons, List.flatMap_cons,
      hsecond]
    simp [cutGrid]

/-- Hence the two listings differ as soon as the cut axis has no repetition. -/
theorem cutGrid_ne_of_two {first second : List ι} {others : List (List ι)}
    (houter : grid outer = first :: second :: others)
    {x : ι} {part : List ι} {y : ι} {after : List ι} {rest : List (List ι)}
    (hrest : rest.flatten = y :: after) (hinner : ∀ axis ∈ inner, axis ≠ []) (hxy : y ≠ x) :
    cutGrid outer ((x :: part) :: rest) inner ≠
      grid (outer ++ ((x :: part) :: rest).flatten :: inner) := by
  obtain ⟨row, tail, tailWhole, tailCut, -, hwhole, hcut⟩ :=
    cutGrid_diverges houter hrest hinner
  have hlen : first.length = second.length := by
    have hfirst : first ∈ grid outer := by simp [houter]
    have hsecond : second ∈ grid outer := by simp [houter]
    rw [length_of_mem_grid hfirst, length_of_mem_grid hsecond]
  rw [hwhole, hcut]
  intro heq
  have hhead := (List.cons.inj (List.append_cancel_left heq)).1
  have htail := (List.append_inj hhead hlen.symm).2
  exact hxy (List.cons.inj htail).1.symm

end Cut

/-! ## Balanced cuts of an interval -/

section Balanced

variable (start len : Nat)

/-- Where the `i`-th of `n` balanced parts of `[start, start + len)` begins. -/
def cutPoint (n i : Nat) : Nat := start + i * (len / n) + min i (len % n)

variable {n : Nat}

@[simp]
theorem cutPoint_zero : cutPoint start len n 0 = start := by simp [cutPoint]

theorem cutPoint_succ (i : Nat) :
    cutPoint start len n (i + 1) =
      cutPoint start len n i + (len / n + if i < len % n then 1 else 0) := by
  simp only [cutPoint, Nat.add_mul]
  split <;> omega

/-- The first part of an interval that is not empty is not empty. -/
theorem lt_cutPoint_one (hn : 0 < n) (hlen : 0 < len) : start < cutPoint start len n 1 := by
  have hone := cutPoint_succ start len (n := n) 0
  rw [cutPoint_zero] at hone
  rw [hone]
  by_cases hmod : 0 < len % n
  · rw [if_pos hmod]
    exact Nat.lt_add_of_pos_right (Nat.succ_pos _)
  · have hdvd : n ∣ len := Nat.dvd_of_mod_eq_zero (Nat.eq_zero_of_not_pos hmod)
    have hdiv : 0 < len / n := Nat.div_pos (Nat.le_of_dvd hlen hdvd) hn
    exact Nat.lt_add_of_pos_right (Nat.add_pos_left hdiv _)

/-- The last part ends where the interval does. -/
theorem cutPoint_last (hn : 0 < n) : cutPoint start len n n = start + len := by
  have hdiv := Nat.div_add_mod len n
  have hmod := Nat.mod_lt len hn
  rw [cutPoint, min_eq_right hmod.le]
  omega

theorem cutPoint_mono {i j : Nat} (h : i ≤ j) :
    cutPoint start len n i ≤ cutPoint start len n j := by
  have hmul : i * (len / n) ≤ j * (len / n) := Nat.mul_le_mul_right _ h
  simp only [cutPoint]
  omega

/-- The last part is one of the smaller ones. -/
theorem cutPoint_pred (hn : 0 < n) : cutPoint start len n (n - 1) = start + len - len / n := by
  have hlast := cutPoint_last start len hn
  have hsucc := cutPoint_succ start len (n := n) (n - 1)
  have hmod := Nat.mod_lt len hn
  rw [Nat.sub_add_cancel hn, hlast, if_neg (by omega)] at hsucc
  omega

/-- No part is larger than the first. -/
theorem cutPoint_gap_le (i : Nat) :
    cutPoint start len n (i + 1) - cutPoint start len n i ≤ cutPoint start len n 1 - start := by
  have hi := cutPoint_succ start len (n := n) i
  have hzero := cutPoint_succ start len (n := n) 0
  rw [cutPoint_zero] at hzero
  rw [hi, hzero]
  split <;> split <;> omega

variable (n) in
/-- The `n` balanced parts of `[start, start + len)`. -/
def balancedParts : List (List Nat) :=
  (List.range n).map fun i => List.range' (cutPoint start len n i)
    (cutPoint start len n (i + 1) - cutPoint start len n i)

/-- The balanced parts list the interval. -/
theorem flatten_balancedParts (hn : 0 < n) :
    (balancedParts start len n).flatten = List.range' start len := by
  have hfirst (k : Nat) :
      ((List.range k).map fun i => List.range' (cutPoint start len n i)
        (cutPoint start len n (i + 1) - cutPoint start len n i)).flatten =
          List.range' start (cutPoint start len n k - start) := by
    induction k with
    | zero => simp
    | succ k ih =>
        have hstart : start ≤ cutPoint start len n k := by
          simpa using cutPoint_mono start len (n := n) (Nat.zero_le k)
        have hstep := cutPoint_mono start len (n := n) (Nat.le_add_right k 1)
        rw [List.range_succ, List.map_append, List.flatten_append, ih]
        simp only [List.map_cons, List.map_nil, List.flatten_cons, List.flatten_nil,
          List.append_nil]
        rw [show cutPoint start len n (k + 1) - start =
          (cutPoint start len n k - start) +
            (cutPoint start len n (k + 1) - cutPoint start len n k) by omega,
          ← List.range'_append_1, Nat.add_sub_cancel' hstart]
  rw [balancedParts, hfirst n, cutPoint_last _ _ hn, Nat.add_sub_cancel_left]

theorem balancedParts_eq_cons (hn : 0 < n) :
    balancedParts start len n = List.range' start (cutPoint start len n 1 - start) ::
      (balancedParts start len n).tail := by
  obtain ⟨m, rfl⟩ : ∃ m, n = m + 1 := ⟨n - 1, by omega⟩
  simp [balancedParts, List.range_succ_eq_map]

theorem flatten_tail_balancedParts (hn : 0 < n) :
    (balancedParts start len n).tail.flatten =
      List.range' (cutPoint start len n 1) (start + len - cutPoint start len n 1) := by
  have hone : start ≤ cutPoint start len n 1 := by
    simpa using cutPoint_mono start len (n := n) zero_le_one
  have hlast : cutPoint start len n 1 ≤ start + len :=
    (cutPoint_mono _ _ hn).trans (cutPoint_last _ _ hn).le
  have hflat := flatten_balancedParts start len hn
  have hwhole : List.range' start len = List.range' start (cutPoint start len n 1 - start) ++
      List.range' (cutPoint start len n 1) (start + len - cutPoint start len n 1) := by
    have happend := List.range'_append_1 (s := start) (m := cutPoint start len n 1 - start)
      (n := start + len - cutPoint start len n 1)
    rw [Nat.add_sub_cancel' hone] at happend
    rw [happend]
    congr 1
    omega
  rw [balancedParts_eq_cons _ _ hn, List.flatten_cons, hwhole] at hflat
  exact List.append_cancel_left hflat

/-- Two or more servers and two or more indices: the first part leaves some for the others. -/
theorem cutPoint_one_lt (hn : 1 < n) (hlen : 1 < len) : cutPoint start len n 1 < start + len := by
  have hone := cutPoint_succ start len (n := n) 0
  have hdiv : len / n * 2 ≤ len :=
    (Nat.mul_le_mul_left _ hn).trans (Nat.div_mul_le_self len n)
  rw [cutPoint_zero] at hone
  rw [hone]
  by_cases hmod : 0 < len % n
  · rw [if_pos hmod]
    have hlt := Nat.div_add_mod len n
    by_cases hzero : len / n = 0
    · omega
    · have : 2 * (len / n) ≤ n * (len / n) := Nat.mul_le_mul_right _ hn
      omega
  · rw [if_neg hmod]
    omega

/-- A balanced cut is invisible exactly when the cut axis or everything slower has one entry. -/
theorem cutGrid_balancedParts_iff {outer inner : List (List Nat)} (hn : 1 < n) (hlen : 0 < len)
    (houter : ∀ axis ∈ outer, axis ≠ []) (hinner : ∀ axis ∈ inner, axis ≠ []) :
    cutGrid outer (balancedParts start len n) inner =
        grid (outer ++ List.range' start len :: inner) ↔
      len = 1 ∨ (grid outer).length = 1 := by
  have hpos : 0 < n := by omega
  rw [← flatten_balancedParts start len hpos]
  constructor
  · intro heq
    by_contra hmany
    obtain ⟨hlen1, hgrid⟩ := not_or.mp hmany
    obtain ⟨first, second, others, hlist⟩ : ∃ first second others,
        grid outer = first :: second :: others := by
      match h : grid outer with
      | [] => exact absurd h (grid_ne_nil houter)
      | [head] => exact absurd (by rw [h]; rfl) hgrid
      | first :: second :: others => exact ⟨first, second, others, rfl⟩
    have hfirst := lt_cutPoint_one start len hpos hlen
    have hrest := cutPoint_one_lt start len hn (by omega)
    have htail := flatten_tail_balancedParts start len hpos
    obtain ⟨more, hmore⟩ : ∃ more, start + len - cutPoint start len n 1 = more + 1 :=
      ⟨start + len - cutPoint start len n 1 - 1, by omega⟩
    obtain ⟨size, hsize⟩ : ∃ size, cutPoint start len n 1 - start = size + 1 :=
      ⟨cutPoint start len n 1 - start - 1, by omega⟩
    rw [hmore, List.range'_succ] at htail
    rw [balancedParts_eq_cons _ _ hpos, hsize, List.range'_succ] at heq
    exact cutGrid_ne_of_two hlist htail hinner (by omega) heq
  · rintro (rfl | hone)
    · rw [balancedParts_eq_cons _ _ hpos]
      refine cutGrid_of_rest_empty fun other hother => ?_
      have htail := flatten_tail_balancedParts start 1 hpos
      have hfirst := lt_cutPoint_one start 1 hpos one_pos
      rw [show start + 1 - cutPoint start 1 n 1 = 0 by omega, List.range'_zero,
        List.flatten_eq_nil_iff] at htail
      exact htail other hother
    · obtain ⟨head, hhead⟩ := List.length_eq_one_iff.mp hone
      exact cutGrid_of_single hhead

end Balanced

end XHDF5.Math
