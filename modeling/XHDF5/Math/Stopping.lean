/-
# Walks that stop

A walk goes from place to place and calls a function at each. The results of the calls are numbered
through the whole run, and the first one that is not zero ends it. A walk that descends counts the
levels on the way down and on the way up.
-/

import Mathlib.Data.List.Basic
import Mathlib.Data.Option.Basic

namespace XHDF5.Math

/-! ## Results of calls -/

/-- The results of so many calls are zero. -/
def AllZero (op : Nat → Int) (first count : Nat) : Prop := ∀ k < count, op (first + k) = 0

/-- The call is the first one with a result that is not zero. -/
structure StopsAt (op : Nat → Int) (first count k : Nat) : Prop where
  lt : k < count
  before : ∀ j < k, op (first + j) = 0
  ne_zero : op (first + k) ≠ 0

/-- The places up to the first result that is not zero, and that result. -/
def uptoStop {α : Type*} (op : Nat → Int) : Nat → List α → List α × Int
  | _, [] => ([], 0)
  | first, x :: xs =>
      if op first = 0 then
        let rest := uptoStop op (first + 1) xs
        (x :: rest.1, rest.2)
      else ([x], op first)

section Results

variable {α : Type*} {op : Nat → Int} {first count k : Nat}

theorem allZero_or_stopsAt (op : Nat → Int) (first count : Nat) :
    AllZero op first count ∨ ∃ k, StopsAt op first count k := by
  induction count with
  | zero => exact .inl nofun
  | succ count ih =>
      rcases ih with hzero | ⟨k, hlt, hbefore, hne⟩
      · by_cases hlast : op (first + count) = 0
        · refine .inl fun k hk => ?_
          rcases Nat.lt_succ_iff_lt_or_eq.mp hk with hk | rfl
          · exact hzero k hk
          · exact hlast
        · exact .inr ⟨count, Nat.lt_succ_self count, hzero, hlast⟩
      · exact .inr ⟨k, Nat.lt_succ_of_lt hlt, hbefore, hne⟩

/-- The first call has a result other than zero, or the others stop later. -/
theorem StopsAt.cases (h : StopsAt op first count k) :
    (k = 0 ∧ op first ≠ 0) ∨ ∃ j, k = j + 1 ∧ op first = 0 ∧ StopsAt op (first + 1) (count - 1) j := by
  have hlt := h.lt
  cases k with
  | zero => exact .inl ⟨rfl, h.ne_zero⟩
  | succ j =>
      have hshift (i : Nat) : first + 1 + i = first + (i + 1) := by omega
      refine .inr ⟨j, rfl, h.before 0 (Nat.succ_pos j), by omega, fun i hi => ?_, ?_⟩
      · rw [hshift]
        exact h.before (i + 1) (by omega)
      · rw [hshift]
        exact h.ne_zero

theorem AllZero.append {more : Nat} (h : AllZero op first (count + more)) :
    AllZero op first count ∧ AllZero op (first + count) more :=
  ⟨fun k hk => h k (by omega), fun k hk => by rw [Nat.add_assoc]; exact h _ (by omega)⟩

/-- Of two stretches of calls the first one stops, or it does not and the second one stops. -/
theorem StopsAt.append {more : Nat} (h : StopsAt op first (count + more) k) :
    StopsAt op first count k ∨
      AllZero op first count ∧ ∃ j, k = count + j ∧ StopsAt op (first + count) more j := by
  have hlt := h.lt
  rcases Nat.lt_or_ge k count with hk | hk
  · exact .inl ⟨hk, h.before, h.ne_zero⟩
  · obtain ⟨j, rfl⟩ := Nat.exists_eq_add_of_le hk
    refine .inr ⟨fun i hi => h.before i (by omega), j, rfl, by omega, fun i hi => ?_, ?_⟩
    · rw [Nat.add_assoc]
      exact h.before _ (by omega)
    · rw [Nat.add_assoc]
      exact h.ne_zero

theorem uptoStop_allZero {places : List α} (h : AllZero op first places.length) :
    uptoStop op first places = (places, 0) := by
  induction places generalizing first with
  | nil => rfl
  | cons x places ih =>
      have hfirst : op first = 0 := h 0 (Nat.succ_pos _)
      rw [List.length_cons, Nat.add_comm] at h
      rw [uptoStop, if_pos hfirst, ih h.append.2]

theorem uptoStop_stopsAt {places : List α} (h : StopsAt op first places.length k) :
    uptoStop op first places = (places.take (k + 1), op (first + k)) := by
  induction places generalizing first k with
  | nil => exact absurd h.lt (Nat.not_lt_zero k)
  | cons x places ih =>
      rcases h.cases with ⟨rfl, hfirst⟩ | ⟨j, rfl, hfirst, hrest⟩
      · rw [uptoStop, if_neg hfirst]
        rfl
      · rw [uptoStop, if_pos hfirst, ih hrest, Nat.add_assoc, Nat.add_comm 1 j]
        rfl

/-- The first place is always visited. -/
theorem uptoStop_head? (op : Nat → Int) (first : Nat) (places : List α) :
    (uptoStop op first places).1.head? = places.head? := by
  cases places with
  | nil => rfl
  | cons x places =>
      rw [uptoStop]
      split_ifs <;> rfl

end Results

/-! ## Walks -/

/-- The places of the calls so far, the level, and what the walk knows of what it has seen. -/
structure Walk (α σ : Type*) where
  visited : List α
  depth : Nat
  seen : σ

/-- A visit ends with a result, or has no defined result. -/
abbrev Visit (α σ : Type*) := Walk α σ → Option (Int × Walk α σ)

/-- The places of a visit without a stop, each with its level, and what is seen behind it. -/
abbrev Listing (α σ : Type*) := σ → List (α × Nat) × σ

/-- One visit after the other, up to a result that is not zero. -/
def visitAll {α β σ : Type*} (visit : β → Visit α σ) : List β → Visit α σ
  | [], w => some (0, w)
  | e :: entries, w =>
      (visit e w).bind fun r => if r.1 = 0 then visitAll visit entries r.2 else some r

/-- One listing behind the other. -/
def listAll {α β σ : Type*} (list : β → Listing α σ) : List β → Listing α σ
  | [], seen => ([], seen)
  | e :: entries, seen =>
      let rest := listAll list entries (list e seen).2
      ((list e seen).1 ++ rest.1, rest.2)

/-- The listing one level below. -/
def Listing.below {α σ : Type*} (list : Listing α σ) : Listing α σ := fun seen =>
  ((list seen).1.map fun place => (place.1, place.2 + 1), (list seen).2)

/-- The level of a place. -/
def levelOf {α : Type*} (places : List (α × Nat)) (k : Nat) : Nat :=
  (places[k]?.map Prod.snd).getD 0

/-- What a visit does: without a stop it comes to all places of the listing and returns to its level;
at a negative result it ends, at once and on the level of that place. -/
structure Reports {α σ : Type*} (op : Nat → Int) (visit : Visit α σ) (list : Listing α σ) : Prop where
  allZero : ∀ w : Walk α σ, AllZero op w.visited.length (list w.seen).1.length →
    visit w = some (0, ⟨w.visited ++ (list w.seen).1.map Prod.fst, w.depth, (list w.seen).2⟩)
  negative : ∀ (w : Walk α σ) (k : Nat), StopsAt op w.visited.length (list w.seen).1.length k →
    op (w.visited.length + k) < 0 →
      ∃ ret < 0, ∃ seen, (levelOf (list w.seen).1 k = 0 → ret = op (w.visited.length + k)) ∧
        visit w = some (ret, ⟨w.visited ++ ((list w.seen).1.take (k + 1)).map Prod.fst,
          w.depth + levelOf (list w.seen).1 k, seen⟩)

section Rules

variable {α β σ : Type*} {op : Nat → Int}

theorem levelOf_append_left {places : List (α × Nat)} {k : Nat} (h : k < places.length)
    (more : List (α × Nat)) : levelOf (places ++ more) k = levelOf places k := by
  rw [levelOf, List.getElem?_append_left h, levelOf]

theorem levelOf_append_right (places more : List (α × Nat)) (k : Nat) :
    levelOf (places ++ more) (places.length + k) = levelOf more k := by
  rw [levelOf, List.getElem?_append_right (Nat.le_add_right _ _), Nat.add_sub_cancel_left, levelOf]

theorem levelOf_map_succ {places : List (α × Nat)} {k : Nat} (h : k < places.length) :
    levelOf (places.map fun place => (place.1, place.2 + 1)) k = levelOf places k + 1 := by
  simp [levelOf, List.getElem?_eq_getElem h]

/-- A visit in front of another one: the other one follows when the result is zero. -/
theorem reports_cons {first rest : Visit α σ} {list more : Listing α σ} (hfirst : Reports op first list)
    (hrest : Reports op rest more) :
    Reports op (fun w => (first w).bind fun r => if r.1 = 0 then rest r.2 else some r)
      fun seen => ((list seen).1 ++ (more (list seen).2).1, (more (list seen).2).2) := by
  constructor
  · intro w hzero
    rw [List.length_append] at hzero
    obtain ⟨hzero, hlater⟩ := hzero.append
    rw [hfirst.allZero w hzero, Option.bind_some, if_pos rfl, hrest.allZero _ (by simpa using hlater)]
    simp
  · intro w k hstop hneg
    simp only at hstop hneg ⊢
    rw [List.length_append] at hstop
    rcases hstop.append with hhere | ⟨hzero, j, rfl, hlater⟩
    · obtain ⟨ret, hret, seen, hlevel, hvisit⟩ := hfirst.negative w k hhere hneg
      refine ⟨ret, hret, seen, ?_, ?_⟩
      · rw [levelOf_append_left hhere.lt]
        exact hlevel
      · rw [hvisit, Option.bind_some, if_neg (by simp only; omega), levelOf_append_left hhere.lt,
          List.take_append_of_le_length hhere.lt]
    · have hlength : (w.visited ++ (list w.seen).1.map Prod.fst).length =
          w.visited.length + (list w.seen).1.length := by simp
      have hafter := hrest.negative
        ⟨w.visited ++ (list w.seen).1.map Prod.fst, w.depth, (list w.seen).2⟩ j
      simp only [hlength] at hafter
      rw [← Nat.add_assoc] at hneg
      obtain ⟨ret, hret, seen, hlevel, hvisit⟩ := hafter hlater hneg
      refine ⟨ret, hret, seen, ?_, ?_⟩
      · rw [levelOf_append_right, ← Nat.add_assoc]
        exact hlevel
      · rw [hfirst.allZero w hzero, Option.bind_some, if_pos rfl, hvisit, levelOf_append_right,
          Nat.add_assoc, List.take_length_add_append]
        simp

/-- Visits one after the other report their listings one behind the other. -/
theorem reports_visitAll {visit : β → Visit α σ} {list : β → Listing α σ} {entries : List β}
    (h : ∀ e ∈ entries, Reports op (visit e) (list e)) :
    Reports op (visitAll visit entries) (listAll list entries) := by
  induction entries with
  | nil =>
      exact ⟨fun w _ => by simp [visitAll, listAll], fun w k hk => absurd hk.lt (Nat.not_lt_zero k)⟩
  | cons e entries ih =>
      exact reports_cons (h e (by simp)) (ih fun e he => h e (by simp [he]))

/-- A visit one level below: negative results become one value. -/
theorem reports_below {visit : Visit α σ} {list : Listing α σ} (h : Reports op visit list) :
    Reports op
      (fun w => (visit { w with depth := w.depth + 1 }).bind fun r =>
        if r.1 < 0 then some (-1, r.2) else some (0, { r.2 with depth := r.2.depth - 1 }))
      list.below := by
  constructor
  · intro w hzero
    rw [Listing.below, List.length_map] at hzero
    rw [h.allZero { w with depth := w.depth + 1 } hzero, Option.bind_some, if_neg (by simp)]
    simp [Listing.below, Function.comp_def]
  · intro w k hstop hneg
    rw [Listing.below, List.length_map] at hstop
    obtain ⟨ret, hret, seen, -, hvisit⟩ := h.negative { w with depth := w.depth + 1 } k hstop hneg
    have hlevel := levelOf_map_succ hstop.lt
    refine ⟨-1, by decide, seen, fun hzero => ?_, ?_⟩
    · rw [Listing.below, hlevel] at hzero
      exact absurd hzero (Nat.succ_ne_zero _)
    · rw [hvisit, Option.bind_some, if_pos hret]
      simp only [Listing.below, hlevel]
      rw [List.map_take, List.map_take, List.map_map, Nat.add_assoc, Nat.add_comm 1]
      rfl

/-- Listings that do not depend on what was seen. -/
theorem listAll_const (places : β → List (α × Nat)) (entries : List β) :
    (listAll (fun e seen => (places e, seen)) entries : Listing α σ) =
      fun seen => (entries.flatMap places, seen) := by
  funext seen
  induction entries generalizing seen with
  | nil => rfl
  | cons e entries ih => rw [listAll, ih, List.flatMap_cons]

end Rules

end XHDF5.Math
