/-
# Doubly linked lists in memory

The nodes of a list are linked in both directions, and a head and a tail point to its ends. A
segment says which nodes lie in memory between two neighbours; the operations change a few links of
neighbouring segments and leave the rest as it is.

A pointer is absent for NULL. Following NULL, or a pointer to no node, has no defined result.
-/

import Mathlib.Data.List.Basic
import Mathlib.Data.List.Induction
import Mathlib.Logic.Function.Basic

namespace XHDF5.Math

variable {α : Type*}

/-- A node with its neighbours. -/
structure Node (α : Type*) where
  value : α
  prev : Option Nat
  next : Option Nat

/-- The memory with the nodes, and the ends of the list. -/
structure LinkedList (α : Type*) where
  mem : Nat → Option (Node α)
  head : Option Nat
  tail : Option Nat

namespace LinkedList

/-- No nodes. -/
def empty : LinkedList α := ⟨fun _ => none, none, none⟩

/-! ## Operations -/

/-- Write a node through a pointer. -/
def modify (l : LinkedList α) (pointer : Option Nat) (change : Node α → Node α) :
    Option (LinkedList α) :=
  pointer.bind fun a =>
    (l.mem a).map fun node => { l with mem := Function.update l.mem a (some (change node)) }

/-- `if (p) p->next = value`. -/
def setNext (l : LinkedList α) (p value : Option Nat) : Option (LinkedList α) :=
  if p = none then some l else l.modify p fun node => { node with next := value }

/-- `if (p) p->prev = value`. -/
def setPrev (l : LinkedList α) (p value : Option Nat) : Option (LinkedList α) :=
  if p = none then some l else l.modify p fun node => { node with prev := value }

/-- Make the neighbours of a node point to each other. -/
def detach (l : LinkedList α) (a : Nat) : Option (LinkedList α) :=
  (l.mem a).bind fun node => (l.setNext node.prev node.next).bind fun l =>
    (l.mem a).bind fun node => l.setPrev node.next node.prev

/-- Make a node the first one. -/
def pushFront (l : LinkedList α) (a : Nat) : Option (LinkedList α) :=
  (l.modify (some a) fun node => { node with next := l.head, prev := none }).bind fun l =>
    (l.setPrev l.head (some a)).map fun l =>
      { l with head := some a, tail := if l.tail = none then some a else l.tail }

/-- Give the memory of a node back. -/
def free (l : LinkedList α) (a : Nat) : LinkedList α :=
  { l with mem := Function.update l.mem a none }

/-- Bring a new node into memory. -/
def malloc (l : LinkedList α) (a : Nat) (value : α) : LinkedList α :=
  { l with mem := Function.update l.mem a (some ⟨value, none, none⟩) }

end LinkedList

/-! ## Segments -/

/-- The first node of some nodes, or what comes behind them. -/
def firstOr (cells : List (Nat × α)) (next : Option Nat) : Option Nat :=
  match cells with
  | [] => next
  | cell :: _ => some cell.1

/-- The nodes lie in memory between two neighbours. -/
def Segment (mem : Nat → Option (Node α)) : Option Nat → List (Nat × α) → Option Nat → Prop
  | _, [], _ => True
  | prev, cell :: cells, next =>
      mem cell.1 = some ⟨cell.2, prev, firstOr cells next⟩ ∧ Segment mem (some cell.1) cells next

/-- The last node of some nodes, or what comes before them. -/
def lastOr (prev : Option Nat) (cells : List (Nat × α)) : Option Nat :=
  match cells with
  | [] => prev
  | cell :: cells => lastOr (some cell.1) cells

@[simp] theorem firstOr_nil (next : Option Nat) : firstOr ([] : List (Nat × α)) next = next := rfl

@[simp]
theorem firstOr_cons (cell : Nat × α) (cells : List (Nat × α)) (next : Option Nat) :
    firstOr (cell :: cells) next = some cell.1 := rfl

@[simp] theorem lastOr_nil (prev : Option Nat) : lastOr prev ([] : List (Nat × α)) = prev := rfl

@[simp]
theorem lastOr_cons (cell : Nat × α) (cells : List (Nat × α)) (prev : Option Nat) :
    lastOr prev (cell :: cells) = lastOr (some cell.1) cells := rfl

theorem firstOr_append (xs ys : List (Nat × α)) (next : Option Nat) :
    firstOr (xs ++ ys) next = firstOr xs (firstOr ys next) := by
  cases xs <;> rfl

theorem lastOr_append (prev : Option Nat) (xs ys : List (Nat × α)) :
    lastOr prev (xs ++ ys) = lastOr (lastOr prev xs) ys := by
  induction xs generalizing prev with
  | nil => rfl
  | cons cell xs ih => exact ih (some cell.1)

theorem lastOr_eq_none_iff {cells : List (Nat × α)} : lastOr none cells = none ↔ cells = [] := by
  cases cells with
  | nil => exact iff_of_true rfl rfl
  | cons cell cells =>
      refine iff_of_false ?_ (List.cons_ne_nil _ _)
      rw [lastOr_cons]
      induction cells generalizing cell with
      | nil => exact Option.some_ne_none _
      | cons next cells ih => exact ih next

section Segments

variable {mem changed : Nat → Option (Node α)} {prev next : Option Nat} {cells xs ys : List (Nat × α)}

theorem segment_append : Segment mem prev (xs ++ ys) next ↔
    Segment mem prev xs (firstOr ys next) ∧ Segment mem (lastOr prev xs) ys next := by
  induction xs generalizing prev with
  | nil => exact (iff_of_eq (true_and _)).symm
  | cons cell xs ih =>
      rw [List.cons_append, Segment, Segment, ih, firstOr_append, lastOr_cons, and_assoc]

/-- A segment depends on the memory of its own nodes only. -/
theorem Segment.frame (h : Segment mem prev cells next)
    (hsame : ∀ cell ∈ cells, changed cell.1 = mem cell.1) : Segment changed prev cells next := by
  induction cells generalizing prev with
  | nil => trivial
  | cons cell cells ih =>
      exact ⟨(hsame cell (by simp)).trans h.1, ih h.2 fun other hother => hsame other (by simp [hother])⟩

theorem Segment.update (h : Segment mem prev cells next) {a : Nat} (ha : a ∉ cells.map Prod.fst)
    (node : Option (Node α)) : Segment (Function.update mem a node) prev cells next := by
  apply h.frame
  intro cell hcell
  apply Function.update_of_ne
  rintro rfl
  exact ha (List.mem_map_of_mem hcell)

theorem Segment.mem_ne_none (h : Segment mem prev cells next) {a : Nat}
    (ha : a ∈ cells.map Prod.fst) : mem a ≠ none := by
  induction cells generalizing prev with
  | nil => cases ha
  | cons cell cells ih =>
      rcases List.mem_cons.mp ha with rfl | ha
      · rw [h.1]
        exact Option.some_ne_none _
      · exact ih h.2 ha

/-- Link the last node of a segment to another next one. -/
theorem Segment.setNext {cell : Nat × α} (h : Segment mem prev (xs ++ [cell]) next)
    (hnodup : ((xs ++ [cell]).map Prod.fst).Nodup) (value : Option Nat) :
    ∃ node, mem cell.1 = some node ∧
      Segment (Function.update mem cell.1 (some { node with next := value })) prev (xs ++ [cell])
        value := by
  obtain ⟨hxs, hcell, -⟩ := segment_append.mp h
  refine ⟨_, hcell, segment_append.mpr ⟨?_, ?_, trivial⟩⟩
  · apply hxs.update
    rw [List.map_append, List.nodup_append] at hnodup
    intro hmem
    exact hnodup.2.2 _ hmem cell.1 (by simp) rfl
  · exact Function.update_self _ _ _

/-- Link the first node of a segment to another previous one. -/
theorem Segment.setPrev {cell : Nat × α} (h : Segment mem prev (cell :: xs) next)
    (hnodup : ((cell :: xs).map Prod.fst).Nodup) (value : Option Nat) :
    ∃ node, mem cell.1 = some node ∧
      Segment (Function.update mem cell.1 (some { node with prev := value })) value (cell :: xs)
        next := by
  refine ⟨_, h.1, Function.update_self _ _ _, h.2.update ?_ _⟩
  rw [List.map_cons, List.nodup_cons] at hnodup
  exact hnodup.1

/-- The nodes that follow each other from a pointer to NULL. -/
theorem Segment.unique (h : Segment mem prev xs none) (h' : Segment mem prev ys none)
    (hfirst : firstOr xs none = firstOr ys none) : xs = ys := by
  induction xs generalizing prev ys with
  | nil =>
      cases ys with
      | nil => rfl
      | cons cell ys => cases hfirst
  | cons cell xs ih =>
      cases ys with
      | nil => cases hfirst
      | cons other ys =>
          have hpointer : cell.1 = other.1 := Option.some.inj hfirst
          have hnode := h'.1
          rw [← hpointer, h.1] at hnode
          obtain ⟨hvalue, -, hnext⟩ := Node.mk.inj (Option.some.inj hnode)
          have hrest := h'.2
          rw [← hpointer] at hrest
          rw [ih h.2 hrest hnext, Prod.ext hpointer hvalue]

end Segments

/-! ## What the operations do -/

namespace LinkedList

/-- The list consists of the nodes, in both directions. -/
structure Represents (l : LinkedList α) (cells : List (Nat × α)) : Prop where
  segment : Segment l.mem none cells none
  head : l.head = firstOr cells none
  tail : l.tail = lastOr none cells
  nodup : (cells.map Prod.fst).Nodup

theorem represents_empty : (empty : LinkedList α).Represents [] :=
  ⟨trivial, rfl, rfl, List.nodup_nil⟩

variable {l : LinkedList α} {pre post cells others : List (Nat × α)} {a : Nat} {value : α}

/-- A list consists of one list of nodes only. -/
theorem Represents.unique (h : l.Represents cells) (h' : l.Represents others) : cells = others :=
  h.segment.unique h'.segment (h.head.symm.trans h'.head)

/-- The last node of a segment, if any, gets another next one. -/
theorem setNext_spec {next : Option Nat} (h : Segment l.mem none pre next)
    (hnodup : (pre.map Prod.fst).Nodup) (pointer : Option Nat) :
    ∃ mem, l.setNext (lastOr none pre) pointer = some { l with mem := mem } ∧
      Segment mem none pre pointer ∧ ∀ x, x ∉ pre.map Prod.fst → mem x = l.mem x := by
  cases pre using List.reverseRecOn with
  | nil => exact ⟨l.mem, rfl, trivial, fun _ _ => rfl⟩
  | append_singleton pre cell =>
      obtain ⟨node, hnode, hsegment⟩ := h.setNext hnodup pointer
      refine ⟨_, ?_, hsegment, fun x hx => ?_⟩
      · rw [setNext, lastOr_append, lastOr_cons, lastOr_nil, if_neg (Option.some_ne_none _), modify,
          Option.bind_some, hnode]
        rfl
      · apply Function.update_of_ne
        rintro rfl
        exact hx (by simp)

/-- The first node of a segment, if any, gets another previous one. -/
theorem setPrev_spec {prev : Option Nat} (h : Segment l.mem prev post none)
    (hnodup : (post.map Prod.fst).Nodup) (pointer : Option Nat) :
    ∃ mem, l.setPrev (firstOr post none) pointer = some { l with mem := mem } ∧
      Segment mem pointer post none ∧ ∀ x, x ∉ post.map Prod.fst → mem x = l.mem x := by
  cases post with
  | nil => exact ⟨l.mem, rfl, trivial, fun _ _ => rfl⟩
  | cons cell post =>
      obtain ⟨node, hnode, hsegment⟩ := h.setPrev hnodup pointer
      refine ⟨_, ?_, hsegment, fun x hx => ?_⟩
      · rw [setPrev, firstOr_cons, if_neg (Option.some_ne_none _), modify, Option.bind_some, hnode]
        rfl
      · apply Function.update_of_ne
        rintro rfl
        exact hx (by simp)

/-- Writing through pointers brings no node into memory. -/
theorem modify_none {l' : LinkedList α} {p : Option Nat} {change : Node α → Node α}
    (h : l.modify p change = some l') {x : Nat} (hx : l.mem x = none) : l'.mem x = none := by
  cases p with
  | none => cases h
  | some b =>
      rw [modify, Option.bind_some] at h
      obtain ⟨node, hnode, rfl⟩ := Option.map_eq_some_iff.mp h
      have hne : x ≠ b := by
        rintro rfl
        rw [hnode] at hx
        cases hx
      exact (Function.update_of_ne hne _ _).trans hx

theorem pushFront_none {l' : LinkedList α} (h : l.pushFront a = some l') {x : Nat}
    (hx : l.mem x = none) : l'.mem x = none := by
  rw [pushFront] at h
  obtain ⟨first, hfirst, h⟩ := Option.bind_eq_some_iff.mp h
  obtain ⟨second, hsecond, rfl⟩ := Option.map_eq_some_iff.mp h
  rw [setPrev] at hsecond
  split at hsecond
  · cases hsecond
    exact modify_none hfirst hx
  · exact modify_none hsecond (modify_none hfirst hx)

/-- Detaching a node links its neighbours and leaves its own links. -/
theorem detach_spec (h : Segment l.mem none (pre ++ (a, value) :: post) none)
    (hnodup : ((pre ++ (a, value) :: post).map Prod.fst).Nodup) :
    ∃ mem, l.detach a = some { l with mem := mem } ∧ Segment mem none (pre ++ post) none ∧
      mem a = some ⟨value, lastOr none pre, firstOr post none⟩ := by
  obtain ⟨hpre, ha, hpost⟩ := segment_append.mp h
  rw [List.map_append, List.map_cons, List.nodup_append, List.nodup_cons] at hnodup
  obtain ⟨hnodupPre, ⟨haPost, hnodupPost⟩, hdisjoint⟩ := hnodup
  have haPre : a ∉ pre.map Prod.fst := fun hmem => hdisjoint a hmem a (by simp) rfl
  obtain ⟨first, hfirst, hsegment, hsame⟩ := setNext_spec hpre hnodupPre (firstOr post none)
  have hpost' : Segment first (some a) post none := by
    apply hpost.frame
    intro cell hcell
    apply hsame
    intro hmem
    exact hdisjoint _ hmem cell.1 (List.mem_cons_of_mem _ (List.mem_map_of_mem hcell)) rfl
  obtain ⟨second, hsecond, hsegment', hsame'⟩ := setPrev_spec (l := { l with mem := first }) hpost'
    hnodupPost (lastOr none pre)
  have haFirst : first a = some ⟨value, lastOr none pre, firstOr post none⟩ := (hsame a haPre).trans ha
  refine ⟨second, ?_, segment_append.mpr ⟨?_, hsegment'⟩, (hsame' a haPost).trans haFirst⟩
  · rw [detach, ha]
    simp only [Option.bind_some, hfirst, haFirst, hsecond]
  · apply hsegment.frame
    intro cell hcell
    apply hsame'
    intro hmem
    exact hdisjoint cell.1 (List.mem_map_of_mem hcell) cell.1 (List.mem_cons_of_mem _ hmem) rfl

/-- A node outside a list becomes its first one. -/
theorem pushFront_spec (h : l.Represents cells) {node : Node α} (ha : l.mem a = some node)
    (hnew : a ∉ cells.map Prod.fst) :
    ∃ l', l.pushFront a = some l' ∧ l'.Represents ((a, node.value) :: cells) := by
  have hsegment : Segment (Function.update l.mem a (some { node with next := l.head, prev := none }))
      none cells none := h.segment.update hnew _
  obtain ⟨mem, hmem, hlinked, hsame⟩ := setPrev_spec
    (l := { l with mem := Function.update l.mem a (some { node with next := l.head, prev := none }) })
    hsegment h.nodup (some a)
  have hself : mem a = some { node with next := l.head, prev := none } :=
    (hsame a hnew).trans (Function.update_self _ _ _)
  refine ⟨⟨mem, some a, if l.tail = none then some a else l.tail⟩, ?_, ⟨?_, hlinked⟩, rfl, ?_, ?_⟩
  · rw [pushFront, modify, Option.bind_some, ha]
    simp only [Option.map_some, Option.bind_some]
    rw [← h.head] at hmem
    rw [hmem]
    rfl
  · exact hself.trans (by rw [h.head])
  · rw [h.tail, lastOr_cons]
    cases cells with
    | nil => rfl
    | cons cell cells => rw [if_neg fun hnone => List.cons_ne_nil _ _ (lastOr_eq_none_iff.mp hnone)]; rfl
  · rw [List.map_cons, List.nodup_cons]
    exact ⟨hnew, h.nodup⟩

end LinkedList

end XHDF5.Math
