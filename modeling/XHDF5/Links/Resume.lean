/-
# Stopping and resuming an iteration

A result other than zero ends an iteration and is what the operation gives back, the index says how
many entries were visited, and the static level is zero again. The operations give back zero for every
positive result and a negative one for every negative result; they leave the index where the iteration
stopped, or where it started.
-/

import XHDF5.Links.Traverse
import Mathlib.Data.List.Nodup

namespace XHDF5.Links

open XHDF5.Math

/-! ## Runs of an iteration -/

/-- The entries in the order that was asked for. -/
def IterOrder.ordered {β : Type*} (order : IterOrder) (table : List β) : List β :=
  match order with
  | .native | .inc => table
  | .dec => table.reverse

/-- The paths of the links below a group in the order of the visit, with their levels. -/
def linkPlaces (order : IterOrder) (path : Option Text) (table : List LinkEntry) :
    List (Text × Nat) :=
  (order.ordered table.attach).flatMap fun e =>
    (relPath path e.1.name, 0) ::
      (linkPlaces order (some (relPath path e.1.name)) e.1.subgroup).map fun place =>
        (place.1, place.2 + 1)
termination_by sizeOf table
decreasing_by
  have hmem := List.sizeOf_lt_of_mem e.2
  have hsub := e.1.sizeOf_subgroup
  omega

/-- The paths of the objects below a group, each object at its first hard link. -/
def objectPlaces (order : IterOrder) (path : Option Text) (table : List ObjectEntry) :
    Listing Text (List Text) :=
  listAll (fun e seen =>
    let here : List (Text × Nat) × List Text :=
      if e.1.isHard = true ∧ e.1.uri ∉ seen then ([(relPath path e.1.name, 0)], e.1.uri :: seen)
      else ([], seen)
    let below := (objectPlaces order (some (relPath path e.1.name)) e.1.subgroup).below here.2
    (here.1 ++ below.1, below.2)) (order.ordered table.attach)
termination_by sizeOf table
decreasing_by
  have hmem := List.sizeOf_lt_of_mem e.2
  have hsub := e.1.sizeOf_subgroup
  omega

/-- Runs one after the other, each from the index that the last one left: each visits what is left of
the entries up to its first result other than zero, gives back that result, and leaves the level at
zero. Without an index each run visits all entries. -/
def Resumed (run : Option Nat → (Nat → Int) → Option Run) (listing : List Text) :
    Nat → Option Nat → List (Nat → Int) → Prop
  | _, _, [] => True
  | pos, idx, op :: ops =>
      ∃ r, run idx op = some r ∧ r.visited = (uptoStop op 0 (listing.drop pos)).1 ∧
        r.ret = (uptoStop op 0 (listing.drop pos)).2 ∧ r.depth = 0 ∧
          Resumed run listing (if idx.isSome then pos + r.visited.length else 0) r.idx ops

/-- An iteration over a table. The visits have no index. -/
inductive Iteration
  | literate (order : IterOrder) (idx : Option Nat) (table : List LinkEntry)
  | lvisit (order : IterOrder) (table : List LinkEntry)
  | aiterate (order : IterOrder) (idx : Option Nat) (table : List Text)
  | ovisit (order : IterOrder) (table : List ObjectEntry)

namespace Iteration

/-- A table without recursion has no tables of subgroups, and the names in it are different. -/
def WellFormed : Iteration → Prop
  | literate _ _ table => (∀ e ∈ table, e.subgroup = []) ∧ (table.map LinkEntry.name).Nodup
  | aiterate _ _ table => table.Nodup
  | lvisit _ _ | ovisit _ _ => True

/-- Runs of an iteration with some results of the user's function, from the level zero on. -/
def Resumes (ops : List (Nat → Int)) : Iteration → Prop
  | literate order idx table =>
      Resumed (fun idx op => h5Literate order idx 0 op table)
        (order.ordered (table.map LinkEntry.name)) (idx.getD 0) idx ops
  | lvisit order table =>
      Resumed (fun _ op => h5Literate order none 0 op table)
        ((linkPlaces order none table).map Prod.fst) 0 none ops
  | aiterate order idx table =>
      Resumed (fun idx op => h5Aiterate order idx op table) (order.ordered table) (idx.getD 0) idx ops
  | ovisit order table =>
      Resumed (fun _ op => h5Ovisit order 0 op table)
        (['.'] :: (objectPlaces order none table []).1.map Prod.fst) 0 none ops

end Iteration

/-! ## When they resume -/

/-- No result is other than zero, or the first one is -1. -/
def Meets (op : Nat → Int) (count : Nat) : Prop :=
  AllZero op 0 count ∨ ∃ k, StopsAt op 0 count k ∧ op k = -1

/-- No result is other than zero, or the first one is -1 and that of an entry of the outermost
table. -/
def MeetsAtTop (op : Nat → Int) (places : List (Text × Nat)) : Prop :=
  AllZero op 0 places.length ∨
    ∃ k, StopsAt op 0 places.length k ∧ op k = -1 ∧ levelOf places k = 0

/-- Runs in decreasing order: one at most, from the middle of the table. -/
def MeetsBackwards (start count : Nat) : List (Nat → Int) → Prop
  | [] => True
  | op :: ops => ops = [] ∧ 2 * start + 1 = count ∧ Meets op (count - start)

/-- Runs over links in increasing order: the last one may end with -1, unless nothing is left. -/
def MeetsForwards (start count : Nat) : List (Nat → Int) → Prop
  | [] => True
  | op :: ops => AllZero op 0 (count - start) ∨ ops = [] ∧ Meets op (count - start)

/-- Runs over attributes in increasing order: one at most, unless nothing is left. -/
def MeetsOnce (start count : Nat) : List (Nat → Int) → Prop
  | [] => True
  | op :: ops => count ≤ start ∨ ops = [] ∧ Meets op (count - start)

/-- The runs in which an iteration does what is asked for. -/
def Iteration.Harmless (ops : List (Nat → Int)) : Iteration → Prop
  | literate order idx table =>
      match idx with
      | none => ∀ op ∈ ops, Meets op table.length
      | some start =>
          if order = .dec then table = [] ∨ MeetsBackwards start table.length ops
          else MeetsForwards start table.length ops
  | lvisit order table => ∀ op ∈ ops, MeetsAtTop op (linkPlaces order none table)
  | aiterate order idx table =>
      match idx with
      | none => ∀ op ∈ ops, Meets op table.length
      | some start =>
          if order = .dec then table = [] ∨ MeetsBackwards start table.length ops
          else MeetsOnce start table.length ops
  | ovisit order table =>
      ∀ op ∈ ops, op 0 ≠ 0 ∨ MeetsAtTop op ((['.'], 0) :: (objectPlaces order none table []).1)

/-! ## Loops -/

section Loops

variable {α β γ σ : Type*} {order : IterOrder} {idx : Option Nat} {op : Nat → Int}

theorem loopEntries_map (f : β → γ) (table : List β) :
    loopEntries order idx (table.map f) =
      (loopEntries order idx table).map fun entries => (entries.1.map (Prod.map f id), entries.2) := by
  cases order with
  | native | inc => simp only [loopEntries, List.zipIdx_map, List.map_drop, List.length_map, Option.map_some]
  | dec =>
      rw [loopEntries, loopEntries, List.length_map]
      split_ifs with hstart
      · simp only [List.zipIdx_map, List.map_take, List.map_reverse, Option.map_some]
      · rfl

theorem runLoop_map (f : β → γ) (visit : γ → Visit α σ) (last : Nat) (entries : List (β × Nat))
    (w : Walk α σ) : runLoop visit last (entries.map (Prod.map f id)) w =
      runLoop (fun e => visit (f e)) last entries w := by
  induction entries generalizing w with
  | nil => rfl
  | cons e entries ih =>
      simp only [List.map_cons, runLoop, ih, Prod.map_fst, Prod.map_snd, id_eq]

/-- The loop without the index. -/
theorem runLoop_visitAll (visit : β → Visit α σ) (last : Nat) (entries : List (β × Nat))
    (w : Walk α σ) : (runLoop visit last entries w).map (fun x => (x.ret, x.walk)) =
      visitAll visit (entries.map Prod.fst) w := by
  induction entries generalizing w with
  | nil => rfl
  | cons e entries ih =>
      rw [List.map_cons, visitAll, runLoop]
      cases visit e.1 w with
      | none => rfl
      | some r =>
          rw [Option.bind_some, Option.bind_some]
          split_ifs
          · exact ih r.2
          · rfl

/-- Without an index the loop comes to all entries in the order that was asked for. -/
theorem loopEntries_none {table : List β} (h : table ≠ []) :
    ∃ entries last, loopEntries order none table = some (entries, last) ∧
      entries.map Prod.fst = order.ordered table := by
  have hpos : 0 < table.length := List.length_pos_iff.mpr h
  cases order with
  | native | inc =>
      refine ⟨_, _, rfl, ?_⟩
      rw [Option.getD_none, List.drop_zero, List.zipIdx_map_fst]
      rfl
  | dec =>
      refine ⟨_, _, if_pos (by rw [Option.getD_none]; omega), ?_⟩
      rw [Option.getD_none, Nat.sub_add_cancel hpos, List.map_reverse, List.map_take,
        List.zipIdx_map_fst, List.take_length]
      rfl

end Loops

/-! ## Recursion -/

section Recursion

variable {order : IterOrder} {idx : Option Nat} {op : Nat → Int} {path : Option Text}

theorem ordered_map {β γ : Type*} (order : IterOrder) (f : β → γ) (table : List β) :
    order.ordered (table.map f) = (order.ordered table).map f := by
  cases order with
  | native | inc => rfl
  | dec => exact List.map_reverse.symm

theorem length_ordered {β : Type*} (order : IterOrder) (table : List β) :
    (order.ordered table).length = table.length := by
  cases order with
  | native | inc => rfl
  | dec => exact List.length_reverse

theorem mem_ordered {β : Type*} {table : List β} {e : β} : e ∈ order.ordered table ↔ e ∈ table := by
  cases order with
  | native | inc => exact Iff.rfl
  | dec => exact List.mem_reverse

/-- The body of the loop over links. -/
def visitLink (order : IterOrder) (idx : Option Nat) (op : Nat → Int) (path : Option Text)
    (e : LinkEntry) : Visit Text Unit := fun w =>
  (callOp op (relPath path e.name) w).bind fun r =>
    if r.1 = 0 then
      if e.subgroup = [] then some r
      else descend (rvTraverseLinkTable order idx op (some (relPath path e.name)) e.subgroup) r.2
    else some r

theorem rvTraverseLinkTable_eq (table : List LinkEntry) (w : Walk Text Unit) :
    rvTraverseLinkTable order idx op path table w =
      (loopEntries order idx table).bind fun entries =>
        runLoop (visitLink order idx op path) entries.2 entries.1 w := by
  conv_rhs => rw [← List.attach_map_subtype_val table, loopEntries_map]
  rw [rvTraverseLinkTable]
  cases loopEntries order idx table.attach with
  | none => rfl
  | some entries =>
      rw [Option.map_some, Option.bind_some, Option.bind_some, runLoop_map]
      rfl

theorem linkPlaces_eq (table : List LinkEntry) :
    linkPlaces order path table = (order.ordered table).flatMap fun e =>
      (relPath path e.name, 0) ::
        (linkPlaces order (some (relPath path e.name)) e.subgroup).map fun place =>
          (place.1, place.2 + 1) := by
  conv_rhs => rw [← List.attach_map_subtype_val table, ordered_map, List.flatMap_map]
  rw [linkPlaces]

/-- The body of the loop over objects. -/
def visitObject (order : IterOrder) (op : Nat → Int) (path : Option Text) (e : ObjectEntry) :
    Visit Text (List Text) := fun w =>
  (callObject op (relPath path e.name) e.isHard e.uri w).bind fun r =>
    if r.1 = 0 then
      if e.subgroup = [] then some r
      else descend (rvTraverseObjectTable order op (some (relPath path e.name)) e.subgroup) r.2
    else some r

theorem rvTraverseObjectTable_eq (table : List ObjectEntry) (w : Walk Text (List Text)) :
    rvTraverseObjectTable order op path table w =
      (loopEntries order none table).bind fun entries =>
        runLoop (visitObject order op path) entries.2 entries.1 w := by
  conv_rhs => rw [← List.attach_map_subtype_val table, loopEntries_map]
  rw [rvTraverseObjectTable]
  cases loopEntries order none table.attach with
  | none => rfl
  | some entries =>
      rw [Option.map_some, Option.bind_some, Option.bind_some, runLoop_map]
      rfl

/-- The place of an object that is not seen yet. -/
def objectHere (path : Text) (isHard : Bool) (uri : Text) : Listing Text (List Text) := fun seen =>
  if isHard = true ∧ uri ∉ seen then ([(path, 0)], uri :: seen) else ([], seen)

/-- The places of an entry, and those below. -/
def objectEntryPlaces (order : IterOrder) (path : Option Text) (e : ObjectEntry) :
    Listing Text (List Text) := fun seen =>
  let here := objectHere (relPath path e.name) e.isHard e.uri seen
  let below := (objectPlaces order (some (relPath path e.name)) e.subgroup).below here.2
  (here.1 ++ below.1, below.2)

theorem listAll_map {α β γ σ : Type*} (f : β → γ) (list : γ → Listing α σ) (entries : List β) :
    listAll list (entries.map f) = listAll (fun e => list (f e)) entries := by
  funext seen
  induction entries generalizing seen with
  | nil => rfl
  | cons e entries ih => simp only [List.map_cons, listAll, ih]

theorem objectPlaces_eq (table : List ObjectEntry) :
    objectPlaces order path table = listAll (objectEntryPlaces order path) (order.ordered table) := by
  conv_rhs => rw [← List.attach_map_subtype_val table, ordered_map, listAll_map]
  rw [objectPlaces]
  rfl

theorem reports_callOp {σ : Type*} (path : Text) :
    Reports op (callOp op path : Visit Text σ) fun seen => ([(path, 0)], seen) := by
  constructor
  · intro w hzero
    rw [callOp, ← Nat.add_zero w.visited.length, hzero 0 Nat.one_pos]
    rfl
  · intro w k hstop hneg
    have hk : k = 0 := Nat.lt_one_iff.mp hstop.lt
    subst hk
    exact ⟨_, hneg, w.seen, fun _ => rfl, rfl⟩

theorem reports_callObject (path : Text) (isHard : Bool) (uri : Text) :
    Reports op (callObject op path isHard uri) (objectHere path isHard uri) := by
  constructor
  · intro w hzero
    rw [callObject]
    rw [objectHere] at hzero ⊢
    split_ifs at hzero ⊢ with hnew
    · rw [(reports_callOp path).allZero w hzero]
      rfl
    · simp
  · intro w k hstop hneg
    rw [callObject]
    rw [objectHere] at hstop ⊢
    split_ifs at hstop ⊢ with hnew
    · obtain ⟨ret, hret, seen, hlevel, hvisit⟩ := (reports_callOp path).negative w k hstop hneg
      refine ⟨ret, hret, seen, hlevel, ?_⟩
      rw [hvisit, Option.map_some, if_neg (by simp only; omega)]
    · exact absurd hstop.lt (Nat.not_lt_zero k)

/-- A traversal without the index. -/
def walkOf {σ : Type*} (traverse : Walk Text σ → Option (Exit Text σ)) : Visit Text σ := fun w =>
  (traverse w).map fun x => (x.ret, x.walk)

theorem reports_descend {σ : Type*} {traverse : Walk Text σ → Option (Exit Text σ)}
    {list : Listing Text σ} (h : Reports op (walkOf traverse) list) :
    Reports op (descend traverse) list.below := by
  have hdescend : descend traverse = fun w =>
      (walkOf traverse { w with depth := w.depth + 1 }).bind fun r =>
        if r.1 < 0 then some (-1, r.2) else some (0, { r.2 with depth := r.2.depth - 1 }) := by
    funext w
    rw [descend, walkOf]
    cases traverse { w with depth := w.depth + 1 } <;> rfl
  rw [hdescend]
  exact reports_below h

/-- A call and a descent, unless there is no table below. -/
theorem reports_entry {σ : Type*} {first : Visit Text σ} {list : Listing Text σ}
    (hfirst : Reports op first list) {β : Type*} {subgroup : List β}
    {traverse : Walk Text σ → Option (Exit Text σ)} {below : Listing Text σ}
    (hempty : subgroup = [] → below = fun seen => ([], seen))
    (h : subgroup ≠ [] → Reports op (walkOf traverse) below) :
    Reports op
      (fun w => (first w).bind fun r =>
        if r.1 = 0 then if subgroup = [] then some r else descend traverse r.2 else some r)
      fun seen => ((list seen).1 ++ (below.below (list seen).2).1, (below.below (list seen).2).2) := by
  by_cases hsub : subgroup = []
  · have hsame : (fun w => (first w).bind fun r =>
        if r.1 = 0 then if subgroup = [] then some r else descend traverse r.2 else some r) = first := by
      funext w
      cases first w with
      | none => rfl
      | some r => simp [hsub]
    rw [hsame, hempty hsub]
    simpa [Listing.below] using hfirst
  · have hsame : (fun w => (first w).bind fun r =>
        if r.1 = 0 then if subgroup = [] then some r else descend traverse r.2 else some r) =
          fun w => (first w).bind fun r => if r.1 = 0 then descend traverse r.2 else some r := by
      simp only [if_neg hsub]
    rw [hsame]
    exact reports_cons hfirst (reports_descend (h hsub))

theorem walkOf_loop {β σ : Type*} {table : List β} (htable : table ≠ []) {visit : β → Visit Text σ}
    {list : β → Listing Text σ} (h : ∀ e ∈ table, Reports op (visit e) (list e)) :
    Reports op
      (walkOf fun w => (loopEntries order none table).bind fun entries =>
        runLoop visit entries.2 entries.1 w) (listAll list (order.ordered table)) := by
  obtain ⟨entries, last, hentries, hordered⟩ := @loopEntries_none _ order _ htable
  have hwalk : (walkOf fun w => (loopEntries order none table).bind fun entries =>
      runLoop visit entries.2 entries.1 w) = visitAll visit (order.ordered table) := by
    funext w
    rw [walkOf, hentries, Option.bind_some, runLoop_visitAll, hordered]
  rw [hwalk]
  exact reports_visitAll fun e he => h e (mem_ordered.mp he)

/-- The traversal of a table of links reports the links in order, with their paths. -/
theorem reports_linkTable (op : Nat → Int) (path : Option Text) (table : List LinkEntry)
    (htable : table ≠ []) :
    Reports op (walkOf (rvTraverseLinkTable order none op path table))
      fun seen => (linkPlaces order path table, seen) := by
  have hentry : ∀ e ∈ table, Reports op (visitLink order none op path e) fun seen =>
      ((relPath path e.name, 0) ::
        (linkPlaces order (some (relPath path e.name)) e.subgroup).map fun place =>
          (place.1, place.2 + 1), seen) := by
    intro e he
    have hmem := List.sizeOf_lt_of_mem he
    have hsub := e.sizeOf_subgroup
    exact reports_entry (reports_callOp (relPath path e.name))
      (fun hnil => by rw [hnil, linkPlaces_eq]; cases order <;> rfl)
      (reports_linkTable op (some (relPath path e.name)) e.subgroup)
  have hloop := @walkOf_loop order _ _ _ _ htable _ _ hentry
  rw [listAll_const, ← linkPlaces_eq] at hloop
  have hsame : walkOf (rvTraverseLinkTable order none op path table) =
      walkOf fun w => (loopEntries order none table).bind fun entries =>
        runLoop (visitLink order none op path) entries.2 entries.1 w := by
    funext w
    rw [walkOf, walkOf, rvTraverseLinkTable_eq]
  rw [hsame]
  exact hloop
termination_by sizeOf table

/-- The traversal of a table of objects reports each object at its first hard link. -/
theorem reports_objectTable (op : Nat → Int) (path : Option Text) (table : List ObjectEntry)
    (htable : table ≠ []) :
    Reports op (walkOf (rvTraverseObjectTable order op path table)) (objectPlaces order path table) := by
  have hentry : ∀ e ∈ table,
      Reports op (visitObject order op path e) (objectEntryPlaces order path e) := by
    intro e he
    have hmem := List.sizeOf_lt_of_mem he
    have hsub := e.sizeOf_subgroup
    exact reports_entry (reports_callObject (relPath path e.name) e.isHard e.uri)
      (fun hnil => by rw [hnil, objectPlaces_eq]; cases order <;> rfl)
      (reports_objectTable op (some (relPath path e.name)) e.subgroup)
  have hsame : walkOf (rvTraverseObjectTable order op path table) =
      walkOf fun w => (loopEntries order none table).bind fun entries =>
        runLoop (visitObject order op path) entries.2 entries.1 w := by
    funext w
    rw [walkOf, walkOf, rvTraverseObjectTable_eq]
  rw [hsame, objectPlaces_eq]
  exact walkOf_loop htable hentry
termination_by sizeOf table

end Recursion

/-! ## Visits -/

section Visits

variable {order : IterOrder} {op : Nat → Int}

theorem herr_eq_self_iff {ret : Int} : herr ret = ret ↔ ret = 0 ∨ ret = -1 := by
  rw [herr]
  split_ifs <;> omega

/-- What a visit from the level zero gives back is what was asked for exactly when no result stops it
other than a -1 of the outermost table. -/
theorem visit_iff {σ : Type*} {visit : Visit Text σ} {list : Listing Text σ} (h : Reports op visit list)
    {before : List Text} {seen : σ} {places : List (Text × Nat)} (hplaces : (list seen).1 = places) :
    (∃ r, visit ⟨before, 0, seen⟩ = some r ∧
        r.2.visited = before ++ (uptoStop op before.length (places.map Prod.fst)).1 ∧
          herr r.1 = (uptoStop op before.length (places.map Prod.fst)).2 ∧ r.2.depth = 0) ↔
      AllZero op before.length places.length ∨
        ∃ k, StopsAt op before.length places.length k ∧ op (before.length + k) = -1 ∧
          levelOf places k = 0 := by
  subst hplaces
  have hlength : ((list seen).1.map Prod.fst).length = (list seen).1.length := List.length_map _
  rcases allZero_or_stopsAt op before.length (list seen).1.length with hzero | ⟨k, hstop⟩
  · refine iff_of_true ⟨_, h.allZero ⟨before, 0, seen⟩ hzero, ?_⟩ (.inl hzero)
    rw [uptoStop_allZero (by rw [hlength]; exact hzero)]
    exact ⟨rfl, rfl, rfl⟩
  · have hupto := @uptoStop_stopsAt _ _ _ _ ((list seen).1.map Prod.fst)
      (by rw [hlength]; exact hstop)
    rw [hupto]
    constructor
    · rintro ⟨r, hr, -, hret, hdepth⟩
      have hnegative : op (before.length + k) = -1 := by
        have hherr := @herr_eq_self_iff (op (before.length + k))
        have hne := hstop.ne_zero
        have hsmall : herr r.1 = 0 ∨ herr r.1 = -1 := by
          rw [herr]
          split_ifs
          · exact .inr rfl
          · exact .inl rfl
        omega
      obtain ⟨ret, -, seen', -, hvisit⟩ :=
        h.negative ⟨before, 0, seen⟩ k hstop (by simp only; omega)
      rw [hr] at hvisit
      rw [Option.some.inj hvisit, Nat.zero_add] at hdepth
      exact .inr ⟨k, hstop, hnegative, hdepth⟩
    · rintro (hzero | ⟨j, hj, hop, hlevel⟩)
      · exact absurd (hzero k hstop.lt) hstop.ne_zero
      · have hsame : j = k := by
          rcases Nat.lt_trichotomy j k with hlt | heq | hlt
          · exact absurd (hstop.before j hlt) hj.ne_zero
          · exact heq
          · exact absurd (hj.before k hlt) hstop.ne_zero
        subst hsame
        obtain ⟨ret, hret, seen', htop, hvisit⟩ :=
          h.negative ⟨before, 0, seen⟩ j hstop (by simp only; omega)
        refine ⟨_, hvisit, ?_, ?_, ?_⟩
        · simp [List.map_take]
        · simp only
          rw [herr, if_pos hret, hop]
        · simp only [hlevel]

/-- Runs without an index are resumed when each of them is. -/
theorem resumed_none_iff {run : Option Nat → (Nat → Int) → Option Run} {listing : List Text}
    {meets : (Nat → Int) → Prop}
    (hidx : ∀ op r, run none op = some r → r.idx = none)
    (h : ∀ op, (∃ r, run none op = some r ∧ r.visited = (uptoStop op 0 listing).1 ∧
      r.ret = (uptoStop op 0 listing).2 ∧ r.depth = 0) ↔ meets op) (ops : List (Nat → Int)) :
    Resumed run listing 0 none ops ↔ ∀ op ∈ ops, meets op := by
  induction ops with
  | nil => exact iff_of_true trivial nofun
  | cons op ops ih =>
      rw [Resumed, List.forall_mem_cons, ← h op, ← ih, List.drop_zero]
      constructor
      · rintro ⟨r, hr, hvisited, hret, hdepth, hrest⟩
        rw [hidx op r hr] at hrest
        exact ⟨⟨r, hr, hvisited, hret, hdepth⟩, hrest⟩
      · rintro ⟨⟨r, hr, hvisited, hret, hdepth⟩, hrest⟩
        refine ⟨r, hr, hvisited, hret, hdepth, ?_⟩
        rw [hidx op r hr]
        exact hrest

theorem h5Literate_none_iff (table : List LinkEntry) :
    (∃ r, h5Literate order none 0 op table = some r ∧
      r.visited = (uptoStop op 0 ((linkPlaces order none table).map Prod.fst)).1 ∧
        r.ret = (uptoStop op 0 ((linkPlaces order none table).map Prod.fst)).2 ∧ r.depth = 0) ↔
      MeetsAtTop op (linkPlaces order none table) := by
  by_cases htable : table = []
  · have hnone : linkPlaces order none table = [] := by
      rw [htable, linkPlaces_eq]
      cases order <;> rfl
    rw [h5Literate, if_pos htable, hnone]
    exact iff_of_true ⟨_, rfl, rfl, rfl, rfl⟩ (.inl nofun)
  · have hvisit := @visit_iff _ _ _ _ (@reports_linkTable order op none table htable)
      [] () _ rfl
    simp only [List.length_nil, List.nil_append, Nat.zero_add] at hvisit
    rw [MeetsAtTop, ← hvisit, h5Literate, if_neg htable, walkOf]
    cases rvTraverseLinkTable order none op none table ⟨[], 0, ()⟩ with
    | none => simp
    | some x => simp

theorem h5Ovisit_iff (table : List ObjectEntry) :
    (∃ r, h5Ovisit order 0 op table = some r ∧
      r.visited = (uptoStop op 0 (['.'] :: (objectPlaces order none table []).1.map Prod.fst)).1 ∧
        r.ret = (uptoStop op 0 (['.'] :: (objectPlaces order none table []).1.map Prod.fst)).2 ∧
          r.depth = 0) ↔
      op 0 ≠ 0 ∨ MeetsAtTop op ((['.'], 0) :: (objectPlaces order none table []).1) := by
  by_cases hself : op 0 ≠ 0
  · rw [h5Ovisit, if_pos hself, uptoStop, if_neg hself]
    exact iff_of_true ⟨_, rfl, rfl, rfl, rfl⟩ (.inl hself)
  · have hzero : op 0 = 0 := not_not.mp hself
    have hmeets (places : List (Text × Nat)) : MeetsAtTop op ((['.'], 0) :: places) ↔
        AllZero op 1 places.length ∨
          ∃ k, StopsAt op 1 places.length k ∧ op (1 + k) = -1 ∧ levelOf places k = 0 := by
      rw [MeetsAtTop, List.length_cons, Nat.add_comm]
      constructor
      · rintro (hall | ⟨k, hstop, hop, hlevel⟩)
        · exact .inl hall.append.2
        · rcases hstop.append with hfirst | ⟨-, j, rfl, hlater⟩
          · have hk : k = 0 := Nat.lt_one_iff.mp hfirst.lt
            subst hk
            exact absurd hzero (by simpa using hfirst.ne_zero)
          · refine .inr ⟨j, hlater, hop, ?_⟩
            rw [Nat.add_comm] at hlevel
            exact hlevel
      · rintro (hall | ⟨k, hstop, hop, hlevel⟩)
        · refine .inl fun k hk => ?_
          cases k with
          | zero => exact hzero
          | succ k => rw [Nat.zero_add, Nat.add_comm]; exact hall k (by omega)
        · refine .inr ⟨k + 1, ⟨by have := hstop.lt; omega, fun j hj => ?_, ?_⟩, ?_, hlevel⟩
          · cases j with
            | zero => exact hzero
            | succ j => rw [Nat.zero_add, Nat.add_comm]; exact hstop.before j (by omega)
          · rw [Nat.zero_add, Nat.add_comm]
            exact hstop.ne_zero
          · rw [Nat.add_comm]
            exact hop
    rw [or_iff_right hself, hmeets, h5Ovisit, if_neg hself, uptoStop, if_pos hzero]
    by_cases htable : table = []
    · have hnone : (objectPlaces order none table []).1 = [] := by
        rw [htable, objectPlaces_eq]
        cases order <;> rfl
      rw [if_pos htable, hnone]
      exact iff_of_true ⟨_, rfl, rfl, rfl, rfl⟩ (.inl fun k hk => absurd hk (Nat.not_lt_zero k))
    · have hvisit := @visit_iff _ _ _ _ (@reports_objectTable order op none table htable)
        [['.']] [] _ rfl
      rw [if_neg htable]
      rw [List.length_singleton] at hvisit
      rw [← hvisit, walkOf]
      cases rvTraverseObjectTable order op none table ⟨[['.']], 0, []⟩ with
      | none => simp
      | some x => simp

end Visits

/-! ## Tables without recursion -/

/-- Runs over the names of a table: what a run comes to, and where it leaves the index. Only a run
that is not stopped moves it. -/
structure FlatRun (order : IterOrder) (names : List Text) (next : Nat → Nat)
    (run : Option Nat → (Nat → Int) → Option Run) : Prop where
  undefined : ∀ idx op, loopEntries order idx names = none → run idx op = none
  defined : ∀ idx op entries, loopEntries order idx names = some entries → ∃ r, run idx op = some r ∧
    r.visited = (uptoStop op 0 (entries.1.map Prod.fst)).1 ∧
      r.ret = herr (uptoStop op 0 (entries.1.map Prod.fst)).2 ∧ r.depth = 0
  moved : ∀ idx op entries r, loopEntries order idx names = some entries → run idx op = some r →
    (uptoStop op 0 (entries.1.map Prod.fst)).2 = 0 → r.idx = idx.map next
  stopped : ∀ idx op entries r, loopEntries order idx names = some entries → run idx op = some r →
    (uptoStop op 0 (entries.1.map Prod.fst)).2 < 0 → r.idx = idx
  unindexed : ∀ op r, run none op = some r → r.idx = none

section Flat

variable {order : IterOrder} {idx : Option Nat} {op : Nat → Int} {names : List Text}

theorem runLoop_callOp (last : Nat) (entries : List (Text × Nat)) (w : Walk Text Unit) :
    ∃ i, runLoop (callOp op) last entries w =
        some ⟨(uptoStop op w.visited.length (entries.map Prod.fst)).2, i,
          { w with visited := w.visited ++ (uptoStop op w.visited.length (entries.map Prod.fst)).1 }⟩ ∧
      ((uptoStop op w.visited.length (entries.map Prod.fst)).2 = 0 → i = last) := by
  induction entries generalizing w with
  | nil => exact ⟨last, by simp [runLoop, uptoStop], fun _ => rfl⟩
  | cons e entries ih =>
      rw [runLoop, callOp, Option.bind_some, List.map_cons, uptoStop]
      split_ifs with hzero
      · obtain ⟨i, hloop, hlast⟩ := ih { w with visited := w.visited ++ [e.1] }
        rw [List.length_append, List.length_singleton] at hloop hlast
        refine ⟨i, ?_, hlast⟩
        rw [hloop]
        simp
      · exact ⟨e.2, rfl, fun h => absurd h hzero⟩

/-- What a run leaves the index at when nothing stops it. -/
def lastIndex (order : IterOrder) (names : List Text) (start : Nat) : Nat :=
  match order with
  | .native | .inc => max start names.length
  | .dec => 0

theorem lastIndex_eq {start : Nat} {entries : List (Text × Nat) × Nat}
    (h : loopEntries order (some start) names = some entries) :
    entries.2 = lastIndex order names start := by
  cases order with
  | native | inc =>
      rw [← Option.some.inj h]
      rfl
  | dec =>
      rw [loopEntries] at h
      split_ifs at h
      rw [← Option.some.inj h]
      rfl

theorem rvTraverseLinkTable_flat {table : List LinkEntry} (hflat : ∀ e ∈ table, e.subgroup = [])
    (w : Walk Text Unit) : rvTraverseLinkTable order idx op none table w =
      rvTraverseAttrTable order idx op (table.map LinkEntry.name) w := by
  have hvisit (e : LinkEntry) (he : e.subgroup = []) :
      visitLink order idx op none e = callOp op e.name := by
    funext w
    simp only [visitLink, callOp, Option.bind_some, if_pos he, ite_self]
    rfl
  have hloop (last : Nat) (entries : List (LinkEntry × Nat))
      (h : ∀ e ∈ entries, e.1.subgroup = []) (w : Walk Text Unit) :
      runLoop (visitLink order idx op none) last entries w =
        runLoop (fun e => callOp op e.name) last entries w := by
    induction entries generalizing w with
    | nil => rfl
    | cons e entries ih =>
        simp only [runLoop, hvisit e.1 (h e (by simp)), ih fun e he => h e (by simp [he])]
  rw [rvTraverseLinkTable_eq, rvTraverseAttrTable, loopEntries_map]
  cases hentries : loopEntries order idx table with
  | none => rfl
  | some entries =>
      have hmem : ∀ e ∈ entries.1, e.1 ∈ table := by
        intro e he
        cases order with
        | native | inc =>
            rw [← Option.some.inj hentries] at he
            exact (List.mem_zipIdx' (List.mem_of_mem_drop he)).2 ▸ List.getElem_mem _
        | dec =>
            rw [loopEntries] at hentries
            split_ifs at hentries
            rw [← Option.some.inj hentries] at he
            exact (List.mem_zipIdx' (List.mem_of_mem_take (List.mem_reverse.mp he))).2 ▸
              List.getElem_mem _
      rw [Option.map_some, Option.bind_some, Option.bind_some, runLoop_map]
      exact hloop _ _ (fun e he => hflat _ (hmem e he)) w

theorem flatRun_literate {table : List LinkEntry} (htable : table ≠ [])
    (hflat : ∀ e ∈ table, e.subgroup = []) :
    FlatRun order (table.map LinkEntry.name) (lastIndex order (table.map LinkEntry.name))
      fun idx op => h5Literate order idx 0 op table := by
  have hrun (idx : Option Nat) (op : Nat → Int) : h5Literate order idx 0 op table =
      (rvTraverseAttrTable order idx op (table.map LinkEntry.name) ⟨[], 0, ()⟩).map fun x =>
        { ret := herr x.ret
          visited := x.walk.visited
          idx := idx.map fun start => if (0 : Int) ≤ x.ret ∧ x.walk.depth = 0 then x.lastIdx else start
          depth := x.walk.depth } := by
    rw [h5Literate, if_neg htable, rvTraverseLinkTable_flat hflat]
  have hdefined (idx : Option Nat) (op : Nat → Int) (entries : List (Text × Nat) × Nat)
      (h : loopEntries order idx (table.map LinkEntry.name) = some entries) :
      ∃ i, h5Literate order idx 0 op table =
          some ⟨herr (uptoStop op 0 (entries.1.map Prod.fst)).2,
            (uptoStop op 0 (entries.1.map Prod.fst)).1,
            idx.map fun start =>
              if 0 ≤ (uptoStop op 0 (entries.1.map Prod.fst)).2 ∧ 0 = 0 then i else start, 0⟩ ∧
        ((uptoStop op 0 (entries.1.map Prod.fst)).2 = 0 → i = entries.2) := by
    obtain ⟨i, hloop, hlast⟩ := @runLoop_callOp op entries.2 entries.1 ⟨[], 0, ()⟩
    refine ⟨i, ?_, hlast⟩
    rw [hrun, rvTraverseAttrTable, h, Option.bind_some, hloop]
    rfl
  constructor
  · intro idx op hnone
    simp only [hrun, rvTraverseAttrTable, hnone, Option.bind_none, Option.map_none]
  · intro idx op entries hentries
    obtain ⟨i, hliterate, -⟩ := hdefined idx op entries hentries
    exact ⟨_, hliterate, rfl, rfl, rfl⟩
  · intro idx op entries r hentries hr hzero
    obtain ⟨i, hliterate, hlast⟩ := hdefined idx op entries hentries
    rw [hliterate] at hr
    rw [← Option.some.inj hr]
    cases idx with
    | none => rfl
    | some start => simp [hzero, hlast hzero, lastIndex_eq hentries]
  · intro idx op entries r hentries hr hneg
    obtain ⟨i, hliterate, -⟩ := hdefined idx op entries hentries
    rw [hliterate] at hr
    rw [← Option.some.inj hr]
    simp [Int.not_le.mpr hneg]
  · intro op r hr
    rw [hrun] at hr
    obtain ⟨x, -, rfl⟩ := Option.map_eq_some_iff.mp hr
    rfl

theorem flatRun_aiterate (hnames : names ≠ []) :
    FlatRun order names id fun idx op => h5Aiterate order idx op names := by
  have hrun (idx : Option Nat) (op : Nat → Int) : h5Aiterate order idx op names =
      (rvTraverseAttrTable order idx op names ⟨[], 0, ()⟩).map fun x =>
        { ret := herr x.ret, visited := x.walk.visited, idx := idx, depth := 0 } := by
    rw [h5Aiterate, if_neg hnames]
  constructor
  · intro idx op hnone
    simp only [hrun, rvTraverseAttrTable, hnone, Option.bind_none, Option.map_none]
  · intro idx op entries hentries
    obtain ⟨i, hloop, -⟩ := @runLoop_callOp op entries.2 entries.1 ⟨[], 0, ()⟩
    simp only [hrun, rvTraverseAttrTable, hentries, Option.bind_some, hloop]
    exact ⟨_, rfl, rfl, rfl, rfl⟩
  · intro idx op entries r hentries hr hzero
    rw [hrun] at hr
    obtain ⟨x, -, rfl⟩ := Option.map_eq_some_iff.mp hr
    exact Option.map_id'.symm
  · intro idx op entries r hentries hr hneg
    rw [hrun] at hr
    obtain ⟨x, -, rfl⟩ := Option.map_eq_some_iff.mp hr
    rfl
  · intro op r hr
    rw [hrun] at hr
    obtain ⟨x, -, rfl⟩ := Option.map_eq_some_iff.mp hr
    rfl

theorem meets_iff (op : Nat → Int) (places : List Text) :
    herr (uptoStop op 0 places).2 = (uptoStop op 0 places).2 ↔ Meets op places.length := by
  rcases allZero_or_stopsAt op 0 places.length with hzero | ⟨k, hstop⟩
  · rw [uptoStop_allZero hzero]
    exact iff_of_true rfl (.inl hzero)
  · have hne := hstop.ne_zero
    rw [uptoStop_stopsAt hstop]
    simp only [Nat.zero_add] at hne ⊢
    rw [herr_eq_self_iff, or_iff_right hne]
    constructor
    · exact fun hop => .inr ⟨k, hstop, hop⟩
    · rintro (hzero | ⟨j, hj, hop⟩)
      · exact absurd (hzero k hstop.lt) hstop.ne_zero
      · rcases Nat.lt_trichotomy j k with hlt | rfl | hlt
        · exact absurd (hstop.before j hlt) hj.ne_zero
        · exact hop
        · exact absurd (hj.before k hlt) hstop.ne_zero

variable {next : Nat → Nat} {run : Option Nat → (Nat → Int) → Option Run} {start : Nat}

/-- The names of the loop without an index, and the names of the loop from an index on. -/
theorem FlatRun.unindexed_iff (h : FlatRun order names next run) (hnames : names ≠ []) (op : Nat → Int) :
    (∃ r, run none op = some r ∧ r.visited = (uptoStop op 0 (order.ordered names)).1 ∧
      r.ret = (uptoStop op 0 (order.ordered names)).2 ∧ r.depth = 0) ↔ Meets op names.length := by
  obtain ⟨entries, last, hentries, hordered⟩ := @loopEntries_none _ order _ hnames
  obtain ⟨r, hr, hvisited, hret, hdepth⟩ := h.defined none op _ hentries
  simp only [hordered] at hvisited hret
  rw [← length_ordered order names, ← meets_iff, ← hret, hr]
  constructor
  · rintro ⟨_, hsame, -, hmeets, -⟩
    exact Option.some.inj hsame ▸ hmeets
  · exact fun hmeets => ⟨r, rfl, hvisited, hmeets, hdepth⟩

/-- A run that visits other entries than those that are left is not a resumed one. -/
theorem FlatRun.not_resumed (h : FlatRun order names next run) {pos : Nat} {listing : List Text}
    {entries : List (Text × Nat) × Nat} (hentries : loopEntries order (some start) names = some entries)
    (hhead : (entries.1.map Prod.fst).head? ≠ (listing.drop pos).head?) {ops : List (Nat → Int)}
    (hops : ops ≠ []) : ¬ Resumed run listing pos (some start) ops := by
  obtain ⟨op, ops, rfl⟩ := List.exists_cons_of_ne_nil hops
  rintro ⟨r, hr, hvisited, -⟩
  obtain ⟨_, hsame, hcode, -⟩ := h.defined (some start) op entries hentries
  rw [← Option.some.inj (hr.symm.trans hsame), hvisited] at hcode
  have hheads := congrArg List.head? hcode
  rw [uptoStop_head?, uptoStop_head?] at hheads
  exact hhead hheads.symm

/-- The loop from an index on. -/
theorem loopEntries_inc (hinc : order ≠ .dec) (start : Nat) :
    ∃ entries, loopEntries order (some start) names = some entries ∧
      entries.1.map Prod.fst = names.drop start := by
  cases order with
  | native | inc =>
      refine ⟨_, rfl, ?_⟩
      rw [Option.getD_some, List.map_drop, List.zipIdx_map_fst]
  | dec => exact absurd rfl hinc

theorem loopEntries_dec (hstart : start < names.length) :
    ∃ entries, loopEntries .dec (some start) names = some entries ∧
      entries.1.map Prod.fst = names.reverse.drop (names.length - (start + 1)) := by
  refine ⟨_, if_pos hstart, ?_⟩
  rw [Option.getD_some, List.map_reverse, List.map_take, List.zipIdx_map_fst, List.reverse_take]

/-- Behind the last entry nothing is visited any more. -/
theorem FlatRun.resumed_done (h : FlatRun order names next run) (hinc : order ≠ .dec)
    (hstart : names.length ≤ start) (hnext : next start = start) (ops : List (Nat → Int)) :
    Resumed run names start (some start) ops := by
  induction ops with
  | nil => trivial
  | cons op ops ih =>
      obtain ⟨entries, hentries, hdrop⟩ := @loopEntries_inc _ names hinc start
      obtain ⟨r, hr, hvisited, hret, hdepth⟩ := h.defined (some start) op entries hentries
      have hmoved := h.moved (some start) op entries r hentries hr
      rw [hdrop, List.drop_of_length_le hstart] at hvisited hret hmoved
      rw [Resumed, List.drop_of_length_le hstart]
      refine ⟨r, hr, hvisited, hret, hdepth, ?_⟩
      rw [hmoved rfl, hvisited, Option.map_some, hnext]
      exact ih

/-- The first of some runs, and what follows. -/
theorem FlatRun.resumed_cons (h : FlatRun order names next run) {entries : List (Text × Nat) × Nat}
    (hentries : loopEntries order (some start) names = some entries) {listing : List Text} {pos : Nat}
    (hlisting : entries.1.map Prod.fst = listing.drop pos) (op : Nat → Int) (ops : List (Nat → Int)) :
    Resumed run listing pos (some start) (op :: ops) ↔
      (AllZero op 0 (listing.length - pos) ∧
        Resumed run listing (pos + (listing.length - pos)) (some (next start)) ops) ∨
      ∃ k, StopsAt op 0 (listing.length - pos) k ∧ op k = -1 ∧
        Resumed run listing (pos + (k + 1)) (some start) ops := by
  obtain ⟨r, hr, hvisited, hret, hdepth⟩ := h.defined (some start) op entries hentries
  have hmoved := h.moved (some start) op entries r hentries hr
  have hstopped := h.stopped (some start) op entries r hentries hr
  have hlength : (listing.drop pos).length = listing.length - pos := List.length_drop
  rw [hlisting] at hvisited hret hmoved hstopped
  have hstep : Resumed run listing pos (some start) (op :: ops) ↔
      Meets op (listing.length - pos) ∧
        Resumed run listing (pos + r.visited.length) r.idx ops := by
    rw [Resumed, ← hlength, ← meets_iff, ← hret]
    constructor
    · rintro ⟨_, hsame, -, hmeets, -, hrest⟩
      cases Option.some.inj (hr.symm.trans hsame)
      exact ⟨hmeets, hrest⟩
    · rintro ⟨hmeets, hrest⟩
      exact ⟨r, hr, hvisited, hmeets, hdepth, hrest⟩
  rw [hstep, ← hlength]
  rcases allZero_or_stopsAt op 0 (listing.drop pos).length with hzero | ⟨k, hstop⟩
  · rw [uptoStop_allZero hzero] at hvisited hmoved
    rw [hmoved rfl, hvisited, Option.map_some]
    constructor
    · exact fun hrest => .inl ⟨hzero, hrest.2⟩
    · rintro (⟨-, hrest⟩ | ⟨k, hstop, -⟩)
      · exact ⟨.inl hzero, hrest⟩
      · exact absurd (hzero k hstop.lt) hstop.ne_zero
  · have hne := hstop.ne_zero
    have hfirst (j : Nat) (hj : StopsAt op 0 (listing.drop pos).length j) : j = k := by
      rcases Nat.lt_trichotomy j k with hlt | heq | hlt
      · exact absurd (hstop.before j hlt) hj.ne_zero
      · exact heq
      · exact absurd (hj.before k hlt) hstop.ne_zero
    have hlt := hstop.lt
    rw [uptoStop_stopsAt hstop] at hvisited hstopped
    rw [Nat.zero_add] at hne hstopped
    have hvisits : r.visited.length = k + 1 := by
      rw [hvisited, List.length_take]
      omega
    constructor
    · rintro ⟨hzero | ⟨j, hj, hop⟩, hrest⟩
      · exact absurd (hzero k hlt) hstop.ne_zero
      · cases hfirst j hj
        rw [hstopped (by simp only; omega), hvisits] at hrest
        exact .inr ⟨k, hstop, hop, hrest⟩
    · rintro (⟨hzero, -⟩ | ⟨j, hj, hop, hrest⟩)
      · exact absurd (hzero k hlt) hstop.ne_zero
      · cases hfirst j hj
        refine ⟨.inr ⟨k, hstop, hop⟩, ?_⟩
        rw [hstopped (by simp only; omega), hvisits]
        exact hrest

theorem head?_drop_ne {listing : List Text} (hnodup : listing.Nodup) {a b : Nat}
    (ha : a < listing.length) (hne : a ≠ b) : (listing.drop a).head? ≠ (listing.drop b).head? := by
  rw [List.head?_drop, List.head?_drop]
  exact fun hsame => hne ((List.getElem?_inj ha hnodup).mp hsame)

/-- Links in increasing order. -/
theorem FlatRun.resumed_forwards (h : FlatRun order names next run) (hinc : order ≠ .dec)
    (hnames : names.Nodup) (hnext : ∀ start, next start = max start names.length) (start : Nat)
    (ops : List (Nat → Int)) :
    Resumed run names start (some start) ops ↔ MeetsForwards start names.length ops := by
  cases ops with
  | nil => exact Iff.rfl
  | cons op ops =>
      obtain ⟨entries, hentries, hdrop⟩ := @loopEntries_inc _ names hinc start
      have hend : start + (names.length - start) = next start := by
        rw [hnext]
        omega
      have hdone := @FlatRun.resumed_done _ _ _ _ (next start) h hinc
        (by rw [hnext]; omega) (by rw [hnext, hnext]; omega) ops
      rw [h.resumed_cons hentries hdrop, hend, MeetsForwards, Meets]
      constructor
      · rintro (⟨hzero, -⟩ | ⟨k, hstop, hop, hrest⟩)
        · exact .inl hzero
        · refine .inr ⟨?_, .inr ⟨k, hstop, hop⟩⟩
          by_contra hops
          have hlt := hstop.lt
          exact h.not_resumed hentries
            (by rw [hdrop]; exact head?_drop_ne hnames (by omega) (by omega)) hops hrest
      · rintro (hzero | ⟨rfl, hzero | ⟨k, hstop, hop⟩⟩)
        · exact .inl ⟨hzero, hdone⟩
        · exact .inl ⟨hzero, trivial⟩
        · exact .inr ⟨k, hstop, hop, trivial⟩

/-- Attributes in increasing order. -/
theorem FlatRun.resumed_once (h : FlatRun order names id run) (hinc : order ≠ .dec)
    (hnames : names.Nodup) (start : Nat) (ops : List (Nat → Int)) :
    Resumed run names start (some start) ops ↔ MeetsOnce start names.length ops := by
  cases ops with
  | nil => exact Iff.rfl
  | cons op ops =>
      rw [MeetsOnce]
      by_cases hstart : names.length ≤ start
      · exact iff_of_true (h.resumed_done hinc hstart rfl (op :: ops)) (.inl hstart)
      · have hagain (pos : Nat) (hpos : start < pos) (hops : ops ≠ []) :
            ¬ Resumed run names pos (some start) ops := by
          obtain ⟨entries, hentries, hdrop⟩ := @loopEntries_inc _ names hinc start
          exact h.not_resumed hentries
            (by rw [hdrop]; exact head?_drop_ne hnames (by omega) (by omega)) hops
        obtain ⟨entries, hentries, hdrop⟩ := @loopEntries_inc _ names hinc start
        rw [h.resumed_cons hentries hdrop, or_iff_right hstart, Meets]
        constructor
        · rintro (⟨hzero, hrest⟩ | ⟨k, hstop, hop, hrest⟩)
          · refine ⟨?_, .inl hzero⟩
            by_contra hops
            exact hagain _ (by omega) hops hrest
          · refine ⟨?_, .inr ⟨k, hstop, hop⟩⟩
            by_contra hops
            exact hagain _ (by omega) hops hrest
        · rintro ⟨rfl, hzero | ⟨k, hstop, hop⟩⟩
          · exact .inl ⟨hzero, trivial⟩
          · exact .inr ⟨k, hstop, hop, trivial⟩

/-- Links and attributes in decreasing order. -/
theorem FlatRun.resumed_backwards (h : FlatRun .dec names next run) (hnames : names.Nodup)
    (hnext : ∀ start < names.length, next start < names.length) (start : Nat)
    (ops : List (Nat → Int)) :
    Resumed run names.reverse start (some start) ops ↔ MeetsBackwards start names.length ops := by
  have hreverse : names.reverse.Nodup := List.nodup_reverse.mpr hnames
  have hagain (first pos : Nat) (hfrom : first < names.length)
      (hpos : names.length - (first + 1) ≠ pos) (ops : List (Nat → Int)) (hops : ops ≠ []) :
      ¬ Resumed run names.reverse pos (some first) ops := by
    obtain ⟨entries, hentries, hdrop⟩ := loopEntries_dec hfrom
    refine h.not_resumed hentries ?_ hops
    rw [hdrop]
    exact head?_drop_ne hreverse (by rw [List.length_reverse]; omega) hpos
  cases ops with
  | nil => exact Iff.rfl
  | cons op ops =>
      rw [MeetsBackwards]
      by_cases hstart : start < names.length
      · by_cases hmiddle : 2 * start + 1 = names.length
        · obtain ⟨entries, hentries, hdrop⟩ := loopEntries_dec hstart
          have hsame : names.length - (start + 1) = start := by omega
          rw [hsame] at hdrop
          rw [h.resumed_cons hentries hdrop, List.length_reverse, Meets]
          constructor
          · rintro (⟨hzero, hrest⟩ | ⟨k, hstop, hop, hrest⟩)
            · refine ⟨?_, hmiddle, .inl hzero⟩
              by_contra hops
              have hlast := hnext start hstart
              exact hagain _ _ hlast (by omega) ops hops hrest
            · refine ⟨?_, hmiddle, .inr ⟨k, hstop, hop⟩⟩
              by_contra hops
              exact hagain _ _ hstart (by omega) ops hops hrest
          · rintro ⟨rfl, -, hzero | ⟨k, hstop, hop⟩⟩
            · exact .inl ⟨hzero, trivial⟩
            · exact .inr ⟨k, hstop, hop, trivial⟩
        · exact iff_of_false (hagain start start hstart (by omega) _ (List.cons_ne_nil _ _))
            fun hmeets => hmiddle hmeets.2.1
      · refine iff_of_false ?_ fun hmeets => hstart (by omega)
        rintro ⟨r, hr, -⟩
        rw [h.undefined (some start) op (if_neg hstart)] at hr
        cases hr

end Flat

/-! ## Iterations -/

theorem resumed_empty {run : Option Nat → (Nat → Int) → Option Run}
    (h : ∀ idx op, run idx op = some ⟨0, [], idx, 0⟩) (idx : Option Nat) (pos : Nat)
    (ops : List (Nat → Int)) : Resumed run [] pos idx ops := by
  induction ops generalizing pos with
  | nil => trivial
  | cons op ops ih =>
      refine ⟨_, h idx op, ?_, ?_, rfl, ih _⟩ <;> (rw [List.drop_nil]; rfl)

theorem meets_zero (op : Nat → Int) : Meets op 0 := .inl nofun

/-- The harmless runs over a table that has entries, with what is asked for in increasing order. -/
def FlatHarmless (order : IterOrder) (forwards : Nat → Nat → List (Nat → Int) → Prop) (count : Nat)
    (ops : List (Nat → Int)) : Option Nat → Prop
  | none => ∀ op ∈ ops, Meets op count
  | some start =>
      if order = .dec then MeetsBackwards start count ops else forwards start count ops

theorem FlatRun.resumed_iff {order : IterOrder} {names : List Text} {next : Nat → Nat}
    {run : Option Nat → (Nat → Int) → Option Run} {forwards : Nat → Nat → List (Nat → Int) → Prop}
    (h : FlatRun order names next run) (hne : names ≠ []) (hnames : names.Nodup)
    (hforwards : ∀ start ops, order ≠ .dec →
      (Resumed run names start (some start) ops ↔ forwards start names.length ops))
    (hnext : order = .dec → ∀ start < names.length, next start < names.length) (idx : Option Nat)
    (ops : List (Nat → Int)) :
    Resumed run (order.ordered names) (idx.getD 0) idx ops ↔
      FlatHarmless order forwards names.length ops idx := by
  cases idx with
  | none => exact resumed_none_iff h.unindexed (h.unindexed_iff hne) ops
  | some start =>
      rw [FlatHarmless, Option.getD_some]
      split_ifs with hdec
      · subst hdec
        exact h.resumed_backwards hnames (hnext rfl) start ops
      · rw [← hforwards start ops hdec]
        cases order with
        | native | inc => exact Iff.rfl
        | dec => exact absurd rfl hdec

/-- The runs of an iteration visit what they should, give back the results that stop them, and leave
the level at zero exactly in the harmless cases. -/
theorem Iteration.resumes_iff (it : Iteration) (h : it.WellFormed) (ops : List (Nat → Int)) :
    it.Resumes ops ↔ it.Harmless ops := by
  have hordered (order : IterOrder) : order.ordered ([] : List Text) = [] := by
    cases order <;> rfl
  cases it with
  | lvisit order table =>
      refine resumed_none_iff (fun op r hr => ?_) (fun op => h5Literate_none_iff table) ops
      rw [h5Literate] at hr
      split at hr
      · rw [← Option.some.inj hr]
      · obtain ⟨x, -, rfl⟩ := Option.map_eq_some_iff.mp hr
        rfl
  | ovisit order table =>
      refine resumed_none_iff (fun op r hr => ?_) (fun op => h5Ovisit_iff table) ops
      rw [h5Ovisit] at hr
      split_ifs at hr
      · rw [← Option.some.inj hr]
      · rw [← Option.some.inj hr]
      · obtain ⟨x, -, rfl⟩ := Option.map_eq_some_iff.mp hr
        rfl
  | literate order idx table =>
      by_cases htable : table = []
      · subst htable
        refine iff_of_true ?_ ?_
        · rw [Resumes, List.map_nil, hordered]
          exact resumed_empty (fun _ _ => rfl) _ _ _
        · cases idx with
          | none => exact fun op _ => meets_zero op
          | some start =>
              simp only [Harmless]
              split_ifs
              · exact .inl trivial
              · cases ops with
                | nil => trivial
                | cons op ops => exact .inl fun k hk => by simp at hk
      · have hflat := @flatRun_literate order _ htable h.1
        have hiff := hflat.resumed_iff (by simpa using htable) h.2
          (fun start ops hinc => hflat.resumed_forwards hinc h.2
            (fun start => by cases order <;> first | rfl | exact absurd rfl hinc) start ops)
          (fun hdec start hstart => by subst hdec; exact Nat.zero_lt_of_lt hstart) idx ops
        rw [Resumes, hiff, List.length_map]
        cases idx with
        | none => exact Iff.rfl
        | some start =>
            simp only [FlatHarmless, Harmless, htable, false_or]
  | aiterate order idx table =>
      by_cases htable : table = []
      · subst htable
        refine iff_of_true ?_ ?_
        · rw [Resumes, hordered]
          exact resumed_empty (fun _ _ => rfl) _ _ _
        · cases idx with
          | none => exact fun op _ => meets_zero op
          | some start =>
              simp only [Harmless]
              split_ifs
              · exact .inl trivial
              · cases ops with
                | nil => trivial
                | cons op ops => exact .inl (Nat.zero_le start)
      · have hflat := @flatRun_aiterate order _ htable
        have hiff := hflat.resumed_iff htable h
          (fun start ops hinc => hflat.resumed_once hinc h start ops)
          (fun _ start hstart => hstart) idx ops
        rw [Resumes, hiff]
        cases idx with
        | none => exact Iff.rfl
        | some start =>
            simp only [FlatHarmless, Harmless, htable, false_or]

/-- Two links from the index zero on, then from where the first run has ended. -/
theorem resumes_literate :
    (Iteration.literate .inc (some 0) [⟨['a'], 0, []⟩, ⟨['b'], 1, []⟩]).Resumes
      [fun _ => 0, fun _ => 1] := by
  have hnames : (Iteration.literate .inc (some 0) [⟨['a'], 0, []⟩, ⟨['b'], 1, []⟩]).WellFormed := by
    refine ⟨?_, by decide⟩
    simp
  exact (Iteration.resumes_iff _ hnames _).mpr (.inl fun _ _ => rfl)

/-- A positive result for the one link of a group does not come back. -/
theorem not_resumes_literate :
    ¬ (Iteration.literate .inc none [⟨['a'], 0, []⟩]).Resumes [fun _ => 1] := by
  rintro ⟨r, hr, -, hret, -⟩
  change h5Literate .inc none 0 _ _ = some r at hr
  rw [h5Literate, if_neg (List.cons_ne_nil _ _)] at hr
  obtain ⟨x, -, rfl⟩ := Option.map_eq_some_iff.mp hr
  have hone : herr x.ret = 1 := hret
  rw [herr] at hone
  split_ifs at hone
  all_goals omega

end XHDF5.Links
