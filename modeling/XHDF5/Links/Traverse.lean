/-
# Going through tables

The client has a table of the links of a group, of the attributes of an object, or of the links to
the objects below an object, and calls the function of the user for each entry. A table of links has
the tables of subgroups in it when the visit is recursive. The level of the recursion is a static
variable, and what a caller gets back goes through the functions that parse the response.
-/

import XHDF5.Math.Stopping
import XHDF5.Math.Token
import Mathlib.Data.Rat.Defs

namespace XHDF5.Links

open XHDF5.Math

/-- `H5_iter_order_t`, without the orders that are refused. -/
inductive IterOrder
  | native
  | inc
  | dec
deriving DecidableEq

/-- `link_table_entry`. A subgroup without a table has an empty one. -/
structure LinkEntry where
  name : Text
  crtTime : ℚ
  subgroup : List LinkEntry

/-- `object_table_entry`, with the class of the link. -/
structure ObjectEntry where
  name : Text
  isHard : Bool
  uri : Text
  subgroup : List ObjectEntry

theorem LinkEntry.sizeOf_subgroup (e : LinkEntry) : sizeOf e.subgroup < sizeOf e := by
  cases e
  simp only [LinkEntry.mk.sizeOf_spec]
  omega

theorem ObjectEntry.sizeOf_subgroup (e : ObjectEntry) : sizeOf e.subgroup < sizeOf e := by
  cases e
  simp only [ObjectEntry.mk.sizeOf_spec]
  omega

/-! ## Loops -/

/-- What a traversal leaves: its result, the index at which the loop was left, and the walk. -/
structure Exit (α σ : Type*) where
  ret : Int
  lastIdx : Nat
  walk : Walk α σ

/-- The entries that a loop comes to, with their indexes, and the index behind the last one. In
increasing order the index is compared with the number of entries, in decreasing order it is not. -/
def loopEntries {β : Type*} (order : IterOrder) (idx : Option Nat) (table : List β) :
    Option (List (β × Nat) × Nat) :=
  match order with
  | .native | .inc =>
      let start := idx.getD 0
      some (table.zipIdx.drop start, max start table.length)
  | .dec =>
      let start := idx.getD (table.length - 1)
      if start < table.length then some ((table.zipIdx.take (start + 1)).reverse, 0) else none

/-- The loop: a result other than zero leaves it. -/
def runLoop {α β σ : Type*} (visit : β → Visit α σ) (last : Nat) :
    List (β × Nat) → Walk α σ → Option (Exit α σ)
  | [], w => some ⟨0, last, w⟩
  | (e, i) :: entries, w =>
      (visit e w).bind fun r =>
        if r.1 = 0 then runLoop visit last entries r.2 else some ⟨r.1, i, r.2⟩

/-- The path of an entry from the object where the iteration started. -/
def relPath (path : Option Text) (name : Text) : Text :=
  match path with
  | none => name
  | some path => path ++ '/' :: name

/-- The call of the user's function for a path. -/
def callOp {σ : Type*} (op : Nat → Int) (path : Text) : Visit Text σ := fun w =>
  some (op w.visited.length, { w with visited := w.visited ++ [path] })

/-- The descent into a subgroup: the level goes down only when the traversal did not fail, and what it
returns is not looked at otherwise. -/
def descend {σ : Type*} (traverse : Walk Text σ → Option (Exit Text σ)) : Visit Text σ := fun w =>
  (traverse { w with depth := w.depth + 1 }).bind fun x =>
    if x.ret < 0 then some (-1, x.walk)
    else some (0, { x.walk with depth := x.walk.depth - 1 })

/-! ## The traversals -/

/-- `RV_traverse_link_table`. The index goes back to the caller behind the outermost traversal. -/
def rvTraverseLinkTable (order : IterOrder) (idx : Option Nat) (op : Nat → Int) (path : Option Text)
    (table : List LinkEntry) (w : Walk Text Unit) : Option (Exit Text Unit) :=
  (loopEntries order idx table.attach).bind fun entries =>
    runLoop (fun e w =>
      (callOp op (relPath path e.1.name) w).bind fun r =>
        if r.1 = 0 then
          if e.1.subgroup = [] then some r
          else
            descend (rvTraverseLinkTable order idx op (some (relPath path e.1.name)) e.1.subgroup) r.2
        else some r) entries.2 entries.1 w
termination_by sizeOf table
decreasing_by
  have hmem := List.sizeOf_lt_of_mem e.2
  have hsub := e.1.sizeOf_subgroup
  omega

/-- `RV_traverse_attr_table`. -/
def rvTraverseAttrTable (order : IterOrder) (idx : Option Nat) (op : Nat → Int) (table : List Text)
    (w : Walk Text Unit) : Option (Exit Text Unit) :=
  (loopEntries order idx table).bind fun entries => runLoop (callOp op) entries.2 entries.1 w

/-- The call for an object: only for hard links, and only when the object was not visited before. -/
def callObject (op : Nat → Int) (path : Text) (isHard : Bool) (uri : Text) : Visit Text (List Text) :=
  fun w =>
    if isHard = true ∧ uri ∉ w.seen then
      (callOp op path w).map fun r =>
        if r.1 = 0 then (r.1, { r.2 with seen := uri :: w.seen }) else r
    else some (0, w)

/-- `RV_traverse_object_table`. -/
def rvTraverseObjectTable (order : IterOrder) (op : Nat → Int) (path : Option Text)
    (table : List ObjectEntry) (w : Walk Text (List Text)) : Option (Exit Text (List Text)) :=
  (loopEntries order none table.attach).bind fun entries =>
    runLoop (fun e w =>
      (callObject op (relPath path e.1.name) e.1.isHard e.1.uri w).bind fun r =>
        if r.1 = 0 then
          if e.1.subgroup = [] then some r
          else
            descend (rvTraverseObjectTable order op (some (relPath path e.1.name)) e.1.subgroup) r.2
        else some r) entries.2 entries.1 w
termination_by sizeOf table
decreasing_by
  have hmem := List.sizeOf_lt_of_mem e.2
  have hsub := e.1.sizeOf_subgroup
  omega

/-! ## The operations -/

/-- What an operation of the library gives back: its result, the paths that the user's function was
called for, the index, and the static level. -/
structure Run where
  ret : Int
  visited : List Text
  idx : Option Nat
  depth : Nat

/-- What `RV_parse_response` and its callers leave of the result of a traversal. -/
def herr (ret : Int) : Int := if ret < 0 then -1 else 0

/-- `H5Literate` and `H5Lvisit`, with the table that `RV_link_iter_callback` has built. -/
def h5Literate (order : IterOrder) (idx : Option Nat) (depth : Nat) (op : Nat → Int)
    (table : List LinkEntry) : Option Run :=
  if table = [] then some ⟨0, [], idx, depth⟩
  else
    (rvTraverseLinkTable order idx op none table ⟨[], depth, ()⟩).map fun x =>
      { ret := herr x.ret
        visited := x.walk.visited
        idx := idx.map fun start => if (0 : Int) ≤ x.ret ∧ x.walk.depth = 0 then x.lastIdx else start
        depth := x.walk.depth }

/-- `H5Aiterate`, with the table that `RV_attr_iter_callback` has built. The index is read and never
written. -/
def h5Aiterate (order : IterOrder) (idx : Option Nat) (op : Nat → Int) (table : List Text) :
    Option Run :=
  if table = [] then some ⟨0, [], idx, 0⟩
  else
    (rvTraverseAttrTable order idx op table ⟨[], 0, ()⟩).map fun x =>
      { ret := herr x.ret, visited := x.walk.visited, idx := idx, depth := 0 }

/-- `H5Ovisit`: the function is called for the object itself, and then for the objects of the table
that `RV_object_iter_callback` has built. -/
def h5Ovisit (order : IterOrder) (depth : Nat) (op : Nat → Int) (table : List ObjectEntry) :
    Option Run :=
  if op 0 ≠ 0 then some ⟨op 0, [['.']], none, depth⟩
  else if table = [] then some ⟨0, [['.']], none, depth⟩
  else
    (rvTraverseObjectTable order op none table ⟨[['.']], depth, []⟩).map fun x =>
      { ret := herr x.ret, visited := x.walk.visited, idx := none, depth := x.walk.depth }

end XHDF5.Links
