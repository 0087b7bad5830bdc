/-
# Resolution of paths in a graph of links

A node has named links. A hard link leads to a node; a symbolic link has a path of its own, which
starts at a given node or, when none is given, at the node that has the link; a broken link leads
nowhere. A path is resolved link by link, and each symbolic link on it by a resolution of its own,
so that a cycle of symbolic links resolves to nothing.
-/

import Mathlib.Data.Option.Basic
import Mathlib.Data.List.Basic

namespace XHDF5.Math

/-- A link of a graph. -/
inductive GraphLink (Node Name : Type*)
  | hard (node : Node)
  | symbolic (start : Option Node) (path : List Name)
  | broken

/-- The links of every node. -/
abbrev LinkGraph (Node Name : Type*) := Node → Name → Option (GraphLink Node Name)

variable {Node Name : Type*} {g : LinkGraph Node Name}

/-- The node that a path leads to. -/
inductive Resolves (g : LinkGraph Node Name) : Node → List Name → Node → Prop
  | done (n : Node) : Resolves g n [] n
  | hard {n m o : Node} {name : Name} {rest : List Name} (hlink : g n name = some (.hard m))
      (hrest : Resolves g m rest o) : Resolves g n (name :: rest) o
  | symbolic {n m o : Node} {start : Option Node} {name : Name} {path rest : List Name}
      (hlink : g n name = some (.symbolic start path)) (hpath : Resolves g (start.getD n) path m)
      (hrest : Resolves g m rest o) : Resolves g n (name :: rest) o

/-- The node that a path leads to over hard links alone. -/
def hardWalk (g : LinkGraph Node Name) : Node → List Name → Option Node
  | n, [] => some n
  | n, name :: rest =>
      match g n name with
      | some (.hard m) => hardWalk g m rest
      | _ => none

/-- A graph with more links leads to the same nodes. -/
theorem hardWalk_mono {g' : LinkGraph Node Name}
    (h : ∀ n name m, g n name = some (.hard m) → g' n name = some (.hard m)) {n o : Node}
    {path : List Name} (hwalk : hardWalk g n path = some o) : hardWalk g' n path = some o := by
  induction path generalizing n with
  | nil => exact hwalk
  | cons name rest ih =>
      rw [hardWalk] at hwalk
      split at hwalk
      · next m hlink =>
          rw [hardWalk, h n name m hlink]
          exact ih hwalk
      · cases hwalk

namespace Resolves

/-- A path leads to one node at most. -/
theorem unique {n o o' : Node} {path : List Name} (h : Resolves g n path o)
    (h' : Resolves g n path o') : o = o' := by
  induction h generalizing o' with
  | done n =>
      cases h'
      rfl
  | hard hlink hrest ih =>
      cases h' with
      | hard hlink' hrest' =>
          rw [hlink] at hlink'
          cases hlink'
          exact ih hrest'
      | symbolic hlink' => rw [hlink] at hlink'; cases hlink'
  | symbolic hlink hpath hrest ihpath ihrest =>
      cases h' with
      | hard hlink' => rw [hlink] at hlink'; cases hlink'
      | symbolic hlink' hpath' hrest' =>
          rw [hlink] at hlink'
          cases hlink'
          exact ihrest (ihpath hpath' ▸ hrest')

/-- Hard links lead where the path leads. -/
theorem of_hardWalk {n o : Node} {path : List Name} (h : hardWalk g n path = some o) :
    Resolves g n path o := by
  induction path generalizing n with
  | nil =>
      cases h
      exact .done _
  | cons name rest ih =>
      rw [hardWalk] at h
      split at h
      · next hlink => exact .hard hlink (ih h)
      · cases h

end Resolves

end XHDF5.Math
