/-
# Making the nodes of a path

Nodes have named entries, some of which open further nodes. A path can be walked where its entries
open nodes, and a node can be made under a name that is free. Making all nodes of a path walks as far
as it gets and makes the rest, each below the one before.
-/

import Mathlib.Data.List.Basic

namespace XHDF5.Math

/-- States with the entries of their nodes, the nodes that entries open, and an attempt to make a
node below another. -/
structure Maker (State Node Name Entry : Type*) where
  entry : State → Node → Name → Option Entry
  opens : State → Entry → Option Node
  make : State → Node → Name → State × Option Node

namespace Maker

variable {State Node Name Entry : Type*} (M : Maker State Node Name Entry)

/-- The node that a name leads to. -/
def child (s : State) (n : Node) (name : Name) : Option Node := (M.entry s n name).bind (M.opens s)

/-- The node that a path leads to. -/
def walk (s : State) : Node → List Name → Option Node
  | n, [] => some n
  | n, name :: rest => (M.child s n name).bind fun m => walk s m rest

/-- What comes next when a node was reached. -/
def andThen (reached : State × Option Node) (next : State → Node → State × Option Node) :
    State × Option Node :=
  match reached with
  | (s, some m) => next s m
  | (s, none) => (s, none)

/-- The nodes of a path are walked or made, one after the other. -/
def makeAll : State → Node → List Name → State × Option Node
  | s, n, [] => (s, some n)
  | s, n, name :: rest =>
      match M.child s n name with
      | some m => makeAll s m rest
      | none => andThen (M.make s n name) fun after m => makeAll after m rest

/-- All nodes above the last are walked or made, and then the last is made. -/
def create (s : State) (n : Node) (path : List Name) (name : Name) : State × Option Node :=
  andThen (M.makeAll s n path) fun mid m => M.make mid m name

/-- A node was made: its name was free and leads to it now, it is empty, and nothing else has
changed. -/
structure Made (s after : State) (n : Node) (name : Name) (m : Node) : Prop where
  free : M.entry s n name = none
  child_new : M.child after n name = some m
  entry_eq : ∀ k other, (k, other) ≠ (n, name) → M.entry after k other = M.entry s k other
  empty : ∀ other, M.entry after m other = none
  opens_eq : ∀ k other e, M.entry s k other = some e → M.opens after e = M.opens s e

/-- An attempt makes a node or changes nothing. -/
structure Lawful : Prop where
  refused : ∀ s n name, (M.make s n name).2 = none → (M.make s n name).1 = s
  made : ∀ s n name m, (M.make s n name).2 = some m → M.Made s (M.make s n name).1 n name m

/-- What has grown along a path: every entry is as it was, and a new one stands on the path, at a
place that the path did not lead to before, and opens the next node of it. -/
structure Grown (s after : State) (n : Node) (path : List Name) : Prop where
  kept : ∀ k other e, M.entry s k other = some e →
    M.entry after k other = some e ∧ M.opens after e = M.opens s e
  added : ∀ k other e, M.entry after k other = some e → M.entry s k other = none →
    ∃ before rest, path = before ++ other :: rest ∧ M.walk s n (before ++ [other]) = none ∧
      M.walk after n before = some k ∧ (M.opens after e).isSome

variable {M}

/-! ## Walks -/

@[simp] theorem walk_nil (s : State) (n : Node) : M.walk s n [] = some n := rfl

theorem walk_cons (s : State) (n : Node) (name : Name) (rest : List Name) :
    M.walk s n (name :: rest) = (M.child s n name).bind fun m => M.walk s m rest := rfl

theorem walk_append (s : State) (n : Node) (first rest : List Name) :
    M.walk s n (first ++ rest) = (M.walk s n first).bind fun m => M.walk s m rest := by
  induction first generalizing n with
  | nil => rfl
  | cons name first ih =>
      rw [List.cons_append, walk_cons, walk_cons, Option.bind_assoc]
      exact congrArg _ (funext ih)

theorem walk_singleton (s : State) (n : Node) (name : Name) :
    M.walk s n [name] = M.child s n name := by
  rw [walk_cons]
  exact Option.bind_fun_some _

/-- No path leads on from an empty node. -/
theorem walk_of_empty {s : State} {n : Node} (h : ∀ name, M.entry s n name = none) {path : List Name}
    (hpath : path ≠ []) : M.walk s n path = none := by
  cases path with
  | nil => exact absurd rfl hpath
  | cons name rest => rw [walk_cons, child, h, Option.bind_none, Option.bind_none]

/-! ## One node -/

theorem Made.child_eq {s after : State} {n : Node} {name : Name} {m : Node}
    (h : M.Made s after n name m) {k o : Node} {other : Name} (hchild : M.child s k other = some o) :
    M.child after k other = some o := by
  obtain ⟨e, he, ho⟩ := Option.bind_eq_some_iff.mp hchild
  have hne : (k, other) ≠ (n, name) := by
    intro heq
    obtain ⟨rfl, rfl⟩ := Prod.mk.inj heq
    rw [h.free] at he
    cases he
  rw [child, h.entry_eq k other hne, he, Option.bind_some, h.opens_eq k other e he, ho]

theorem Made.walk_eq {s after : State} {n : Node} {name : Name} {m : Node}
    (h : M.Made s after n name m) {k o : Node} {path : List Name} (hwalk : M.walk s k path = some o) :
    M.walk after k path = some o := by
  induction path generalizing k with
  | nil => exact hwalk
  | cons other rest ih =>
      obtain ⟨next, hnext, hrest⟩ := Option.bind_eq_some_iff.mp hwalk
      rw [walk_cons, h.child_eq hnext, Option.bind_some]
      exact ih hrest

theorem Made.grown {s after : State} {n : Node} {name : Name} {m : Node}
    (h : M.Made s after n name m) (rest : List Name) : M.Grown s after n (name :: rest) := by
  constructor
  · intro k other e he
    have hne : (k, other) ≠ (n, name) := by
      intro heq
      obtain ⟨rfl, rfl⟩ := Prod.mk.inj heq
      rw [h.free] at he
      cases he
    exact ⟨(h.entry_eq k other hne).trans he, h.opens_eq k other e he⟩
  · intro k other e he hfree
    have heq : (k, other) = (n, name) := by
      by_contra hne
      rw [h.entry_eq k other hne, hfree] at he
      cases he
    obtain ⟨rfl, rfl⟩ := Prod.mk.inj heq
    have hnew := h.child_new
    rw [child, he, Option.bind_some] at hnew
    refine ⟨[], rest, rfl, ?_, rfl, Option.isSome_iff_exists.mpr ⟨m, hnew⟩⟩
    rw [List.nil_append, walk_singleton, child, h.free, Option.bind_none]

/-! ## Growth -/

theorem Grown.refl (s : State) (n : Node) (path : List Name) : M.Grown s s n path :=
  ⟨fun _ _ _ he => ⟨he, rfl⟩, fun _ _ _ he hfree => by rw [hfree] at he; cases he⟩

theorem Grown.child_eq {s after : State} {n : Node} {path : List Name} (h : M.Grown s after n path)
    {k o : Node} {other : Name} (hchild : M.child s k other = some o) :
    M.child after k other = some o := by
  obtain ⟨e, he, ho⟩ := Option.bind_eq_some_iff.mp hchild
  obtain ⟨he', hopens⟩ := h.kept k other e he
  rw [child, he', Option.bind_some, hopens, ho]

theorem Grown.walk_eq {s after : State} {n : Node} {path : List Name} (h : M.Grown s after n path)
    {k o : Node} {names : List Name} (hwalk : M.walk s k names = some o) :
    M.walk after k names = some o := by
  induction names generalizing k with
  | nil => exact hwalk
  | cons other rest ih =>
      obtain ⟨next, hnext, hrest⟩ := Option.bind_eq_some_iff.mp hwalk
      rw [walk_cons, h.child_eq hnext, Option.bind_some]
      exact ih hrest

/-- Growth along a path, and then along the rest of it from the node reached. -/
theorem Grown.trans {s mid after : State} {n k : Node} {first rest : List Name}
    (hfirst : M.Grown s mid n first) (hwalk : M.walk mid n first = some k)
    (hrest : M.Grown mid after k rest) : M.Grown s after n (first ++ rest) := by
  constructor
  · intro k' other e he
    obtain ⟨hmid, hopens⟩ := hfirst.kept k' other e he
    obtain ⟨hafter, hopens'⟩ := hrest.kept k' other e hmid
    exact ⟨hafter, hopens'.trans hopens⟩
  · intro k' other e he hfree
    cases hmid : M.entry mid k' other with
    | some e' =>
        obtain ⟨hafter, hopens⟩ := hrest.kept k' other e' hmid
        obtain rfl := Option.some.inj (he.symm.trans hafter)
        obtain ⟨before, more, rfl, hnone, hbefore, hsome⟩ := hfirst.added k' other e hmid hfree
        exact ⟨before, more ++ rest, by simp, hnone, hrest.walk_eq hbefore, hopens ▸ hsome⟩
    | none =>
        obtain ⟨before, more, rfl, hnone, hbefore, hsome⟩ := hrest.added k' other e he hmid
        refine ⟨first ++ before, more, by simp, ?_, ?_, hsome⟩
        · cases hs : M.walk s n (first ++ before ++ [other]) with
          | none => rfl
          | some o =>
              have hkept := hfirst.walk_eq hs
              rw [List.append_assoc, walk_append, hwalk, Option.bind_some, hnone] at hkept
              cases hkept
        · rw [walk_append, hrest.walk_eq hwalk, Option.bind_some, hbefore]

/-! ## All nodes -/

section Lawful

variable (h : M.Lawful)

include h

/-- A node of the path that is not there: an attempt to make it. -/
theorem make_cases (s : State) (n : Node) (name : Name) :
    (M.make s n name = (s, none)) ∨
      ∃ after m, M.make s n name = (after, some m) ∧ M.Made s after n name m := by
  cases hmade : (M.make s n name).2 with
  | none => exact .inl (Prod.ext (h.refused s n name hmade) hmade)
  | some m => exact .inr ⟨_, m, Prod.ext rfl hmade, h.made s n name m hmade⟩

/-- Walking as far as possible, and what is made then. -/
theorem makeAll_cases (s : State) (n : Node) (name : Name) (rest : List Name) :
    (∃ m, M.child s n name = some m ∧ M.makeAll s n (name :: rest) = M.makeAll s m rest) ∨
      (M.child s n name = none ∧ M.make s n name = (s, none) ∧
        M.makeAll s n (name :: rest) = (s, none)) ∨
      ∃ after m, M.child s n name = none ∧ M.make s n name = (after, some m) ∧
        M.Made s after n name m ∧ M.makeAll s n (name :: rest) = M.makeAll after m rest := by
  cases hchild : M.child s n name with
  | some m => exact .inl ⟨m, rfl, by rw [makeAll, hchild]⟩
  | none =>
      rcases make_cases h s n name with hmake | ⟨after, m, hmake, hmade⟩
      · exact .inr (.inl ⟨rfl, hmake, by rw [makeAll, hchild, hmake]; rfl⟩)
      · exact .inr (.inr ⟨after, m, rfl, hmake, hmade, by rw [makeAll, hchild, hmake]; rfl⟩)

omit h in
/-- A path that can be walked is left as it is. -/
theorem makeAll_of_walk {s : State} {n m : Node} {path : List Name}
    (hwalk : M.walk s n path = some m) : M.makeAll s n path = (s, some m) := by
  induction path generalizing n with
  | nil => rw [makeAll, ← hwalk, walk_nil]
  | cons name rest ih =>
      obtain ⟨next, hnext, hrest⟩ := Option.bind_eq_some_iff.mp hwalk
      rw [makeAll, hnext]
      exact ih hrest

theorem makeAll_append (s : State) (n : Node) (first rest : List Name) :
    M.makeAll s n (first ++ rest) =
      andThen (M.makeAll s n first) fun mid m => M.makeAll mid m rest := by
  induction first generalizing s n with
  | nil => rfl
  | cons name first ih =>
      rw [List.cons_append]
      rcases makeAll_cases h s n name first with
        ⟨m, hchild, hall⟩ | ⟨hchild, hmake, hall⟩ | ⟨after, m, hchild, hmake, -, hall⟩
      · rw [makeAll, hchild, hall]
        exact ih s m
      · rw [makeAll, hchild, hmake, hall]
        rfl
      · rw [makeAll, hchild, hmake, hall]
        exact ih after m

/-- What grows along a path: the node at its end is reached, or making one was refused. -/
theorem makeAll_grown {s after : State} {n : Node} {path : List Name} {result : Option Node}
    (hall : M.makeAll s n path = (after, result)) :
    M.Grown s after n path ∧ ∀ m, result = some m → M.walk after n path = some m := by
  induction path generalizing s n with
  | nil =>
      obtain ⟨rfl, rfl⟩ := Prod.mk.inj hall
      exact ⟨.refl s n [], fun m hm => hm⟩
  | cons name rest ih =>
      rcases makeAll_cases h s n name rest with
        ⟨m, hchild, heq⟩ | ⟨-, -, heq⟩ | ⟨mid, m, -, -, hmade, heq⟩
      · obtain ⟨hgrown, hwalk⟩ := ih (heq ▸ hall)
        have hfirst : M.walk s n [name] = some m := (walk_singleton s n name).trans hchild
        refine ⟨Grown.trans (.refl s n [name]) hfirst hgrown, fun o ho => ?_⟩
        rw [walk_cons, hgrown.child_eq hchild, Option.bind_some, hwalk o ho]
      · obtain ⟨rfl, rfl⟩ := Prod.mk.inj (heq.symm.trans hall)
        exact ⟨.refl s n _, fun m hm => by cases hm⟩
      · obtain ⟨hgrown, hwalk⟩ := ih (heq ▸ hall)
        have hfirst : M.walk mid n [name] = some m :=
          (walk_singleton mid n name).trans hmade.child_new
        refine ⟨Grown.trans (hmade.grown []) hfirst hgrown, fun o ho => ?_⟩
        rw [walk_cons, hgrown.child_eq hmade.child_new, Option.bind_some, hwalk o ho]

/-- Either nothing was made, or the last node is new and empty. -/
theorem makeAll_reached {s after : State} {n m : Node} {path : List Name}
    (hall : M.makeAll s n path = (after, some m)) :
    (M.walk s n path = some m ∧ after = s) ∨ ∀ name, M.entry after m name = none := by
  induction path generalizing s n with
  | nil =>
      obtain ⟨rfl, hm⟩ := Prod.mk.inj hall
      exact .inl ⟨hm, rfl⟩
  | cons first rest ih =>
      rcases makeAll_cases h s n first rest with
        ⟨next, hnext, heq⟩ | ⟨-, -, heq⟩ | ⟨mid, next, -, -, hmade, heq⟩
      · refine (ih (heq ▸ hall)).imp_left fun hwalk => ⟨?_, hwalk.2⟩
        rw [walk_cons, hnext, Option.bind_some, hwalk.1]
      · cases heq.symm.trans hall
      · rcases ih (heq ▸ hall) with ⟨hwalk, rfl⟩ | hempty
        · cases rest with
          | nil => exact .inr (Option.some.inj hwalk ▸ hmade.empty)
          | cons second rest =>
              rw [walk_of_empty hmade.empty (List.cons_ne_nil _ _)] at hwalk
              cases hwalk
        · exact .inr hempty

/-- Behind the nodes of a path that were walked or made, a name leads on only where it did before. -/
theorem child_of_makeAll {s after : State} {n m o : Node} {path : List Name} {name : Name}
    (hall : M.makeAll s n path = (after, some m)) (hchild : M.child after m name = some o) :
    M.walk s n (path ++ [name]) = some o := by
  rcases makeAll_reached h hall with ⟨hwalk, rfl⟩ | hempty
  · rw [walk_append, hwalk, Option.bind_some, walk_singleton, hchild]
  · rw [child, hempty] at hchild
    cases hchild

/-- A path whose last node is not there. -/
theorem makeAll_concat {s : State} {n : Node} {path : List Name} {name : Name}
    (hwalk : M.walk s n (path ++ [name]) = none) :
    M.makeAll s n (path ++ [name]) = M.create s n path name := by
  rw [makeAll_append h, create]
  cases hall : M.makeAll s n path with
  | mk mid result =>
      cases result with
      | none => rfl
      | some m =>
          rcases makeAll_cases h mid m name [] with
            ⟨o, hchild, -⟩ | ⟨-, hmake, heq⟩ | ⟨after, o, -, hmake, -, heq⟩
          · rw [child_of_makeAll h hall hchild] at hwalk
            cases hwalk
          · exact heq.trans hmake.symm
          · exact heq.trans hmake.symm

/-- A path that leads to a node already. -/
theorem create_of_walk {s : State} {n o : Node} {path : List Name} {name : Name}
    (hwalk : M.walk s n (path ++ [name]) = some o) : M.create s n path name = (s, none) := by
  rw [walk_append] at hwalk
  obtain ⟨m, hm, hchild⟩ := Option.bind_eq_some_iff.mp hwalk
  rw [walk_singleton] at hchild
  rw [create, makeAll_of_walk hm, andThen]
  rcases make_cases h s m name with hmake | ⟨after, o', -, hmade⟩
  · exact hmake
  · rw [child, hmade.free] at hchild
    cases hchild

/-- Where all nodes of a path cannot be walked or made, making one was refused: at a node that was
there, when nothing else was made, or at one that is new. -/
theorem makeAll_refused {s after : State} {n : Node} {path : List Name}
    (hall : M.makeAll s n path = (after, none)) :
    ∃ before name rest k, path = before ++ name :: rest ∧
      M.makeAll s n before = (after, some k) ∧ M.make after k name = (after, none) := by
  induction path generalizing s n with
  | nil => cases hall
  | cons first rest ih =>
      rcases makeAll_cases h s n first rest with
        ⟨next, hnext, heq⟩ | ⟨-, hmake, heq⟩ | ⟨mid, next, hnone, hmade, -, heq⟩
      · obtain ⟨before, name, more, k, rfl, hbefore, hmake⟩ := ih (heq ▸ hall)
        refine ⟨first :: before, name, more, k, rfl, ?_, hmake⟩
        rw [makeAll, hnext]
        exact hbefore
      · obtain ⟨rfl, -⟩ := Prod.mk.inj (heq.symm.trans hall)
        exact ⟨[], first, rest, n, rfl, rfl, hmake⟩
      · obtain ⟨before, name, more, k, rfl, hbefore, hmake⟩ := ih (heq ▸ hall)
        refine ⟨first :: before, name, more, k, rfl, ?_, hmake⟩
        rw [makeAll, hnone, hmade]
        exact hbefore

/-- What a creation leaves behind: the growth of the path, whose last node is new if it was made. -/
theorem create_grown {s after : State} {n : Node} {path : List Name} {name : Name}
    {result : Option Node} (hcreate : M.create s n path name = (after, result)) :
    M.Grown s after n (path ++ [name]) ∧ ∀ m, result = some m →
      M.walk s n (path ++ [name]) = none ∧ M.walk after n (path ++ [name]) = some m := by
  cases hwalk : M.walk s n (path ++ [name]) with
  | some o =>
      obtain ⟨rfl, rfl⟩ := Prod.mk.inj ((create_of_walk h hwalk).symm.trans hcreate)
      exact ⟨.refl s n _, fun m hm => by cases hm⟩
  | none =>
      obtain ⟨hgrown, hlast⟩ := makeAll_grown h ((makeAll_concat h hwalk).trans hcreate)
      exact ⟨hgrown, fun m hm => ⟨rfl, hlast m hm⟩⟩

/-- A creation that fails has changed nothing, or it was refused at a node that it had made. -/
theorem create_refused {s after : State} {n : Node} {path : List Name} {name : Name}
    (hcreate : M.create s n path name = (after, none)) :
    after = s ∨ ∃ before other rest k, path ++ [name] = before ++ other :: rest ∧
      M.makeAll s n before = (after, some k) ∧ (∀ name, M.entry after k name = none) ∧
      M.make after k other = (after, none) := by
  cases hwalk : M.walk s n (path ++ [name]) with
  | some o => exact .inl (Prod.mk.inj ((create_of_walk h hwalk).symm.trans hcreate)).1.symm
  | none =>
      obtain ⟨before, other, rest, k, hpath, hbefore, hmake⟩ :=
        makeAll_refused h ((makeAll_concat h hwalk).trans hcreate)
      rcases makeAll_reached h hbefore with ⟨-, hsame⟩ | hempty
      · exact .inl hsame
      · exact .inr ⟨before, other, rest, k, hpath, hbefore, hempty, hmake⟩

/-- What making a node keeps is kept. -/
theorem makeAll_keeps {I : State → Prop} (hmake : ∀ s n name, I s → I (M.make s n name).1)
    {s after : State} {n : Node} {path : List Name} {result : Option Node} (hs : I s)
    (hall : M.makeAll s n path = (after, result)) : I after := by
  induction path generalizing s n with
  | nil => exact (Prod.mk.inj hall).1 ▸ hs
  | cons name rest ih =>
      rcases makeAll_cases h s n name rest with
        ⟨next, -, heq⟩ | ⟨-, -, heq⟩ | ⟨mid, next, -, hmade, -, heq⟩
      · exact ih hs (heq ▸ hall)
      · exact (Prod.mk.inj (heq.symm.trans hall)).1 ▸ hs
      · have hmid : I mid := by
          have := hmake s n name hs
          rwa [hmade] at this
        exact ih hmid (heq ▸ hall)

/-- What holds of the first node, of what entries open and of what is made holds of the last. -/
theorem makeAll_node {P : Node → Prop} {s after : State} {n m : Node} {path : List Name}
    (hopens : ∀ k other o, M.child s k other = some o → P o)
    (hmake : ∀ s n name o, (M.make s n name).2 = some o → P o)
    (hn : P n) (hall : M.makeAll s n path = (after, some m)) : P m := by
  induction path generalizing s n with
  | nil =>
      obtain ⟨-, hm⟩ := Prod.mk.inj hall
      exact Option.some.inj hm ▸ hn
  | cons name rest ih =>
      rcases makeAll_cases h s n name rest with
        ⟨next, hnext, heq⟩ | ⟨-, -, heq⟩ | ⟨mid, next, -, hmade, hm, heq⟩
      · exact ih hopens (hopens n name next hnext) (heq ▸ hall)
      · cases heq.symm.trans hall
      · have hnew : P next := hmake s n name next (by rw [hmade])
        refine ih (fun k other o hchild => ?_) hnew (heq ▸ hall)
        obtain ⟨e, he, ho⟩ := Option.bind_eq_some_iff.mp hchild
        cases hentry : M.entry s k other with
        | some e' =>
            obtain ⟨hkept, hopens'⟩ := (hm.grown []).kept k other e' hentry
            obtain rfl := Option.some.inj (he.symm.trans hkept)
            refine hopens k other o ?_
            rw [child, hentry, Option.bind_some, ← hopens', ho]
        | none =>
            have heq' : (k, other) = (n, name) := by
              by_contra hne
              rw [hm.entry_eq k other hne, hentry] at he
              cases he
            obtain ⟨rfl, rfl⟩ := Prod.mk.inj heq'
            have := hm.child_new.symm.trans hchild
            exact Option.some.inj this ▸ hnew

end Lawful

end Maker

end XHDF5.Math
