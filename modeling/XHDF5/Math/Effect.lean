/-
# Code with effects

A piece of code changes a state, and hands a value on or fails. What it did before it failed stays
done. The rules below follow the shape of the code: a relation between the state before and the state
after that may be repeated holds of a whole piece when it holds of its parts.
-/

import Mathlib.Order.Defs.Unbundled

namespace XHDF5.Math

universe u v

/-- Code on a state: a value, unless it fails, and the new state. -/
def Effect (σ : Type u) (α : Type v) : Type (max u v) := σ → Option α × σ

namespace Effect

variable {σ : Type u} {α β : Type v}

instance : Monad (Effect σ) where
  pure value s := (some value, s)
  bind m f s :=
    match m s with
    | (none, s') => (none, s')
    | (some value, s') => f value s'

/-- Code that fails. -/
def fail : Effect σ α := fun s => (none, s)

/-- Code that fails unless a condition holds. -/
def guard (b : Bool) : Effect σ PUnit := if b then pure ⟨⟩ else fail

/-- Code that changes the state. -/
def update (f : σ → σ) : Effect σ PUnit := fun s => (some ⟨⟩, f s)

/-- Code whose failure does not matter. -/
def ignore (m : Effect σ α) : Effect σ PUnit := fun s => (some ⟨⟩, (m s).2)

/-- Code that changes the state at its end, also when it fails. -/
def ensuring (m : Effect σ α) (f : σ → σ) : Effect σ α := fun s => ((m s).1, f (m s).2)

/-- The same code for each element of a list. -/
def each {γ : Type u} (f : γ → Effect σ PUnit) : List γ → Effect σ PUnit
  | [] => pure ⟨⟩
  | x :: xs => f x >>= fun _ => each f xs

theorem bind_apply (m : Effect σ α) (f : α → Effect σ β) (s : σ) :
    (m >>= f) s = match m s with
      | (none, s') => (none, s')
      | (some value, s') => f value s' := rfl

theorem bind_of_none {m : Effect σ α} {s : σ} (h : (m s).1 = none) (f : α → Effect σ β) :
    (m >>= f) s = (none, (m s).2) := by
  rw [bind_apply]
  split
  · next hm => rw [hm]
  · next hm => rw [hm] at h; cases h

theorem bind_of_some {m : Effect σ α} {s : σ} {value : α} (h : (m s).1 = some value)
    (f : α → Effect σ β) : (m >>= f) s = f value (m s).2 := by
  rw [bind_apply]
  split
  · next hm => rw [hm] at h; cases h
  · next hm =>
      rw [hm] at h
      cases h
      rw [hm]

theorem bind_assoc {γ : Type v} (m : Effect σ α) (f : α → Effect σ β) (g : β → Effect σ γ) :
    m >>= f >>= g = m >>= fun value => f value >>= g := by
  funext s
  cases hvalue : (m s).1 with
  | none => rw [bind_of_none (bind_of_none hvalue f ▸ rfl), bind_of_none hvalue, bind_of_none hvalue]
  | some value =>
      rw [bind_of_some hvalue, bind_apply, bind_of_some hvalue]
      rfl

theorem pure_bind (value : α) (f : α → Effect σ β) : (pure value >>= f : Effect σ β) = f value := rfl

theorem guard_bind (b : Bool) (f : PUnit → Effect σ β) (s : σ) :
    (guard b >>= f) s = if b then f ⟨⟩ s else (none, s) := by
  cases b <;> rfl

theorem ite_bind {p : Prop} [Decidable p] (m m' : Effect σ α) (f : α → Effect σ β) :
    (if p then m else m') >>= f = if p then m >>= f else m' >>= f := by
  split <;> rfl

/-! ## What code does to the state -/

/-- Code moves a state only along a relation. -/
def Moves (R : σ → σ → Prop) (m : Effect σ α) : Prop := ∀ s, R s (m s).2

/-- Code never hands a value on. -/
def Fails (m : Effect σ α) : Prop := ∀ s, (m s).1 = none

/-- Where code hands a value on, a property holds. -/
def Gives (P : σ → Prop) (m : Effect σ α) : Prop := ∀ s, (m s).1.isSome → P (m s).2

section Rules

variable {R : σ → σ → Prop} {m : Effect σ α} {f : α → Effect σ β}

theorem moves_pure [Std.Refl R] (value : α) : Moves R (pure value : Effect σ α) := fun s => refl_of R s

theorem moves_fail [Std.Refl R] : Moves R (fail : Effect σ α) := fun s => refl_of R s

theorem moves_bind [IsTrans σ R] (hm : Moves R m) (hf : ∀ value, Moves R (f value)) :
    Moves R (m >>= f) := by
  intro s
  cases hvalue : (m s).1 with
  | none => rw [bind_of_none hvalue]; exact hm s
  | some value => rw [bind_of_some hvalue]; exact trans_of R (hm s) (hf value _)

/-- What stands behind a condition may rely on it. -/
theorem moves_guard_bind [Std.Refl R] {b : Bool} {f : PUnit → Effect σ β}
    (hf : b = true → Moves R (f ⟨⟩)) : Moves R (guard b >>= f) := by
  intro s
  cases b with
  | false => exact refl_of R s
  | true => exact hf rfl s

theorem moves_ignore (hm : Moves R m) : Moves R (ignore m) := fun s => hm s

theorem moves_ensuring [IsTrans σ R] {g : σ → σ} (hm : Moves R m) (hg : ∀ s, R s (g s)) :
    Moves R (ensuring m g) := fun s => trans_of R (hm s) (hg _)

theorem moves_each [IsPreorder σ R] {γ : Type u} {f : γ → Effect σ PUnit} {xs : List γ}
    (hf : ∀ x ∈ xs, Moves R (f x)) : Moves R (each f xs) := by
  induction xs with
  | nil => exact moves_pure _
  | cons x xs ih =>
      exact moves_bind (hf x List.mem_cons_self) fun _ =>
        ih fun y hy => hf y (List.mem_cons_of_mem x hy)

section Gives

variable {P : σ → Prop}

theorem gives_bind_right (hf : ∀ value, Gives P (f value)) : Gives P (m >>= f) := by
  intro s hs
  cases hvalue : (m s).1 with
  | none => rw [bind_of_none hvalue] at hs; cases hs
  | some value =>
      rw [bind_of_some hvalue] at hs ⊢
      exact hf value _ hs

/-- What holds after the first part is kept by the rest. -/
theorem gives_bind_left (hm : Gives P m) (hf : ∀ value s, P s → P (f value s).2) :
    Gives P (m >>= f) := by
  intro s hs
  cases hvalue : (m s).1 with
  | none => rw [bind_of_none hvalue] at hs; cases hs
  | some value =>
      rw [bind_of_some hvalue]
      exact hf value _ (hm s (by rw [hvalue]; rfl))

end Gives

theorem fails_fail : Fails (fail : Effect σ α) := fun _ => rfl

theorem fails_bind (hm : Fails m) : Fails (m >>= f) := fun s => by rw [bind_of_none (hm s)]

theorem fails_bind_right (hf : ∀ value, Fails (f value)) : Fails (m >>= f) := by
  intro s
  cases hvalue : (m s).1 with
  | none => rw [bind_of_none hvalue]
  | some value => rw [bind_of_some hvalue, hf value]

theorem fails_guard {b : Bool} (hb : b = false) : Fails (guard b : Effect σ PUnit) := by
  rw [hb]
  exact fails_fail

theorem fails_ensuring (hm : Fails m) (g : σ → σ) : Fails (ensuring m g) := fun s => hm s

/-- One of the parts of a loop fails, and with it the loop. -/
theorem fails_each {γ : Type u} {f : γ → Effect σ PUnit} {xs : List γ} {x : γ} (hx : x ∈ xs)
    (hf : Fails (f x)) : Fails (each f xs) := by
  induction xs with
  | nil => cases hx
  | cons y xs ih =>
      rcases List.mem_cons.mp hx with rfl | hx
      · exact fails_bind hf
      · exact fails_bind_right fun _ => ih hx

end Rules

end Effect

end XHDF5.Math
