/-
# Outcomes and runs

A piece of code has no defined result, fails, or hands a value on. A state takes the events of a
list one after the other; a step that has no defined result ends the run. The rules below carry a
condition or an invariant along all of its steps.
-/

namespace XHDF5.Math

universe u v

/-! ## Outcomes -/

/-- The result of a piece of the code: no defined result, a jump to `done` with `FAIL`, or a
value. -/
inductive Outcome (α : Type u)
  | undefined
  | fail
  | ok (value : α)
deriving DecidableEq

namespace Outcome

variable {α β : Type u}

/-- Continue with the value. -/
def bind : Outcome α → (α → Outcome β) → Outcome β
  | undefined, _ => undefined
  | fail, _ => fail
  | ok value, f => f value

@[simp] theorem ok_bind (value : α) (f : α → Outcome β) : (ok value).bind f = f value := rfl

@[simp] theorem fail_bind (f : α → Outcome β) : (fail : Outcome α).bind f = fail := rfl

theorem bind_eq_ok_iff {x : Outcome α} {f : α → Outcome β} {result : β} :
    x.bind f = ok result ↔ ∃ value, x = ok value ∧ f value = ok result := by
  cases x with
  | undefined | fail =>
      refine iff_of_false (fun h => ?_) fun h => ?_
      · cases h
      · obtain ⟨_, h, _⟩ := h
        cases h
  | ok value =>
      constructor
      · exact fun h => ⟨value, rfl, h⟩
      · rintro ⟨_, h, hf⟩
        exact Outcome.ok.inj h ▸ hf

theorem bind_ne_undefined {x : Outcome α} {f : α → Outcome β} (hx : x ≠ undefined)
    (hf : ∀ value, x = ok value → f value ≠ undefined) : x.bind f ≠ undefined := by
  cases x with
  | undefined => exact absurd rfl hx
  | fail => exact fun h => by cases h
  | ok value => exact hf value rfl

/-- The values for the elements of a list, up to the first that has none. -/
def traverse {γ : Type v} (f : γ → Outcome β) : List γ → Outcome (List β)
  | [] => ok []
  | x :: xs => (f x).bind fun y => (traverse f xs).bind fun ys => ok (y :: ys)

end Outcome

/-! ## Runs -/

variable {σ : Type u} {ε : Type v} (step : σ → ε → Option σ)

/-- A condition that holds at every step of the run. -/
def Along (P : σ → ε → Prop) : List ε → σ → Prop
  | [], _ => True
  | e :: es, s => P s e ∧ ∀ s', step s e = some s' → Along P es s'

/-- A property of every state of the run. -/
def Throughout (I : σ → Prop) : List ε → σ → Prop
  | [], s => I s
  | e :: es, s => I s ∧ ∀ s', step s e = some s' → Throughout I es s'

/-- The states that allowed steps lead to. -/
inductive Reachable (A : σ → ε → Prop) (start : σ) : σ → Prop
  | start : Reachable A start start
  | next {s s' : σ} {e : ε} (h : Reachable A start s) (hA : A s e) (hstep : step s e = some s') :
      Reachable A start s'

instance decidableAlong (P : σ → ε → Prop) [∀ s e, Decidable (P s e)] :
    ∀ (es : List ε) (s : σ), Decidable (Along step P es s)
  | [], _ => isTrue trivial
  | e :: es, s =>
      have : Decidable (∀ s', step s e = some s' → Along step P es s') :=
        match h : step s e with
        | none => isTrue fun _ hstep => by cases hstep
        | some s' =>
            have := decidableAlong P es s'
            decidable_of_iff (Along step P es s')
              ⟨fun h _ hstep => Option.some.inj hstep ▸ h, fun h => h s' rfl⟩
      inferInstanceAs (Decidable (_ ∧ _))

variable {step} {A C Q : σ → ε → Prop} {I : σ → Prop} {es : List ε} {s : σ}

/-- A condition of every step holds along every run. -/
theorem along_of_forall (h : ∀ s e, A s e) (es : List ε) (s : σ) : Along step A es s := by
  induction es generalizing s with
  | nil => trivial
  | cons e es ih => exact ⟨h s e, fun s' _ => ih s'⟩

/-- A condition that follows from another one at each step follows along every run. -/
theorem Along.imp (himp : ∀ s e, C s e → Q s e) (h : Along step C es s) : Along step Q es s := by
  induction es generalizing s with
  | nil => trivial
  | cons e es ih => exact ⟨himp s e h.1, fun s' hs' => ih (h.2 s' hs')⟩

/-- An invariant that the allowed steps keep under a condition holds throughout every run whose
steps meet it. -/
theorem throughout_of_along
    (hstep : ∀ s e s', I s → A s e → C s e → step s e = some s' → I s') (hs : I s)
    (hA : Along step A es s) (hC : Along step C es s) : Throughout step I es s := by
  induction es generalizing s with
  | nil => exact hs
  | cons e es ih =>
      refine ⟨hs, fun s' hs' => ?_⟩
      exact ih (hstep s e s' hs hA.1 hC.1 hs') (hA.2 s' hs') (hC.2 s' hs')

/-- What the steps of an invariant do when they meet a condition, they do along every run that
meets it. -/
theorem along_of_along (hQ : ∀ s e, I s → A s e → C s e → Q s e)
    (hstep : ∀ s e s', I s → A s e → C s e → step s e = some s' → I s') (hs : I s)
    (hA : Along step A es s) (hC : Along step C es s) : Along step Q es s := by
  induction es generalizing s with
  | nil => trivial
  | cons e es ih =>
      refine ⟨hQ s e hs hA.1 hC.1, fun s' hs' => ?_⟩
      exact ih (hstep s e s' hs hA.1 hC.1 hs') (hA.2 s' hs') (hC.2 s' hs')

/-- Two conditions that agree on the states of an invariant, which the steps meeting the second
keep, agree on whole runs. -/
theorem along_iff_along (hiff : ∀ s e, I s → A s e → (Q s e ↔ C s e))
    (hstep : ∀ s e s', I s → A s e → C s e → step s e = some s' → I s') (hs : I s)
    (hA : Along step A es s) : Along step Q es s ↔ Along step C es s := by
  induction es generalizing s with
  | nil => exact Iff.rfl
  | cons e es ih =>
      have hnext : C s e → ∀ s', step s e = some s' → (Along step Q es s' ↔ Along step C es s') :=
        fun hC s' hs' => ih (hstep s e s' hs hA.1 hC hs') (hA.2 s' hs')
      constructor
      · rintro ⟨hQ, hrest⟩
        have hC := (hiff s e hs hA.1).1 hQ
        exact ⟨hC, fun s' hs' => (hnext hC s' hs').1 (hrest s' hs')⟩
      · rintro ⟨hC, hrest⟩
        exact ⟨(hiff s e hs hA.1).2 hC, fun s' hs' => (hnext hC s' hs').2 (hrest s' hs')⟩

/-- An invariant that the allowed steps keep holds in every state that they lead to. -/
theorem Reachable.invariant {start : σ} (h : Reachable step A start s) (hstart : I start)
    (hstep : ∀ s e s', I s → A s e → step s e = some s' → I s') : I s := by
  induction h with
  | start => exact hstart
  | next h hA hnext ih => exact hstep _ _ _ ih hA hnext

/-- A property that follows from an invariant holds wherever the invariant does. -/
theorem Throughout.imp {J : σ → Prop} (himp : ∀ s, I s → J s) (h : Throughout step I es s) :
    Throughout step J es s := by
  induction es generalizing s with
  | nil => exact himp s h
  | cons e es ih => exact ⟨himp s h.1, fun s' hs' => ih (h.2 s' hs')⟩

end XHDF5.Math
