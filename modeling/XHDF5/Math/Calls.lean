/-
# Code that calls a library

Every call of a library or of the operating system comes to a value or fails, which is given. Code
runs on whether or not it looks at the result, and a journal keeps what became of every call. Code
completes when it hands a value on and nothing in the journal has failed.

What code demands for that is read off its text, one rule for each way to put code together.
-/

import XHDF5.Math.Effect

namespace XHDF5.Math

/-- The calls made so far, each with its success, and a memory. -/
structure Journal (κ σ : Type) where
  calls : List (κ × Bool)
  memory : σ

namespace Journal

variable {κ σ : Type}

/-- Nothing has failed. -/
def Clean (j : Journal κ σ) : Prop := ∀ entry ∈ j.calls, entry.2 = true

/-- One more call. -/
def note (c : κ) (granted : Bool) (j : Journal κ σ) : Journal κ σ :=
  { j with calls := j.calls ++ [(c, granted)] }

theorem clean_note {c : κ} {granted : Bool} {j : Journal κ σ} :
    (j.note c granted).Clean ↔ j.Clean ∧ granted = true := by
  simp [Clean, note, or_imp, forall_and]

end Journal

open Journal Effect

section Calls

variable {κ σ ν : Type} (result : κ → Option ν)

/-- A call does not fail. -/
def Granted (c : κ) : Prop := (result c).isSome = true

instance (c : κ) : Decidable (Granted result c) := inferInstanceAs (Decidable (_ = true))

/-- A call that comes to a value, or fails. -/
def outcome (c : κ) (value : Option ν) : Effect (Journal κ σ) (Option ν) :=
  fun j => (some value, j.note c value.isSome)

/-- One call. -/
def call (c : κ) : Effect (Journal κ σ) (Option ν) := outcome c (result c)

/-- Calls whose results nothing looks at. -/
def performs : List κ → Effect (Journal κ σ) PUnit
  | [] => pure ⟨⟩
  | c :: cs => call result c >>= fun _ => performs cs

/-- A change of the memory. -/
def store (f : σ → σ) : Effect (Journal κ σ) PUnit := update fun j => { j with memory := f j.memory }

/-- What the memory has. -/
def load : Effect (Journal κ σ) σ := fun j => (some j.memory, j)

/-- Code of a process of its own, whose early death is noted and stops nothing else. -/
def isolated {α : Type} (ends : κ) (m : Effect (Journal κ σ) α) : Effect (Journal κ σ) PUnit := fun j =>
  (some ⟨⟩, match m j with
    | (none, j') => j'.note ends false
    | (some _, j') => j')

theorem performs_append (cs ds : List κ) :
    (performs result (cs ++ ds) : Effect (Journal κ σ) _) =
      performs result cs >>= fun _ => performs result ds := by
  induction cs with
  | nil => rfl
  | cons c cs ih =>
      rw [List.cons_append, performs, ih]
      rfl

theorem performs_apply (cs : List κ) (j : Journal κ σ) :
    performs result cs j =
      (some ⟨⟩, { j with calls := j.calls ++ cs.map fun c => (c, (result c).isSome) }) := by
  induction cs generalizing j with
  | nil => simp [performs, pure]
  | cons c cs ih => simp [performs, bind_apply, call, outcome, ih, note]

theorem clean_performs (cs : List κ) (j : Journal κ σ) :
    (performs result cs j).2.Clean ↔ j.Clean ∧ ∀ c ∈ cs, Granted result c := by
  simp [performs_apply, Clean, or_imp, forall_and, Granted]

theorem call_bind {α : Type} (c : κ) (f : Option ν → Effect (Journal κ σ) α) (j : Journal κ σ) :
    (call result c >>= f) j = f (result c) (j.note c (result c).isSome) := rfl

theorem performs_bind {α : Type} (cs : List κ) (f : PUnit → Effect (Journal κ σ) α)
    (j : Journal κ σ) : (performs result cs >>= f) j = f ⟨⟩ (performs result cs j).2 :=
  bind_of_some (by rw [performs_apply]) f

theorem memory_performs (cs : List κ) (j : Journal κ σ) :
    (performs result cs j).2.memory = j.memory := by
  rw [performs_apply]

theorem store_bind {α : Type} (g : σ → σ) (f : PUnit → Effect (Journal κ σ) α) (j : Journal κ σ) :
    (store g >>= f) j = f ⟨⟩ { j with memory := g j.memory } := rfl

theorem load_bind {α : Type} (f : σ → Effect (Journal κ σ) α) (j : Journal κ σ) :
    (load >>= f) j = f j.memory j := rfl

/-- The death of a process changes nothing that it has left. -/
theorem memory_isolated {α : Type} (ends : κ) (m : Effect (Journal κ σ) α) (j : Journal κ σ) :
    (isolated ends m j).2.memory = (m j).2.memory := by
  rw [isolated]
  split
  · next heq => rw [heq]; rfl
  · next heq => rw [heq]

/-! ## Completion -/

/-- Code comes to its end, and nothing has failed. -/
def Completes {α : Type} (m : Effect (Journal κ σ) α) (j : Journal κ σ) : Prop :=
  (m j).1.isSome = true ∧ (m j).2.Clean

/-- What code needs to complete, of the memory and of everything else. -/
def Demands {α : Type} (m : Effect (Journal κ σ) α) (P : σ → Prop) : Prop :=
  ∀ j, Completes m j ↔ j.Clean ∧ P j.memory

section Rules

variable {result} {α β : Type} {m : Effect (Journal κ σ) α} {f : α → Effect (Journal κ σ) β}
  {P Q : σ → Prop}

theorem Demands.of_iff (h : Demands m P) (hiff : ∀ s, P s ↔ Q s) : Demands m Q :=
  fun j => (h j).trans (and_congr_right fun _ => hiff _)

theorem completes_bind_of_some {j : Journal κ σ} {value : α} (h : (m j).1 = some value) :
    Completes (m >>= f) j ↔ Completes (f value) (m j).2 := by
  rw [Completes, bind_of_some h]
  rfl

theorem demands_pure (value : α) : Demands (pure value : Effect (Journal κ σ) α) fun _ => True := by
  intro j
  simp [Completes, pure]

theorem demands_fail : Demands (fail : Effect (Journal κ σ) α) fun _ => False := by
  intro j
  simp [Completes, fail]

theorem demands_performs (cs : List κ) :
    Demands (performs result cs : Effect (Journal κ σ) _) fun _ => ∀ c ∈ cs, Granted result c := by
  intro j
  rw [Completes, clean_performs, performs_apply]
  exact and_iff_right rfl

/-- A sequence demands what its parts demand, where the memory does not matter to the second. -/
theorem demands_bind {R : Prop} (hm : Demands m P) (hf : ∀ value, Demands (f value) fun _ => R) :
    Demands (m >>= f) fun s => P s ∧ R := by
  intro j
  rw [← and_assoc, ← hm j]
  cases hvalue : (m j).1 with
  | none => simp [Completes, bind_of_none hvalue, hvalue]
  | some value =>
      rw [completes_bind_of_some hvalue, hf value, Completes, hvalue]
      simp

theorem demands_outcome_bind {c : κ} {value : Option ν} {f : Option ν → Effect (Journal κ σ) β}
    (hf : Demands (f value) Q) :
    Demands (outcome c value >>= f) fun s => value.isSome = true ∧ Q s := by
  intro j
  refine (hf (j.note c value.isSome)).trans ?_
  rw [clean_note, and_assoc]
  rfl

theorem demands_call_bind {c : κ} {f : Option ν → Effect (Journal κ σ) β}
    (hf : Demands (f (result c)) Q) :
    Demands (call result c >>= f) fun s => Granted result c ∧ Q s :=
  demands_outcome_bind hf

/-- Behind a test of the result only the case without a failure counts. -/
theorem demands_tested_bind {c : κ} {a b : Effect (Journal κ σ) β} (ha : Demands a P)
    (hb : Demands b Q) :
    Demands (call result c >>= fun value => if value.isNone then a else b) fun s =>
      Granted result c ∧ Q s := by
  intro j
  cases hc : result c with
  | some value =>
      have hgo : Demands (if (result c).isNone then a else b) Q := by simpa [hc] using hb
      exact demands_call_bind (f := fun value => if value.isNone then a else b) hgo j
  | none =>
      have hgo : Demands (if (result c).isNone then a else b) P := by simpa [hc] using ha
      rw [demands_call_bind (f := fun value => if value.isNone then a else b) hgo j]
      simp [Granted, hc]

theorem demands_performs_bind {cs : List κ} {f : PUnit → Effect (Journal κ σ) β}
    (hf : Demands (f ⟨⟩) Q) :
    Demands (performs result cs >>= f) fun s => (∀ c ∈ cs, Granted result c) ∧ Q s := by
  intro j
  rw [completes_bind_of_some (by rw [performs_apply]), hf, clean_performs, and_assoc,
    performs_apply]

theorem demands_guard (b : Bool) :
    Demands (Effect.guard b : Effect (Journal κ σ) _) fun _ => b = true := by
  cases b with
  | false => exact demands_fail.of_iff fun _ => by simp
  | true => exact (demands_pure _).of_iff fun _ => by simp

theorem demands_guard_bind {b : Bool} {f : PUnit → Effect (Journal κ σ) β} (hf : Demands (f ⟨⟩) Q) :
    Demands (Effect.guard b >>= f) fun s => b = true ∧ Q s := by
  intro j
  cases b with
  | false => simp [Effect.guard, Completes, bind_apply, fail]
  | true => exact (hf j).trans (and_congr_right fun _ => (and_iff_right rfl).symm)

theorem demands_store_bind {g : σ → σ} {f : PUnit → Effect (Journal κ σ) β} (hf : Demands (f ⟨⟩) Q) :
    Demands (store g >>= f) fun s => Q (g s) := fun j => hf { j with memory := g j.memory }

theorem demands_load_bind {Q : σ → σ → Prop} {f : σ → Effect (Journal κ σ) β}
    (hf : ∀ s, Demands (f s) (Q s)) : Demands (load >>= f) fun s => Q s s := fun j => hf j.memory j

/-- A process of its own has to complete, too. What comes behind it finds the memory that it left. -/
theorem demands_isolated_bind {ends : κ} {f : PUnit → Effect (Journal κ σ) β} {R : Prop}
    (hm : Demands m P) (hf : Demands (f ⟨⟩) Q)
    (hleft : ∀ j, Completes m j → (Q (m j).2.memory ↔ R)) :
    Demands (isolated ends m >>= f) fun s => P s ∧ R := by
  intro j
  rw [← and_assoc, ← hm j, completes_bind_of_some rfl, hf]
  cases hrun : m j with
  | mk value j' =>
      cases value with
      | none => simp [Completes, isolated, hrun, clean_note]
      | some value =>
          have hleft := hleft j
          simp only [Completes, isolated, hrun, Option.isSome_some, true_and] at hleft ⊢
          exact and_congr_right hleft

/-- The last part of a sequence leaves the memory. -/
theorem memory_bind {s₁ : σ}
    (hf : ∀ value j, Completes (f value) j → (f value j).2.memory = s₁) (j : Journal κ σ)
    (h : Completes (m >>= f) j) : ((m >>= f) j).2.memory = s₁ := by
  cases hvalue : (m j).1 with
  | none =>
      rw [Completes, bind_of_none hvalue] at h
      cases h.1
  | some value =>
      rw [completes_bind_of_some hvalue] at h
      rw [bind_of_some hvalue]
      exact hf value _ h

end Rules

end Calls

end XHDF5.Math
