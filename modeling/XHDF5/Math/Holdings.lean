/-
# What the variables of code hold

Code keeps what it acquires in variables. A ledger knows what is held, the variables point to it.
Nothing comes to an end by itself: what no variable points to any more stays held, a variable may
still point to what was released, and two variables may point to the same thing.

Code that meets an error goes to its end, where it releases what its variables point to. Whether
everything is released once then depends on what was lost on the way and on what the end forgets.
-/

import XHDF5.Math.Effect
import XHDF5.Math.Ledger
import Mathlib.Logic.Function.Basic

namespace XHDF5.Math

namespace Ledger

variable {id other : Nat} {l : Ledger}

theorem release_of_mem (h : id ∈ l.held) : (l.release id).held = l.held.erase id ∧
    (l.release id).strays = l.strays ∧ (l.release id).next = l.next := by
  rw [release, if_pos h]
  exact ⟨rfl, rfl, rfl⟩

theorem release_next (id : Nat) (l : Ledger) : (l.release id).next = l.next := by
  unfold release
  split <;> rfl

theorem release_nodup (id : Nat) (h : l.held.Nodup) : (l.release id).held.Nodup := by
  unfold release
  split
  · exact h.erase id
  · exact h

/-- A release takes nothing else away. -/
theorem mem_release (hmem : other ∈ l.held) (hne : other ≠ id) : other ∈ (l.release id).held := by
  unfold release
  split
  · exact (List.mem_erase_of_ne hne).mpr hmem
  · exact hmem

theorem acquire_nodup (h : l.held.Nodup) : l.acquire.held.Nodup :=
  List.nodup_cons.mpr ⟨fun hmem => Nat.lt_irrefl _ (l.held_lt _ hmem), h⟩

end Ledger

/-- Variables, what they point to, and what is held. Code is stuck when it has done something
undefined or waits for ever. -/
structure Holdings (ν : Type) where
  points : ν → Option Nat
  ledger : Ledger
  stuck : Bool
  points_lt : ∀ n id, points n = some id → id < ledger.next
  nodup : ledger.held.Nodup

namespace Holdings

variable {ν : Type} {n m : ν} {s s' : Holdings ν}

/-- No variable points to anything. -/
def empty : Holdings ν := ⟨fun _ => none, .empty, false, nofun, List.nodup_nil⟩

/-- What a variable points to is released; the variable still points to it. -/
def free (n : ν) (s : Holdings ν) : Holdings ν :=
  match s.points n with
  | none => s
  | some id => {
      points := s.points
      ledger := s.ledger.release id
      stuck := s.stuck
      points_lt m other h := by
        rw [Ledger.release_next]
        exact s.points_lt m other h
      nodup := Ledger.release_nodup id s.nodup }

/-- Code is stuck. -/
def stick (s : Holdings ν) : Holdings ν := { s with stuck := true }

/-- Everything that was acquired was released once, and nothing else was released. -/
def Settled (s : Holdings ν) : Prop :=
  s.ledger.held = [] ∧ s.ledger.strays = [] ∧ s.stuck = false

/-- What a variable points to is released. -/
def release (n : ν) : Effect (Holdings ν) Unit := Effect.update (free n)

/-- A variable that points to nothing is an error. -/
def demand (n : ν) : Effect (Holdings ν) Unit := fun s => Effect.guard (s.points n).isSome s

/-- Code is stuck unless a condition holds. -/
def orStuck (b : Bool) : Effect (Holdings ν) Unit :=
  if b then pure ⟨⟩ else Effect.update stick >>= fun _ => Effect.fail

/-- Code that is left out unless a condition holds. -/
def onlyIf (b : Bool) (m : Effect (Holdings ν) Unit) : Effect (Holdings ν) Unit :=
  if b then m else pure ⟨⟩

/-- Code is followed by its end, also when it meets an error. -/
def endingWith (m d : Effect (Holdings ν) Unit) : Effect (Holdings ν) Unit :=
  Effect.ensuring m fun s => (d s).2

section Variables

variable [DecidableEq ν]

/-- A variable points to something new. -/
def assign (n : ν) (s : Holdings ν) : Holdings ν where
  points := Function.update s.points n (some s.ledger.next)
  ledger := s.ledger.acquire
  stuck := s.stuck
  points_lt m id h := by
    rw [Function.update_apply] at h
    split at h
    · cases h
      exact Nat.lt_succ_self _
    · exact Nat.lt_succ_of_lt (s.points_lt m id h)
  nodup := Ledger.acquire_nodup s.nodup

/-- A variable points to what another one points to. -/
def share (n m : ν) (s : Holdings ν) : Holdings ν where
  points := Function.update s.points n (s.points m)
  ledger := s.ledger
  stuck := s.stuck
  points_lt k id h := by
    rw [Function.update_apply] at h
    split at h
    · exact s.points_lt m id h
    · exact s.points_lt k id h
  nodup := s.nodup

/-- A variable points to nothing. -/
def clear (n : ν) (s : Holdings ν) : Holdings ν where
  points := Function.update s.points n none
  ledger := s.ledger
  stuck := s.stuck
  points_lt m id h := by
    rw [Function.update_apply] at h
    split at h
    · cases h
    · exact s.points_lt m id h
  nodup := s.nodup

/-- A variable is set to something new, or to nothing when that is not granted. -/
def take (n : ν) (granted : Bool) : Effect (Holdings ν) Unit :=
  Effect.update (if granted then assign n else clear n)

/-- A variable is set, and what is not granted is an error. -/
def require (n : ν) (granted : Bool) : Effect (Holdings ν) Unit := do
  take n granted
  Effect.guard granted

/-- What a variable points to becomes larger, or the variable is set to nothing. -/
def extend (n : ν) (granted : Bool) : Effect (Holdings ν) Unit :=
  Effect.update fun s =>
    if granted then if (s.points n).isSome then s else s.assign n else s.clear n

/-- What a variable points to is released, and the variable is set to nothing. -/
def dispose (n : ν) : Effect (Holdings ν) Unit := Effect.update fun s => (s.free n).clear n

end Variables

section Points

@[simp] theorem free_points (n : ν) (s : Holdings ν) : (s.free n).points = s.points := by
  unfold free
  split <;> rfl

variable [DecidableEq ν]

@[simp] theorem assign_points_self (n : ν) (s : Holdings ν) :
    (s.assign n).points n = some s.ledger.next := Function.update_self ..

theorem assign_points_of_ne (h : m ≠ n) (s : Holdings ν) : (s.assign n).points m = s.points m :=
  Function.update_of_ne h ..

@[simp] theorem share_points_self (n m : ν) (s : Holdings ν) :
    (s.share n m).points n = s.points m := Function.update_self ..

theorem share_points_of_ne {k : ν} (h : k ≠ n) (m : ν) (s : Holdings ν) :
    (s.share n m).points k = s.points k := Function.update_of_ne h ..

@[simp] theorem clear_points_self (n : ν) (s : Holdings ν) : (s.clear n).points n = none :=
  Function.update_self ..

theorem clear_points_of_ne (h : m ≠ n) (s : Holdings ν) : (s.clear n).points m = s.points m :=
  Function.update_of_ne h ..

end Points

/-! ## What stays -/

/-- What a variable points to is held, and no other variable points to it. -/
def Holds (n : ν) (s : Holdings ν) : Prop :=
  ∃ id, s.points n = some id ∧ id ∈ s.ledger.held ∧ ∀ m, s.points m = some id → m = n

/-- Code that is stuck stays stuck, and a variable holds what it held before. -/
structure Retains (n : ν) (s s' : Holdings ν) : Prop where
  stuck : s.stuck = true → s'.stuck = true
  holds : Holds n s → Holds n s'

instance (n : ν) : IsPreorder (Holdings ν) (Retains n) where
  refl _ := ⟨id, id⟩
  trans _ _ _ hst htu := ⟨htu.stuck ∘ hst.stuck, htu.holds ∘ hst.holds⟩

theorem Holds.not_settled (h : Holds n s) : ¬ s.Settled := by
  obtain ⟨id, -, hheld, -⟩ := h
  intro hsettled
  rw [hsettled.1] at hheld
  cases hheld

theorem not_settled_of_stuck (h : s.stuck = true) : ¬ s.Settled := by
  intro hsettled
  rw [hsettled.2.2] at h
  cases h

theorem free_stuck (n : ν) (s : Holdings ν) : (s.free n).stuck = s.stuck := by
  unfold free
  split <;> rfl

theorem retains_free (hne : m ≠ n) (s : Holdings ν) : Retains n s (s.free m) := by
  refine ⟨fun h => (free_stuck m s).trans h, ?_⟩
  rintro ⟨id, hpoints, hheld, hsole⟩
  unfold free
  split
  · exact ⟨id, hpoints, hheld, hsole⟩
  · next other hother =>
      exact ⟨id, hpoints, Ledger.mem_release hheld fun heq => hne (hsole m (heq ▸ hother)), hsole⟩

theorem retains_release (hne : m ≠ n) : (release m).Moves (Retains n) := retains_free hne

theorem retains_guard (b : Bool) :
    (Effect.guard b : Effect (Holdings ν) Unit).Moves (Retains n) := by
  cases b with
  | false => exact Effect.moves_fail
  | true => exact Effect.moves_pure _

theorem retains_demand (m : ν) : (demand m).Moves (Retains n) := fun s => retains_guard _ s

theorem retains_orStuck (b : Bool) : (orStuck b).Moves (Retains n) := by
  cases b with
  | false => exact fun s => ⟨fun _ => rfl, id⟩
  | true => exact Effect.moves_pure _

theorem retains_onlyIf {b : Bool} {m : Effect (Holdings ν) Unit} (hm : m.Moves (Retains n)) :
    (onlyIf b m).Moves (Retains n) := by
  cases b with
  | false => exact Effect.moves_pure _
  | true => exact hm

theorem retains_endingWith {m d : Effect (Holdings ν) Unit} (hm : m.Moves (Retains n))
    (hd : d.Moves (Retains n)) : (endingWith m d).Moves (Retains n) :=
  Effect.moves_ensuring hm hd

section Variables

variable [DecidableEq ν]

theorem holds_assign (n : ν) (s : Holdings ν) : Holds n (s.assign n) := by
  refine ⟨s.ledger.next, assign_points_self n s, List.mem_cons_self, fun m hm => ?_⟩
  by_contra hne
  rw [assign_points_of_ne hne] at hm
  exact Nat.lt_irrefl _ (s.points_lt m _ hm)

theorem retains_assign (hne : m ≠ n) (s : Holdings ν) : Retains n s (s.assign m) := by
  refine ⟨id, ?_⟩
  rintro ⟨id, hpoints, hheld, hsole⟩
  refine ⟨id, (assign_points_of_ne hne.symm s).trans hpoints, List.mem_cons_of_mem _ hheld,
    fun k hk => ?_⟩
  by_cases hkm : k = m
  · rw [hkm, assign_points_self, Option.some.injEq] at hk
    exact absurd (s.points_lt n id hpoints) (hk ▸ Nat.lt_irrefl _)
  · rw [assign_points_of_ne hkm] at hk
    exact hsole k hk

theorem retains_clear (hne : m ≠ n) (s : Holdings ν) : Retains n s (s.clear m) := by
  refine ⟨id, ?_⟩
  rintro ⟨id, hpoints, hheld, hsole⟩
  refine ⟨id, (clear_points_of_ne hne.symm s).trans hpoints, hheld, fun k hk => ?_⟩
  by_cases hkm : k = m
  · rw [hkm, clear_points_self] at hk
    cases hk
  · rw [clear_points_of_ne hkm] at hk
    exact hsole k hk

/-- Another variable may come to point to what a third one points to. -/
theorem retains_share {k : ν} (hne : m ≠ n) (hk : k ≠ n) (s : Holdings ν) :
    Retains n s (s.share m k) := by
  refine ⟨id, ?_⟩
  rintro ⟨id, hpoints, hheld, hsole⟩
  refine ⟨id, (share_points_of_ne hne.symm k s).trans hpoints, hheld, fun j hj => ?_⟩
  by_cases hjm : j = m
  · rw [hjm, share_points_self] at hj
    exact absurd (hsole k hj) hk
  · rw [share_points_of_ne hjm] at hj
    exact hsole j hj

theorem retains_take (hne : m ≠ n) (granted : Bool) : (take m granted).Moves (Retains n) := by
  cases granted with
  | false => exact retains_clear hne
  | true => exact retains_assign hne

theorem retains_require (hne : m ≠ n) (granted : Bool) :
    (require m granted).Moves (Retains n) :=
  Effect.moves_bind (retains_take hne granted) fun _ => retains_guard _

theorem retains_extend (hne : m ≠ n) (granted : Bool) :
    (extend m granted).Moves (Retains n) := by
  intro s
  cases granted with
  | false => exact retains_clear hne s
  | true =>
      show Retains n s (if (s.points m).isSome then s else s.assign m)
      split
      · exact refl_of _ s
      · exact retains_assign hne s

theorem retains_dispose (hne : m ≠ n) : (dispose m).Moves (Retains n) := fun s =>
  trans_of _ (retains_free hne s) (retains_clear hne _)

end Variables

end Holdings

end XHDF5.Math
