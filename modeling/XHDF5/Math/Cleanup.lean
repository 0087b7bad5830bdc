/-
# When everything is released at the end

Up to its end code keeps to a scope of variables, no two of which point to the same thing, and none
of which points to what was released. It may lose something, by setting a variable anew. The end
releases what the variables of the scope point to, except for one that is forgotten.

Then everything is released exactly when nothing is lost and the forgotten variable points to
nothing. For a piece of code it is said under which condition nothing is lost in it, and the
forgotten variable points to nothing when it fails. The condition for a sequence is put together
from those of its parts.
-/

import XHDF5.Math.Holdings
import Mathlib.Data.List.Nodup
import Mathlib.Data.Set.Insert

namespace XHDF5.Math.Holdings

variable {ν : Type} {scope : Set ν} {kept n m : ν} {s s' : Holdings ν}

/-- Before the end: every variable that points to something is in scope, and the only one to point
to something that is held; nothing was released without being held. -/
structure Sound (scope : Set ν) (s : Holdings ν) : Prop where
  confined : ∀ n, (s.points n).isSome → n ∈ scope
  live : ∀ n id, s.points n = some id → id ∈ s.ledger.held
  apart : ∀ m n id, s.points m = some id → s.points n = some id → m = n
  strays : s.ledger.strays = []

/-- Something is held that no variable points to. -/
def Lost (s : Holdings ν) : Prop := ∃ id ∈ s.ledger.held, ∀ n, s.points n ≠ some id

/-- Nothing has gone wrong so far. -/
def Clean (s : Holdings ν) : Prop := ¬ s.Lost ∧ s.stuck = false

theorem sound_empty : (empty : Holdings ν).Sound scope := ⟨nofun, nofun, nofun, rfl⟩

theorem clean_empty : (empty : Holdings ν).Clean :=
  ⟨fun hlost => List.not_mem_nil hlost.choose_spec.1, rfl⟩

/-! ## Variables that are set -/

theorem ne_of_points {id : Nat} (hm : s.points m = some id) (hn : s.points n ≠ some id) :
    m ≠ n := by
  rintro rfl
  exact hn hm

/-- What is held is taken out of the ledger when it is released. -/
theorem free_held (hlive : ∀ id, s.points n = some id → id ∈ s.ledger.held) (id : Nat) :
    id ∈ (s.free n).ledger.held ↔ id ∈ s.ledger.held ∧ s.points n ≠ some id := by
  unfold free
  split
  · next hn => rw [hn]; simp
  · next other hn =>
      show id ∈ (s.ledger.release other).held ↔ _
      rw [(Ledger.release_of_mem (hlive other hn)).1, s.nodup.mem_erase_iff, hn, ne_eq, ne_eq,
        Option.some.injEq, and_comm, eq_comm (a := id)]

theorem free_strays (hlive : ∀ id, s.points n = some id → id ∈ s.ledger.held) :
    (s.free n).ledger.strays = s.ledger.strays := by
  unfold free
  split
  · rfl
  · next other hn => exact (Ledger.release_of_mem (hlive other hn)).2.1

section Steps

variable [DecidableEq ν] (h : Sound scope s)

include h

theorem Sound.assign (hn : n ∈ scope) : (s.assign n).Sound scope where
  confined m hm := by
    by_cases hmn : m = n
    · exact hmn ▸ hn
    · rw [assign_points_of_ne hmn] at hm
      exact h.confined m hm
  live m id hm := by
    by_cases hmn : m = n
    · rw [hmn, assign_points_self, Option.some.injEq] at hm
      exact hm ▸ List.mem_cons_self
    · rw [assign_points_of_ne hmn] at hm
      exact List.mem_cons_of_mem _ (h.live m id hm)
  apart m k id hm hk := by
    have hfresh : ∀ {j : ν}, s.points j ≠ some s.ledger.next := fun hj =>
      Nat.lt_irrefl _ (s.points_lt _ _ hj)
    by_cases hmn : m = n <;> by_cases hkn : k = n
    · rw [hmn, hkn]
    · rw [hmn, assign_points_self, Option.some.injEq] at hm
      rw [assign_points_of_ne hkn, ← hm] at hk
      exact absurd hk hfresh
    · rw [hkn, assign_points_self, Option.some.injEq] at hk
      rw [assign_points_of_ne hmn, ← hk] at hm
      exact absurd hm hfresh
    · rw [assign_points_of_ne hmn] at hm
      rw [assign_points_of_ne hkn] at hk
      exact h.apart m k id hm hk
  strays := h.strays

theorem Sound.clear (n : ν) : (s.clear n).Sound scope := by
  have hpoints : ∀ m id, (s.clear n).points m = some id → s.points m = some id := by
    intro m id hm
    by_cases hmn : m = n
    · rw [hmn, clear_points_self] at hm
      cases hm
    · rwa [clear_points_of_ne hmn] at hm
  refine ⟨fun m hm => ?_, fun m id hm => h.live m id (hpoints m id hm),
    fun m k id hm hk => h.apart m k id (hpoints m id hm) (hpoints k id hk), h.strays⟩
  obtain ⟨id, hid⟩ := Option.isSome_iff_exists.mp hm
  exact h.confined m (Option.isSome_iff_exists.mpr ⟨id, hpoints m id hid⟩)

theorem lost_assign_iff : (s.assign n).Lost ↔ s.Lost ∨ (s.points n).isSome := by
  constructor
  · rintro ⟨id, hheld, hpoints⟩
    rcases List.mem_cons.mp hheld with rfl | hheld
    · exact absurd (assign_points_self n s) (hpoints n)
    · by_cases hn : s.points n = some id
      · exact .inr (Option.isSome_iff_exists.mpr ⟨id, hn⟩)
      · refine .inl ⟨id, hheld, fun m hm => hpoints m ?_⟩
        rwa [assign_points_of_ne (ne_of_points hm hn)]
  · rintro (⟨id, hheld, hpoints⟩ | hn)
    · refine ⟨id, List.mem_cons_of_mem _ hheld, fun m hm => ?_⟩
      by_cases hmn : m = n
      · rw [hmn, assign_points_self, Option.some.injEq] at hm
        exact Nat.lt_irrefl _ (s.ledger.held_lt _ (hm ▸ hheld))
      · rw [assign_points_of_ne hmn] at hm
        exact hpoints m hm
    · obtain ⟨id, hid⟩ := Option.isSome_iff_exists.mp hn
      refine ⟨id, List.mem_cons_of_mem _ (h.live n id hid), fun m hm => ?_⟩
      by_cases hmn : m = n
      · rw [hmn, assign_points_self, Option.some.injEq] at hm
        exact Nat.lt_irrefl _ (hm ▸ s.points_lt n id hid)
      · rw [assign_points_of_ne hmn] at hm
        exact hmn (h.apart m n id hm hid)

theorem lost_clear_iff : (s.clear n).Lost ↔ s.Lost ∨ (s.points n).isSome := by
  constructor
  · rintro ⟨id, hheld, hpoints⟩
    by_cases hn : s.points n = some id
    · exact .inr (Option.isSome_iff_exists.mpr ⟨id, hn⟩)
    · refine .inl ⟨id, hheld, fun m hm => hpoints m ?_⟩
      rwa [clear_points_of_ne (ne_of_points hm hn)]
  · rintro (⟨id, hheld, hpoints⟩ | hn)
    · refine ⟨id, hheld, fun m hm => ?_⟩
      by_cases hmn : m = n
      · rw [hmn, clear_points_self] at hm
        cases hm
      · rw [clear_points_of_ne hmn] at hm
        exact hpoints m hm
    · obtain ⟨id, hid⟩ := Option.isSome_iff_exists.mp hn
      refine ⟨id, h.live n id hid, fun m hm => ?_⟩
      by_cases hmn : m = n
      · rw [hmn, clear_points_self] at hm
        cases hm
      · rw [clear_points_of_ne hmn] at hm
        exact hmn (h.apart m n id hm hid)

theorem Sound.dispose (n : ν) : ((s.free n).clear n).Sound scope := by
  have hpoints : ∀ m id,
      ((s.free n).clear n).points m = some id → m ≠ n ∧ s.points m = some id := by
    intro m id hm
    by_cases hmn : m = n
    · rw [hmn, clear_points_self] at hm
      cases hm
    · rw [clear_points_of_ne hmn, free_points] at hm
      exact ⟨hmn, hm⟩
  refine ⟨fun m hm => ?_, fun m id hm => ?_, fun m k id hm hk => ?_,
    (free_strays (h.live n)).trans h.strays⟩
  · obtain ⟨id, hid⟩ := Option.isSome_iff_exists.mp hm
    exact h.confined m (Option.isSome_iff_exists.mpr ⟨id, (hpoints m id hid).2⟩)
  · obtain ⟨hmn, hm⟩ := hpoints m id hm
    exact (free_held (h.live n) id).mpr ⟨h.live m id hm, fun hn => hmn (h.apart m n id hm hn)⟩
  · exact h.apart m k id (hpoints m id hm).2 (hpoints k id hk).2

theorem lost_dispose_iff : ((s.free n).clear n).Lost ↔ s.Lost := by
  constructor
  · rintro ⟨id, hheld, hpoints⟩
    obtain ⟨hheld, hn⟩ := (free_held (h.live n) id).mp hheld
    refine ⟨id, hheld, fun m hm => hpoints m ?_⟩
    rwa [clear_points_of_ne (ne_of_points hm hn), free_points]
  · rintro ⟨id, hheld, hpoints⟩
    refine ⟨id, (free_held (h.live n) id).mpr ⟨hheld, hpoints n⟩, fun m hm => ?_⟩
    by_cases hmn : m = n
    · rw [hmn, clear_points_self] at hm
      cases hm
    · rw [clear_points_of_ne hmn, free_points] at hm
      exact hpoints m hm

end Steps

/-! ## Code before the end -/

/-- What is known of the variables: for some of them, whether they point to something. -/
def Known (F : ν → Option Bool) (s : Holdings ν) : Prop :=
  ∀ n b, F n = some b → (s.points n).isSome = b

/-- Nothing has gone wrong after a piece of code, and what will be forgotten is not there when the
code has failed. -/
def Fine (kept : ν) (result : Option Unit × Holdings ν) : Prop :=
  result.2.Clean ∧ (result.1 = none → result.2.points kept = none)

/-- What code comes to: a value exactly under one condition, after which `F` is known, and nothing
goes wrong in it exactly under another one. -/
structure Comes (scope : Set ν) (kept : ν) (C G : Prop) (F : ν → Option Bool) (s : Holdings ν)
    (result : Option Unit × Holdings ν) : Prop where
  sound : result.2.Sound scope
  isSome_iff : result.1.isSome ↔ C
  known : C → Known F result.2
  fine_iff : Fine kept result ↔ s.Clean ∧ G

/-- What code comes to wherever `F` is known. -/
def Needs (scope : Set ν) (kept : ν) (F : ν → Option Bool) (m : Effect (Holdings ν) Unit)
    (C G : Prop) (F' : ν → Option Bool) : Prop :=
  ∀ s, s.Sound scope → Known F s → Comes scope kept C G F' s (m s)

/-- Exactly under a condition nothing goes wrong and there is nothing to forget, whatever value the
code comes to. -/
def Ends (scope : Set ν) (kept : ν) (F : ν → Option Bool) (m : Effect (Holdings ν) Unit)
    (G : Prop) : Prop :=
  ∀ s, s.Sound scope → Known F s →
    (m s).2.Sound scope ∧ ((m s).2.Clean ∧ (m s).2.points kept = none ↔ s.Clean ∧ G)

section Rules

variable {F F' F'' : ν → Option Bool} {m : Effect (Holdings ν) Unit} {C C' G G' : Prop}

theorem Known.mono (h : Known F s) (hF : ∀ n b, F' n = some b → F n = some b) : Known F' s :=
  fun n b hn => h n b (hF n b hn)

theorem fine_some {s : Holdings ν} : Fine kept (some ⟨⟩, s) ↔ s.Clean :=
  and_iff_left nofun

theorem fine_none {s : Holdings ν} : Fine kept (none, s) ↔ s.Clean ∧ s.points kept = none :=
  and_congr_right fun _ => ⟨fun h => h rfl, fun h _ => h⟩

theorem Needs.congr (h : Needs scope kept F m C G F') (hC : C ↔ C') (hG : G ↔ G') :
    Needs scope kept F m C' G' F' := by
  rwa [← propext hC, ← propext hG]

theorem Needs.weaken (h : Needs scope kept F m C G F')
    (hF : C → ∀ n b, F'' n = some b → F' n = some b) : Needs scope kept F m C G F'' :=
  fun s hs hknown =>
    { h s hs hknown with known := fun hC => ((h s hs hknown).known hC).mono (hF hC) }

theorem Needs.of_known (h : Needs scope kept F m C G F')
    (hF : ∀ n b, F n = some b → F'' n = some b) : Needs scope kept F'' m C G F' :=
  fun s hs hknown => h s hs (hknown.mono hF)

theorem needs_pure : Needs scope kept F (pure ⟨⟩) True True F := fun _ hs hknown =>
  ⟨hs, iff_of_true rfl trivial, fun _ => hknown, fine_some.trans (and_iff_left trivial).symm⟩

theorem Needs.bind {f : Unit → Effect (Holdings ν) Unit} (hm : Needs scope kept F m C G F')
    (hf : C → Needs scope kept F' (f ⟨⟩) C' G' F'') :
    Needs scope kept F (m >>= f) (C ∧ C') (G ∧ (C → G')) F'' := by
  intro s hs hknown
  have hcomes := hm s hs hknown
  by_cases hC : C
  · obtain ⟨value, hvalue⟩ := Option.isSome_iff_exists.mp (hcomes.isSome_iff.mpr hC)
    have hfirst : Fine kept (m s) ↔ (m s).2.Clean := and_iff_left fun h => by
      rw [hvalue] at h
      cases h
    rw [Effect.bind_of_some hvalue]
    have hthen := hf hC _ hcomes.sound (hcomes.known hC)
    refine ⟨hthen.sound, hthen.isSome_iff.trans ⟨fun h => ⟨hC, h⟩, And.right⟩,
      fun h => hthen.known h.2, ?_⟩
    rw [show f value = f ⟨⟩ from rfl, hthen.fine_iff, ← hfirst, hcomes.fine_iff, and_assoc]
    exact and_congr_right fun _ => and_congr_right fun _ => ⟨fun h _ => h, fun h => h hC⟩
  · have hnone : (m s).1 = none := Option.not_isSome_iff_eq_none.mp (mt hcomes.isSome_iff.mp hC)
    rw [Effect.bind_of_none hnone]
    refine ⟨hcomes.sound, iff_of_false nofun fun h => hC h.1, fun h => absurd h.1 hC, ?_⟩
    have hfine := hcomes.fine_iff
    rw [show m s = (none, (m s).2) from Prod.ext hnone rfl] at hfine
    rw [hfine, and_iff_left fun h => absurd h hC]

/-- While there is something to forget an error is wrong in itself; what else may go wrong is put
together from the parts. -/
theorem Needs.bind_or {f : Unit → Effect (Holdings ν) Unit} {K H H' : Prop}
    (hm : Needs scope kept F m C ((C ∨ K) ∧ H) F')
    (hf : C → Needs scope kept F' (f ⟨⟩) C' ((C' ∨ K) ∧ H') F'') :
    Needs scope kept F (m >>= f) (C ∧ C') ((C ∧ C' ∨ K) ∧ H ∧ (C → H')) F'' := by
  refine (hm.bind hf).congr .rfl ?_
  by_cases hC : C <;> by_cases hK : K <;> simp [hC, hK]
  exact and_left_comm

/-- A part in which nothing else goes wrong. -/
theorem Needs.or_true {K : Prop} (h : Needs scope kept F m C (C ∨ K) F') :
    Needs scope kept F m C ((C ∨ K) ∧ True) F' := h.congr .rfl (and_true _).symm.to_iff

/-- A part that cannot fail. -/
theorem Needs.or_of_true {K : Prop} (h : Needs scope kept F m True G F') :
    Needs scope kept F m True ((True ∨ K) ∧ G) F' :=
  h.congr .rfl (and_iff_right (.inl trivial)).symm

theorem needs_onlyIf {b : Bool} {K H : Prop}
    (h : b = true → Needs scope kept F m C ((C ∨ K) ∧ H) F')
    (hF : b = false → ∀ n v, F' n = some v → F n = some v) :
    Needs scope kept F (onlyIf b m) (b = true → C) (((b = true → C) ∨ K) ∧ (b = true → H)) F' := by
  cases b with
  | false =>
      refine (needs_pure.weaken fun _ => hF rfl).congr (iff_of_true trivial nofun) ?_
      exact iff_of_true trivial ⟨.inl nofun, nofun⟩
  | true =>
      refine (h rfl).congr ⟨fun hC _ => hC, fun hC => hC rfl⟩ ?_
      exact and_congr (or_congr_left ⟨fun hC _ => hC, fun hC => hC rfl⟩)
        ⟨fun hH _ => hH, fun hH => hH rfl⟩

theorem needs_guard {k : Bool} (hk : F kept = some k) (b : Bool) :
    Needs scope kept F (Effect.guard b) (b = true) (b = true ∨ k = false) F := by
  intro s hs hknown
  have hkept : s.points kept = none ↔ k = false := by
    rw [← hknown kept k hk, Option.isSome_eq_false_iff, Option.isNone_iff_eq_none]
  cases b with
  | false =>
      exact ⟨hs, iff_of_false nofun nofun, nofun,
        fine_none.trans (and_congr_right fun _ => hkept.trans (or_iff_right nofun).symm)⟩
  | true =>
      exact ⟨hs, iff_of_true rfl rfl, fun _ => hknown, fine_some.trans
        (and_iff_left (.inl rfl)).symm⟩

theorem needs_fail {k : Bool} (hk : F kept = some k) :
    Needs scope kept F Effect.fail False (k = false) F' := fun s hs hknown =>
  let hguard := needs_guard hk false s hs hknown
  ⟨hs, iff_of_false nofun id, False.elim,
    hguard.fine_iff.trans (and_congr_right fun _ => or_iff_right nofun)⟩

/-- Code that is stuck releases nothing any more. -/
theorem needs_stuck : Needs scope kept F (orStuck false) False False F' := fun _ hs _ =>
  ⟨⟨hs.confined, hs.live, hs.apart, hs.strays⟩, iff_of_false nofun id, False.elim,
    iff_of_false (fun h => nomatch h.1.2) And.right⟩

section Variables

variable [DecidableEq ν] {a : Bool}

/-- What is known after a variable is set. -/
theorem Known.update (h : Known F s) {g : Bool} (hn : (s'.points n).isSome = g)
    (hothers : ∀ m, m ≠ n → s'.points m = s.points m) :
    Known (Function.update F n (some g)) s' := by
  intro m b hm
  by_cases hmn : m = n
  · rw [hmn, Function.update_self, Option.some.injEq] at hm
    rw [hmn, hn, hm]
  · rw [Function.update_of_ne hmn] at hm
    rw [hothers m hmn]
    exact h m b hm

/-- A variable that is set anew loses what it pointed to. -/
theorem needs_take (hscope : n ∈ scope) (hn : F n = some a) (g : Bool) :
    Needs scope kept F (take n g) True (a = false) (Function.update F n (some g)) := by
  intro s hs hknown
  have hpoints : (s.points n).isSome = a := hknown n a hn
  have hclean : ∀ s' : Holdings ν, (s'.Lost ↔ s.Lost ∨ (s.points n).isSome) → s'.stuck = s.stuck →
      (Fine kept (some ⟨⟩, s') ↔ s.Clean ∧ a = false) := by
    intro s' hlost hstuck
    rw [fine_some, Clean, Clean, hlost, hstuck, hpoints, not_or, Bool.not_eq_true]
    exact and_right_comm
  cases g with
  | false =>
      refine ⟨hs.clear n, iff_of_true rfl trivial, fun _ => hknown.update ?_ ?_,
        hclean _ (lost_clear_iff hs) rfl⟩
      · exact congrArg Option.isSome (clear_points_self n s)
      · exact fun m hm => clear_points_of_ne hm s
  | true =>
      refine ⟨hs.assign hscope, iff_of_true rfl trivial, fun _ => hknown.update ?_ ?_,
        hclean _ (lost_assign_iff hs) rfl⟩
      · exact congrArg Option.isSome (assign_points_self n s)
      · exact fun m hm => assign_points_of_ne hm s

theorem needs_require {k : Bool} (hscope : n ∈ scope) (hn : F n = some false) (hne : kept ≠ n)
    (hk : F kept = some k) (g : Bool) :
    Needs scope kept F (require n g) (g = true) (g = true ∨ k = false)
      (Function.update F n (some true)) := by
  have hguard : Needs scope kept (Function.update F n (some g)) (Effect.guard g) (g = true)
      (g = true ∨ k = false) (Function.update F n (some g)) :=
    needs_guard ((Function.update_of_ne hne ..).trans hk) g
  refine Needs.congr ((needs_take hscope hn g).bind fun _ => hguard.weaken ?_)
    (and_iff_right trivial) ?_
  · rintro rfl m b hm
    exact hm
  · exact ⟨fun h => h.2 trivial, fun h => ⟨rfl, fun _ => h⟩⟩

/-- What will be forgotten is not there when it is not granted. -/
theorem needs_require_kept (hscope : kept ∈ scope) (hkept : F kept = some false) (g : Bool) :
    Needs scope kept F (require kept g) (g = true) True (Function.update F kept (some true)) := by
  have hguard : Needs scope kept (Function.update F kept (some g)) (Effect.guard g) (g = true)
      (g = true ∨ g = false) (Function.update F kept (some g)) :=
    needs_guard (Function.update_self ..) g
  refine Needs.congr ((needs_take hscope hkept g).bind fun _ => hguard.weaken ?_)
    (and_iff_right trivial) ?_
  · rintro rfl m b hm
    exact hm
  · exact iff_of_true ⟨rfl, fun _ => Bool.eq_false_or_eq_true g⟩ trivial

theorem needs_extend (hscope : n ∈ scope) (hn : F n = some a) (g : Bool) :
    Needs scope kept F (extend n g) True (a = true → g = true) (Function.update F n (some g)) := by
  intro s hs hknown
  have hpoints : (s.points n).isSome = a := hknown n a hn
  have htake : Comes scope kept True (a = false) (Function.update F n (some g)) s (take n g s) :=
    needs_take hscope hn g s hs hknown
  cases g with
  | false => exact { htake with fine_iff := htake.fine_iff.trans (by cases a <;> simp) }
  | true =>
      cases a with
      | false =>
          have hextend : extend n true s = take n true s := by
            show (some (), if (s.points n).isSome then s else s.assign n) = _
            rw [hpoints]
            rfl
          rw [hextend]
          exact { htake with fine_iff := htake.fine_iff.trans (by simp) }
      | true =>
          have hextend : extend n true s = (some ⟨⟩, s) := by
            show (some (), if (s.points n).isSome then s else s.assign n) = _
            rw [hpoints]
            rfl
          rw [hextend]
          exact ⟨hs, iff_of_true rfl trivial, fun _ => hknown.update hpoints fun _ _ => rfl,
            fine_some.trans (and_iff_left fun _ => rfl).symm⟩

theorem needs_dispose (n : ν) :
    Needs scope kept F (dispose n) True True (Function.update F n (some false)) := by
  intro s hs hknown
  refine ⟨hs.dispose n, iff_of_true rfl trivial, fun _ => hknown.update ?_ ?_, ?_⟩
  · exact congrArg Option.isSome (clear_points_self n _)
  · exact fun m hm => (clear_points_of_ne hm _).trans (congrFun (free_points n s) m)
  · rw [and_iff_left trivial]
    refine fine_some.trans (and_congr (not_congr (lost_dispose_iff hs)) ?_)
    rw [show ((s.free n).clear n).stuck = (s.free n).stuck from rfl, free_stuck]

end Variables

theorem Needs.bind_ends {f : Unit → Effect (Holdings ν) Unit} (hm : Needs scope kept F m C G F')
    (hf : C → Ends scope kept F' (f ⟨⟩) G') : Ends scope kept F (m >>= f) (G ∧ (C → G')) := by
  intro s hs hknown
  have hcomes := hm s hs hknown
  by_cases hC : C
  · obtain ⟨value, hvalue⟩ := Option.isSome_iff_exists.mp (hcomes.isSome_iff.mpr hC)
    have hfirst : Fine kept (m s) ↔ (m s).2.Clean := and_iff_left fun h => by
      rw [hvalue] at h
      cases h
    rw [Effect.bind_of_some hvalue]
    obtain ⟨hsound, hend⟩ := hf hC _ hcomes.sound (hcomes.known hC)
    refine ⟨hsound, ?_⟩
    rw [show f value = f ⟨⟩ from rfl, hend, ← hfirst, hcomes.fine_iff, and_assoc]
    exact and_congr_right fun _ => and_congr_right fun _ => ⟨fun h _ => h, fun h => h hC⟩
  · have hnone : (m s).1 = none := Option.not_isSome_iff_eq_none.mp (mt hcomes.isSome_iff.mp hC)
    rw [Effect.bind_of_none hnone]
    have hfine := hcomes.fine_iff
    rw [show m s = (none, (m s).2) from Prod.ext hnone rfl, fine_none] at hfine
    exact ⟨hcomes.sound, by rw [hfine, and_iff_left fun h => absurd h hC]⟩

theorem Ends.congr (h : Ends scope kept F m G) (hG : G ↔ G') : Ends scope kept F m G' := by
  rwa [← propext hG]

end Rules

/-! ## Code that only releases -/

/-- Between two states nothing is lost, and what will be forgotten is not acquired. -/
structure Keeps (scope : Set ν) (kept : ν) (s s' : Holdings ν) : Prop where
  sound : s.Sound scope → s'.Sound scope
  clean_iff : s.Sound scope → (s'.Clean ↔ s.Clean)
  kept : s.points kept = none → s'.points kept = none

instance (scope : Set ν) (kept : ν) : IsPreorder (Holdings ν) (Keeps scope kept) where
  refl _ := ⟨id, fun _ => .rfl, id⟩
  trans _ _ _ hst htu :=
    ⟨htu.sound ∘ hst.sound, fun hs => (htu.clean_iff (hst.sound hs)).trans (hst.clean_iff hs),
      htu.kept ∘ hst.kept⟩

theorem keeps_guard (b : Bool) :
    (Effect.guard b : Effect (Holdings ν) Unit).Moves (Keeps scope kept) := by
  cases b with
  | false => exact Effect.moves_fail
  | true => exact Effect.moves_pure _

theorem keeps_demand (n : ν) : (demand n).Moves (Keeps scope kept) := fun s => keeps_guard _ s

/-- Code that only releases does not go wrong, and leaves nothing to forget where there was
nothing. -/
theorem ends_of_keeps {F : ν → Option Bool} {m : Effect (Holdings ν) Unit}
    (hk : F kept = some false)
    (h : ∀ s, s.Sound scope → Known F s → Keeps scope kept s (m s).2) :
    Ends scope kept F m True := by
  intro s hs hknown
  have hkeeps := h s hs hknown
  have hkept : s.points kept = none :=
    Option.isNone_iff_eq_none.mp (Option.isSome_eq_false_iff.mp (hknown kept false hk))
  refine ⟨hkeeps.sound hs, ?_⟩
  rw [and_iff_left trivial, ← hkeeps.clean_iff hs]
  exact and_iff_left (hkeeps.kept hkept)

theorem Sound.mono {wider : Set ν} (h : Sound scope s) (hsub : ∀ n ∈ scope, n ∈ wider) :
    Sound wider s := ⟨fun n hn => hsub n (h.confined n hn), h.live, h.apart, h.strays⟩

section Variables

variable [DecidableEq ν]

theorem keeps_dispose (n : ν) : (dispose n).Moves (Keeps scope kept) := fun s => by
  refine ⟨fun hs => hs.dispose n, fun hs => and_congr (not_congr (lost_dispose_iff hs)) ?_,
    fun h => ?_⟩
  · rw [show ((dispose n s).2).stuck = (s.free n).stuck from rfl, free_stuck]
  · by_cases hne : kept = n
    · exact hne ▸ clear_points_self n _
    · exact (clear_points_of_ne hne _).trans ((congrFun (free_points n s) kept).trans h)

theorem keeps_take (hn : n ∈ scope) (hne : kept ≠ n) (hnone : s.points n = none) (g : Bool) :
    Keeps scope kept s (take n g s).2 := by
  have hlost : ∀ s' : Holdings ν, (s'.Lost ↔ s.Lost ∨ (s.points n).isSome) → (s'.Lost ↔ s.Lost) :=
    fun s' h => h.trans (or_iff_left (by rw [hnone]; nofun))
  cases g with
  | false =>
      exact ⟨fun hs => hs.clear n,
        fun hs => and_congr_left' (not_congr (hlost _ (lost_clear_iff hs))),
        fun h => (clear_points_of_ne hne s).trans h⟩
  | true =>
      exact ⟨fun hs => hs.assign hn,
        fun hs => and_congr_left' (not_congr (hlost _ (lost_assign_iff hs))),
        fun h => (assign_points_of_ne hne s).trans h⟩

/-- A variable of its own for the time of a piece of code. -/
theorem keeps_within {m : Effect (Holdings ν) Unit} (hn : n ∉ scope) (hne : kept ≠ n) (g : Bool)
    (hm : m.Moves (Keeps (insert n scope) kept)) (hs : s.Sound scope) :
    Keeps scope kept s (endingWith (do require n g; m) (dispose n) s).2 := by
  have hnone : s.points n = none :=
    Option.not_isSome_iff_eq_none.mp fun h => hn (hs.confined n h)
  have hwide : s.Sound (insert n scope) := hs.mono fun _ => Set.mem_insert_of_mem n
  have hcode : Keeps (insert n scope) kept s (endingWith (do require n g; m) (dispose n) s).2 := by
    have hrest : (Effect.guard g >>= fun _ => m).Moves (Keeps (insert n scope) kept) :=
      Effect.moves_bind (keeps_guard g) fun _ => hm
    exact trans_of _ (keeps_take (Set.mem_insert n scope) hne hnone g)
      (trans_of _ (hrest _) (keeps_dispose n _))
  have hend : (endingWith (do require n g; m) (dispose n) s).2.points n = none :=
    clear_points_self n _
  refine ⟨fun _ => ?_, fun _ => hcode.clean_iff hwide, hcode.kept⟩
  have hsound := hcode.sound hwide
  refine ⟨fun k hk => ?_, hsound.live, hsound.apart, hsound.strays⟩
  rcases Set.mem_insert_iff.mp (hsound.confined k hk) with rfl | hscope
  · rw [hend] at hk
    cases hk
  · exact hscope

end Variables

/-! ## The end -/

/-- What a set of variables pointed to is released. -/
structure Dropped (N : Set ν) (s₀ s : Holdings ν) : Prop where
  held : ∀ id, id ∈ s.ledger.held ↔ id ∈ s₀.ledger.held ∧ ∀ n ∈ N, s₀.points n ≠ some id
  points : ∀ n, n ∉ N → s.points n = s₀.points n
  strays : s.ledger.strays = []
  stuck : s.stuck = s₀.stuck

/-- Code releases what the variables of a list point to, unless that is released already. -/
def Drops (ns : List ν) (m : Effect (Holdings ν) Unit) : Prop :=
  ∀ scope s₀ s N, Sound scope s₀ → Dropped N s₀ s → (∀ n ∈ ns, n ∉ N) →
    ∃ s', m s = (some ⟨⟩, s') ∧ Dropped {n | n ∈ N ∨ n ∈ ns} s₀ s'

theorem dropped_refl (h : Sound scope s) : Dropped ∅ s s where
  held _ := ⟨fun hheld => ⟨hheld, nofun⟩, And.left⟩
  points _ _ := rfl
  strays := h.strays
  stuck := rfl

section Drops

variable {ns ns' : List ν} {N : Set ν} {s₀ : Holdings ν} {m : Effect (Holdings ν) Unit}

/-- What was not released yet is held. -/
theorem Dropped.live (h : Dropped N s₀ s) (hs : Sound scope s₀) (hn : n ∉ N) (id : Nat)
    (hid : s.points n = some id) : id ∈ s.ledger.held := by
  rw [h.points n hn] at hid
  exact (h.held id).mpr
    ⟨hs.live n id hid, fun m hm hpoints => hn (hs.apart m n id hpoints hid ▸ hm)⟩

theorem drops_pure : Drops [] (pure ⟨⟩ : Effect (Holdings ν) Unit) := by
  intro scope s₀ s N _ h _
  have hN : {n | n ∈ N ∨ n ∈ ([] : List ν)} = N := by simp
  refine ⟨s, rfl, ?_⟩
  rw [hN]
  exact h

theorem drops_release (n : ν) : Drops [n] (release n) := by
  intro scope s₀ s N hs h hn
  have hnN : n ∉ N := hn n List.mem_cons_self
  have hlive := h.live hs hnN
  refine ⟨_, rfl, fun id => ?_, fun m hm => ?_, (free_strays hlive).trans h.strays,
    (free_stuck n s).trans h.stuck⟩
  · rw [free_held hlive, h.held, h.points n hnN, and_assoc]
    refine and_congr_right fun _ => ⟨fun hnot m hm => ?_, fun hnot => ?_⟩
    · rcases hm with hm | hm
      · exact hnot.1 m hm
      · exact List.mem_singleton.mp hm ▸ hnot.2
    · exact ⟨fun m hm => hnot m (.inl hm), hnot n (.inr List.mem_cons_self)⟩
  · rw [free_points]
    exact h.points m fun hmN => hm (.inl hmN)

theorem drops_dispose [DecidableEq ν] (n : ν) : Drops [n] (dispose n) := by
  intro scope s₀ s N hs h hn
  obtain ⟨s', hs', hdropped⟩ := drops_release n scope s₀ s N hs h hn
  cases hs'
  refine ⟨_, rfl, hdropped.held, fun m hm => ?_, hdropped.strays, hdropped.stuck⟩
  rw [clear_points_of_ne fun hmn => hm (.inr (List.mem_singleton.mpr hmn))]
  exact hdropped.points m hm

theorem Drops.bind {m' : Effect (Holdings ν) Unit} (hm : Drops ns m) (hm' : Drops ns' m')
    (hdisjoint : List.Disjoint ns ns') : Drops (ns ++ ns') (m >>= fun _ => m') := by
  intro scope s₀ s N hs h hn
  obtain ⟨s₁, hs₁, h₁⟩ := hm scope s₀ s N hs h fun n hns => hn n (List.mem_append_left _ hns)
  obtain ⟨s₂, hs₂, h₂⟩ := hm' scope s₀ s₁ _ hs h₁ fun n hns' hN =>
    hN.elim (hn n (List.mem_append_right _ hns')) fun hns => hdisjoint hns hns'
  have hN : {n | n ∈ {n | n ∈ N ∨ n ∈ ns} ∨ n ∈ ns'} = {n | n ∈ N ∨ n ∈ ns ++ ns'} := by
    ext n
    simp only [Set.mem_ofPred_eq, List.mem_append, or_assoc]
  exact ⟨s₂, by rw [Effect.bind_apply, hs₁]; exact hs₂, hN ▸ h₂⟩

theorem drops_each {γ : Type} {f : γ → Effect (Holdings ν) Unit} {drops : γ → List ν} {xs : List γ}
    (hf : ∀ x ∈ xs, Drops (drops x) (f x)) (hnodup : (xs.flatMap drops).Nodup) :
    Drops (xs.flatMap drops) (Effect.each f xs) := by
  induction xs with
  | nil => exact drops_pure
  | cons x xs ih =>
      rw [List.flatMap_cons, List.nodup_append'] at hnodup
      exact (hf x List.mem_cons_self).bind
        (ih (fun y hy => hf y (List.mem_cons_of_mem x hy)) hnodup.2.1) hnodup.2.2

/-- Everything is released when nothing was lost and what is forgotten is not there. -/
theorem settled_iff (hs : Sound scope s₀) (h : Dropped N s₀ s) (hkept : kept ∉ N)
    (hscope : ∀ n ∈ scope, n ∈ N ∨ n = kept) :
    s.Settled ↔ s₀.Clean ∧ s₀.points kept = none := by
  have hheld : s.ledger.held = [] ↔ ¬ s₀.Lost ∧ s₀.points kept = none := by
    rw [List.eq_nil_iff_forall_not_mem]
    constructor
    · intro hnil
      have hpoints : ∀ id ∈ s₀.ledger.held, ∃ n ∈ N, s₀.points n = some id := by
        intro id hid
        by_contra hnone
        exact hnil id ((h.held id).mpr ⟨hid, fun n hn heq => hnone ⟨n, hn, heq⟩⟩)
      refine ⟨fun ⟨id, hid, hlost⟩ => ?_, ?_⟩
      · obtain ⟨n, -, hn⟩ := hpoints id hid
        exact hlost n hn
      · cases hid : s₀.points kept with
        | none => rfl
        | some id =>
            obtain ⟨n, hn, hnid⟩ := hpoints id (hs.live kept id hid)
            exact absurd (hs.apart n kept id hnid hid ▸ hn) hkept
    · rintro ⟨hlost, hnone⟩ id hid
      obtain ⟨hid, hnot⟩ := (h.held id).mp hid
      refine hlost ⟨id, hid, fun n hn => ?_⟩
      rcases hscope n (hs.confined n (by rw [hn]; rfl)) with hnN | rfl
      · exact hnot n hnN hn
      · rw [hnone] at hn
        cases hn
  rw [Settled, hheld, Clean, h.stuck]
  exact ⟨fun ⟨⟨hlost, hnone⟩, _, hstuck⟩ => ⟨⟨hlost, hstuck⟩, hnone⟩,
    fun ⟨⟨hlost, hstuck⟩, hnone⟩ => ⟨⟨hlost, hnone⟩, h.strays, hstuck⟩⟩

end Drops

end XHDF5.Math.Holdings
