/-
# Procedures that may leave at any step

A procedure acts step after step. It may leave at each of them, and its end is carried out whether
it left or not. Procedures call one another, so that what a call may have done is a set of traces.

Two rules say what all of these traces have in common. What every action keeps, or the end puts
back, every call keeps. And whether an action of some kind can only come after a marked one is read
off the text of the procedures.
-/

import Mathlib.Data.List.Basic

namespace XHDF5.Math

/-! ## Scripts and their traces -/

/-- What a procedure does up to its end: actions, branches, repetitions and calls. An `attempt` is
a call whose failure is passed over. -/
inductive Script (α φ : Type*)
  | skip
  | leave
  | act (a : α)
  | seq (p q : Script α φ)
  | alt (p q : Script α φ)
  | loop (p : Script α φ)
  | call (f : φ)
  | attempt (f : φ)

/-- A procedure, with the actions of its end. -/
structure Procedure (α φ : Type*) where
  body : Script α φ
  done : List α

namespace Script

variable {α φ σ : Type*}

/-- One thing after the other. -/
def block (ps : List (Script α φ)) : Script α φ := ps.foldr seq skip

/-- One action after the other. -/
def acts (as : List α) : Script α φ := block (as.map act)

/-- Local work, which may fail. -/
def work : Script α φ := alt skip leave

/-- A part that may be left out. -/
def maybe (p : Script α φ) : Script α φ := alt skip p

/-- A script ends with a trace, having left or not. An action that is refused leaves. -/
inductive Ends (code : φ → Procedure α φ) : Script α φ → Bool → List α → Prop
  | skip : Ends code skip false []
  | leave : Ends code leave true []
  | act (a : α) : Ends code (act a) false [a]
  | refused (a : α) : Ends code (act a) true []
  | seq {p q : Script α φ} {left : Bool} {t u : List α} :
      Ends code p false t → Ends code q left u → Ends code (seq p q) left (t ++ u)
  | seqLeft {p q : Script α φ} {t : List α} : Ends code p true t → Ends code (seq p q) true t
  | altFirst {p q : Script α φ} {left : Bool} {t : List α} :
      Ends code p left t → Ends code (alt p q) left t
  | altSecond {p q : Script α φ} {left : Bool} {t : List α} :
      Ends code q left t → Ends code (alt p q) left t
  | loopDone {p : Script α φ} : Ends code (loop p) false []
  | loopAgain {p : Script α φ} {left : Bool} {t u : List α} :
      Ends code p false t → Ends code (loop p) left u → Ends code (loop p) left (t ++ u)
  | loopLeft {p : Script α φ} {t : List α} : Ends code p true t → Ends code (loop p) true t
  | call {f : φ} {left : Bool} {t : List α} :
      Ends code (code f).body left t → Ends code (call f) left (t ++ (code f).done)
  | attempt {f : φ} {left : Bool} {t : List α} :
      Ends code (code f).body left t → Ends code (attempt f) false (t ++ (code f).done)

variable {code : φ → Procedure α φ}

/-- Every action goes through. -/
theorem Ends.acts (as : List α) : Ends code (Script.acts as) false as := by
  induction as with
  | nil => exact .skip
  | cons a as ih => exact .seq (.act a) ih

theorem Ends.work : Ends code Script.work false [] := .altFirst .skip

/-! ## What calls keep -/

/-- Every action and every procedure called is of a kind. -/
def all (kept : α → Bool) (good : φ → Bool) : Script α φ → Bool
  | skip | leave => true
  | act a => kept a
  | seq p q | alt p q => p.all kept good && q.all kept good
  | loop p => p.all kept good
  | call f | attempt f => good f

theorem all_block {kept : α → Bool} {good : φ → Bool} {ps : List (Script α φ)} :
    (block ps).all kept good = ps.all fun p => p.all kept good := by
  induction ps with
  | nil => rfl
  | cons p ps ih => exact congrArg (p.all kept good && ·) ih

end Script

open Script

section Keeping

variable {α φ σ : Type*} {code : φ → Procedure α φ} {step : σ → α → σ} {I : σ → Prop}
  {kept : α → Bool} {good : φ → Bool}

/-- The procedure and its end act and call in the given ways only, or its end makes a condition true
whatever happened. -/
def Procedure.Keeps (step : σ → α → σ) (I : σ → Prop) (kept : α → Bool) (good : φ → Bool)
    (f : Procedure α φ) : Prop :=
  (f.body.all kept good = true ∧ f.done.all kept = true) ∨ ∀ s, I (f.done.foldl step s)

/-- Actions that keep a condition keep it one after the other. -/
theorem foldl_keeps (hkept : ∀ a, kept a = true → ∀ s, I s → I (step s a)) {as : List α}
    (h : as.all kept = true) {s : σ} (hs : I s) : I (as.foldl step s) := by
  induction as generalizing s with
  | nil => exact hs
  | cons a as ih =>
    rw [List.all_cons, Bool.and_eq_true] at h
    exact ih h.2 (hkept a h.1 s hs)

/-- A procedure keeps a condition that its body keeps. -/
theorem Procedure.Keeps.done (hkept : ∀ a, kept a = true → ∀ s, I s → I (step s a))
    {f : Procedure α φ} {t : List α} (hf : f.Keeps step I kept good)
    (hbody : f.body.all kept good = true → ∀ s, I s → I (t.foldl step s)) {s : σ} (hs : I s) :
    I ((t ++ f.done).foldl step s) := by
  rw [List.foldl_append]
  obtain ⟨hall, hdone⟩ | hdone := hf
  · exact foldl_keeps hkept hdone (hbody hall s hs)
  · exact hdone _

/-- A script of actions and calls that keep a condition keeps it. -/
theorem Script.Ends.keeps (hkept : ∀ a, kept a = true → ∀ s, I s → I (step s a))
    (hcode : ∀ f, good f = true → (code f).Keeps step I kept good) {p : Script α φ} {left : Bool}
    {t : List α} (h : Ends code p left t) (hp : p.all kept good = true) (s : σ) (hs : I s) :
    I (t.foldl step s) := by
  induction h generalizing s with
  | skip | leave | refused | loopDone => exact hs
  | act a => exact hkept a hp s hs
  | seq _ _ ihp ihq =>
    rw [List.foldl_append]
    obtain ⟨hp, hq⟩ := Bool.and_eq_true_iff.mp hp
    exact ihq hq _ (ihp hp s hs)
  | seqLeft _ ih => exact ih (Bool.and_eq_true_iff.mp hp).1 s hs
  | altFirst _ ih => exact ih (Bool.and_eq_true_iff.mp hp).1 s hs
  | altSecond _ ih => exact ih (Bool.and_eq_true_iff.mp hp).2 s hs
  | loopAgain _ _ ihp ihq =>
    rw [List.foldl_append]
    exact ihq hp _ (ihp hp s hs)
  | loopLeft _ ih => exact ih hp s hs
  | call _ ih | attempt _ ih => exact (hcode _ hp).done hkept ih hs

end Keeping

/-! ## What comes before -/

section Order

variable {α φ : Type*} (key free : α → Bool)

/-- Whether a script only does what is free before its first marked action; if so, whether it has
come past a marked action when it does not leave. -/
def Script.guarded : Script α φ → Option Bool
  | skip => some false
  | leave => some true
  | act a => if key a then some true else if free a then some false else none
  | seq p q =>
    match p.guarded with
    | none => none
    | some true => some true
    | some false => q.guarded
  | alt p q =>
    match p.guarded, q.guarded with
    | some b, some c => some (b && c)
    | _, _ => none
  | loop p => p.guarded.map fun _ => false
  | call _ | attempt _ => some false

/-- A procedure that only does what is free before its first marked action. -/
def Procedure.Guarded (f : Procedure α φ) : Prop :=
  (f.body.guarded key free).isSome ∧ ∀ a ∈ f.done, key a = false → free a = true

variable {key free} {code : φ → Procedure α φ}

/-- Without a marked action in them, the traces of a guarded procedure are free. -/
theorem Procedure.Guarded.trace {f : Procedure α φ} {t : List α} (hf : f.Guarded key free)
    (hbody : (∀ a ∈ t, key a = false) → ∀ past, f.body.guarded key free = some past →
      ∀ a ∈ t, free a = true)
    (hkey : ∀ a ∈ t ++ f.done, key a = false) : ∀ a ∈ t ++ f.done, free a = true := by
  intro a ha
  obtain ⟨past, hpast⟩ := Option.isSome_iff_exists.mp hf.1
  rcases List.mem_append.mp ha with ht | hdone
  · exact hbody (fun b hb => hkey b (List.mem_append_left _ hb)) past hpast a ht
  · exact hf.2 a hdone (hkey a ha)

/-- Without a marked action everything is free, and no marked action was come past. -/
theorem Script.Ends.free_of_guarded (hcode : ∀ f, (code f).Guarded key free) {p : Script α φ}
    {left past : Bool} {t : List α} (h : Ends code p left t) (hkey : ∀ a ∈ t, key a = false)
    (hp : p.guarded key free = some past) :
    (∀ a ∈ t, free a = true) ∧ (left = false → past = false) := by
  induction h generalizing past with
  | skip => exact ⟨by simp, fun _ => (Option.some.inj hp).symm⟩
  | leave => exact ⟨by simp, by simp⟩
  | act a =>
    have hfalse : key a = false := hkey a List.mem_cons_self
    simp only [guarded, hfalse, Bool.false_eq_true, if_false] at hp
    split at hp
    · rename_i hfree
      exact ⟨by simpa using hfree, fun _ => (Option.some.inj hp).symm⟩
    · cases hp
  | refused => exact ⟨by simp, by simp⟩
  | @seq p q left t u _ _ ihp ihq =>
    have hkeyt : ∀ a ∈ t, key a = false := fun a ha => hkey a (List.mem_append_left _ ha)
    have hkeyu : ∀ a ∈ u, key a = false := fun a ha => hkey a (List.mem_append_right _ ha)
    cases hpast : p.guarded key free with
    | none => simp [guarded, hpast] at hp
    | some first =>
      obtain ⟨ht, hfirst⟩ := ihp hkeyt hpast
      have hq : q.guarded key free = some past := by simpa [guarded, hpast, hfirst rfl] using hp
      obtain ⟨hu, hpq⟩ := ihq hkeyu hq
      exact ⟨fun a ha => (List.mem_append.mp ha).elim (ht a) (hu a), hpq⟩
  | @seqLeft p q t _ ih =>
    cases hpast : p.guarded key free with
    | none => simp [guarded, hpast] at hp
    | some first => exact ⟨(ih hkey hpast).1, by simp⟩
  | @altFirst p q left t _ ih =>
    cases hpast : p.guarded key free with
    | none => simp [guarded, hpast] at hp
    | some first =>
      obtain ⟨ht, hfirst⟩ := ih hkey hpast
      refine ⟨ht, fun hleft => ?_⟩
      cases hother : q.guarded key free with
      | none => simp [guarded, hpast, hother] at hp
      | some other => simpa [guarded, hpast, hother, hfirst hleft] using hp.symm
  | @altSecond p q left t _ ih =>
    cases hpast : q.guarded key free with
    | none => cases hother : p.guarded key free <;> simp [guarded, hpast, hother] at hp
    | some second =>
      obtain ⟨ht, hsecond⟩ := ih hkey hpast
      refine ⟨ht, fun hleft => ?_⟩
      cases hother : p.guarded key free with
      | none => simp [guarded, hother] at hp
      | some other => simpa [guarded, hpast, hother, hsecond hleft] using hp.symm
  | @loopDone p =>
    refine ⟨by simp, fun _ => ?_⟩
    cases hpast : p.guarded key free <;> simp_all [guarded]
  | @loopAgain p left t u _ _ ihp ihq =>
    have hkeyt : ∀ a ∈ t, key a = false := fun a ha => hkey a (List.mem_append_left _ ha)
    have hkeyu : ∀ a ∈ u, key a = false := fun a ha => hkey a (List.mem_append_right _ ha)
    cases hpast : p.guarded key free with
    | none => simp [guarded, hpast] at hp
    | some first =>
      obtain ⟨hu, hpast'⟩ := ihq hkeyu hp
      exact ⟨fun a ha => (List.mem_append.mp ha).elim ((ihp hkeyt hpast).1 a) (hu a), hpast'⟩
  | @loopLeft p t _ ih =>
    cases hpast : p.guarded key free with
    | none => simp [guarded, hpast] at hp
    | some first => exact ⟨(ih hkey hpast).1, by simp⟩
  | call _ ih | attempt _ ih =>
    refine ⟨(hcode _).trace (fun hkey past hpast => (ih hkey hpast).1) hkey, fun _ => ?_⟩
    exact (Option.some.inj hp).symm

end Order

end XHDF5.Math
