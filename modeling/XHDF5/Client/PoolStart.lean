/-
# Starting the thread pool

`threadpool_create` allocates the pool and its two arrays, initialises the mutex and the condition
variable, and starts the threads one after the other. When a thread does not start it hands the
pool to `threadpool_destroy`, which joins as many threads as were asked for.

What the calls that can fail return is given; locking, waking, joining a thread that was started and
destroying succeed. Joining through a handle that no thread was stored in, and using what is freed
or not initialised, have no defined result.
-/

import Mathlib.Tactic.ByContra
import XHDF5.Math.Run

namespace XHDF5.Client.PoolStart

open XHDF5.Math

/-! ## The code -/

/-- Which of the calls in `threadpool_create` succeed. -/
structure Answers where
  pool : Bool
  threads : Bool
  taskQueue : Bool
  lock : Bool
  notify : Bool
  create : Nat → Bool

/-- A `threadpool_t` while it is built and taken down: its thread handles, each with the thread
that was stored in it; what is initialised; and the threads that were started and joined. -/
structure Building where
  threads : List (Option Nat)
  lock : Bool
  notify : Bool
  freed : Bool
  started : List Nat
  joined : List Nat
deriving DecidableEq

/-- The loop that starts the threads, from the `i`-th round on, and whether all were started. -/
def startThreads (answers : Answers) : Nat → Nat → Building → Building × Bool
  | 0, _, b => (b, true)
  | todo + 1, i, b =>
      if answers.create i then
        startThreads answers todo (i + 1)
          { b with threads := b.threads.set i (some i), started := b.started ++ [i] }
      else (b, false)

/-- The loop that joins the threads. -/
def joinThreads : List (Option Nat) → Outcome (List Nat)
  | [] => .ok []
  | none :: _ => .undefined
  | some thread :: threads => (joinThreads threads).bind fun joined => .ok (thread :: joined)

/-- `threadpool_destroy`. -/
def threadpoolDestroy (b : Building) : Outcome Building :=
  if b.freed = true ∨ b.lock = false ∨ b.notify = false then .undefined
  else
    (joinThreads b.threads).bind fun joined =>
      .ok { b with joined := b.joined ++ joined, lock := false, notify := false, freed := true }

/-- `threadpool_create`: whether it returns a pool, and what it leaves. Both allocations come
before the tests, and the tests stop at the first that fails. -/
def threadpoolCreate (threadCount : Int) (answers : Answers) : Outcome (Bool × Building) :=
  if answers.pool = false then .ok (false, ⟨[], false, false, false, [], []⟩)
  else
    let threads := List.replicate threadCount.toNat none
    if answers.lock = false then .ok (false, ⟨threads, false, false, false, [], []⟩)
    else if answers.notify = false then .ok (false, ⟨threads, true, false, false, [], []⟩)
    else if answers.threads = false ∨ answers.taskQueue = false then
      .ok (false, ⟨threads, true, true, false, [], []⟩)
    else
      match startThreads answers threadCount.toNat 0 ⟨threads, true, true, false, [], []⟩ with
      | (b, true) => .ok (true, b)
      | (b, false) => (threadpoolDestroy b).bind fun b => .ok (false, b)

/-! ## Failures -/

/-- Some call fails that is made for this number of threads. -/
def Fails (threadCount : Int) (answers : Answers) : Prop :=
  answers.pool = false ∨ answers.lock = false ∨ answers.notify = false ∨
    answers.threads = false ∨ answers.taskQueue = false ∨
      ∃ i < threadCount.toNat, answers.create i = false

/-- The failed start joins just the threads that were started, returns NULL, and leaves no mutex
that is initialised. -/
def CleanFailure (threadCount : Int) (answers : Answers) : Prop :=
  ∃ b, threadpoolCreate threadCount answers = .ok (false, b) ∧ b.joined = b.started ∧
    b.lock = false

section Threads

variable {answers : Answers}

/-- The handles when the first threads were started. -/
def handles (count started : Nat) : List (Option Nat) :=
  (List.range started).map some ++ List.replicate (count - started) none

theorem handles_set {count started : Nat} (h : started < count) :
    (handles count started).set started (some started) = handles count (started + 1) := by
  have hsplit : count - started = (count - (started + 1)) + 1 := by omega
  have hlen : ((List.range started).map some).length = started := by simp
  rw [handles, handles, hsplit, List.replicate_succ, List.range_succ, List.map_append,
    List.append_assoc]
  simp

/-- The threads from one on, started as far as they can be. -/
theorem startThreads_eq (answers : Answers) (todo i : Nat) :
    ∃ started ≤ i + todo, i ≤ started ∧
      ((∀ k, i ≤ k → k < i + todo → answers.create k = true) ↔ started = i + todo) ∧
      startThreads answers todo i
          ⟨handles (i + todo) i, true, true, false, List.range i, []⟩ =
        (⟨handles (i + todo) started, true, true, false, List.range started, []⟩,
          decide (started = i + todo)) := by
  induction todo generalizing i with
  | zero =>
      exact ⟨i, by omega, by omega, iff_of_true (fun k hk hlt => by omega) rfl,
        by simp [startThreads]⟩
  | succ todo ih =>
      by_cases hcreate : answers.create i = true
      · obtain ⟨started, hle, hge, hall, hrun⟩ := ih (i + 1)
        have hcount : i + 1 + todo = i + (todo + 1) := by omega
        rw [hcount] at hle hall hrun
        refine ⟨started, hle, by omega, ?_, ?_⟩
        · rw [← hall]
          constructor
          · exact fun h k hk hlt => h k (by omega) hlt
          · intro h k hk hlt
            rcases Nat.eq_or_lt_of_le hk with rfl | hk
            · exact hcreate
            · exact h k hk hlt
        · rw [startThreads, if_pos hcreate, ← hrun, handles_set (by omega), List.range_succ]
      · refine ⟨i, by omega, Nat.le_refl i, ?_, ?_⟩
        · exact iff_of_false (fun h => hcreate (h i (Nat.le_refl i) (by omega))) (by omega)
        · rw [startThreads, if_neg hcreate, decide_eq_false (by omega)]

/-- Joining ends at the first handle without a thread. -/
theorem joinThreads_handles {count started : Nat} (h : started < count) :
    joinThreads (handles count started) = .undefined := by
  have hsplit : count - started = (count - (started + 1)) + 1 := by omega
  have hjoin (first : List Nat) (rest : List (Option Nat)) :
      joinThreads (first.map some ++ none :: rest) = .undefined := by
    induction first with
    | nil => rfl
    | cons thread first ih =>
        rw [List.map_cons, List.cons_append, joinThreads, ih]
        rfl
  rw [handles, hsplit, List.replicate_succ]
  exact hjoin _ _

/-- A pool that is complete is taken down: all of its threads are joined, each once. -/
theorem threadpoolDestroy_complete (count : Nat) :
    threadpoolDestroy ⟨handles count count, true, true, false, List.range count, []⟩ =
      .ok ⟨handles count count, false, false, true, List.range count, List.range count⟩ := by
  have hjoin (threads : List Nat) : joinThreads (threads.map some) = .ok threads := by
    induction threads with
    | nil => rfl
    | cons thread threads ih =>
        rw [List.map_cons, joinThreads, ih]
        rfl
  have hhandles : handles count count = (List.range count).map some := by simp [handles]
  unfold threadpoolDestroy
  simp [hhandles, hjoin]

/-- What starting a pool comes to when all memory is there. -/
theorem threadpoolCreate_threads {threadCount : Int} (hpool : answers.pool = true)
    (hlock : answers.lock = true) (hnotify : answers.notify = true)
    (hthreads : answers.threads = true) (hqueue : answers.taskQueue = true) :
    threadpoolCreate threadCount answers =
      if ∀ i < threadCount.toNat, answers.create i = true then
        .ok (true, ⟨handles threadCount.toNat threadCount.toNat, true, true, false,
          List.range threadCount.toNat, []⟩)
      else .undefined := by
  obtain ⟨started, hle, -, hall, hrun⟩ := startThreads_eq answers threadCount.toNat 0
  have hnew : handles threadCount.toNat 0 = List.replicate threadCount.toNat none := by
    simp [handles]
  rw [Nat.zero_add, hnew, List.range_zero] at hrun
  rw [Nat.zero_add] at hle hall
  have hall' : (∀ i < threadCount.toNat, answers.create i = true) ↔
      started = threadCount.toNat := by
    rw [← hall]
    exact ⟨fun h k _ => h k, fun h k => h k (Nat.zero_le k)⟩
  unfold threadpoolCreate
  simp only [hpool, hlock, hnotify, hthreads, hqueue, Bool.true_eq_false, or_self, if_false, hrun]
  by_cases hcomplete : started = threadCount.toNat
  · rw [if_pos (hall'.mpr hcomplete), decide_eq_true hcomplete, hcomplete]
  · rw [if_neg fun h => hcomplete (hall'.mp h), decide_eq_false hcomplete]
    simp only [threadpoolDestroy, Bool.true_eq_false, Bool.false_eq_true, or_self, if_false,
      joinThreads_handles (Nat.lt_of_le_of_ne hle hcomplete)]
    rfl

/-- A thread that does not start always leaves a handle that is joined without one, and a failure
behind the mutex leaves the mutex. -/
theorem cleanFailure_iff {threadCount : Int} (h : Fails threadCount answers) :
    CleanFailure threadCount answers ↔ answers.pool = false ∨ answers.lock = false := by
  cases hpool : answers.pool with
  | false => exact iff_of_true ⟨_, by rw [threadpoolCreate, if_pos hpool], rfl, rfl⟩ (.inl rfl)
  | true =>
      cases hlock : answers.lock with
      | false =>
          refine iff_of_true ⟨⟨List.replicate threadCount.toNat none, false, false, false, [], []⟩,
            ?_, rfl, rfl⟩ (.inr rfl)
          simp [threadpoolCreate, hpool, hlock]
      | true =>
          refine iff_of_false ?_ (by simp)
          rintro ⟨b, hb, -, hmutex⟩
          by_cases hmemory : answers.notify = true ∧ answers.threads = true ∧
              answers.taskQueue = true
          · obtain ⟨hnotify, hthreads, hqueue⟩ := hmemory
            have hcreate : ¬ ∀ i < threadCount.toNat, answers.create i = true := by
              intro hall
              obtain ⟨i, hi, hfail⟩ : ∃ i < threadCount.toNat, answers.create i = false := by
                simpa [Fails, hpool, hlock, hnotify, hthreads, hqueue] using h
              exact absurd (hall i hi) (by simp [hfail])
            rw [threadpoolCreate_threads hpool hlock hnotify hthreads hqueue,
              if_neg hcreate] at hb
            cases hb
          · -- The function returns with the mutex initialised.
            have hleft : b.lock = true := by
              unfold threadpoolCreate at hb
              simp only [hpool, hlock, Bool.true_eq_false, if_false] at hb
              by_cases hnotify : answers.notify = false
              · rw [if_pos hnotify] at hb
                cases hb
                rfl
              · have harrays : answers.threads = false ∨ answers.taskQueue = false := by
                  by_contra hboth
                  rw [not_or] at hboth
                  exact hmemory ⟨by simpa using hnotify, by simpa using hboth⟩
                rw [if_neg hnotify, if_pos harrays] at hb
                cases hb
                rfl
            rw [hleft] at hmutex
            cases hmutex

theorem cleanFailure_noMemory :
    CleanFailure 4 ⟨false, true, true, true, true, fun _ => true⟩ :=
  (cleanFailure_iff (.inl rfl)).mpr (.inl rfl)

/-- The second of four threads does not start. -/
theorem not_cleanFailure_secondThread :
    ¬ CleanFailure 4 ⟨true, true, true, true, true, fun i => decide (i ≠ 1)⟩ := by
  rintro ⟨b, hb, -⟩
  have hundefined : threadpoolCreate 4 ⟨true, true, true, true, true, fun i => decide (i ≠ 1)⟩ =
      .undefined := by decide
  rw [hundefined] at hb
  cases hb

end Threads

end XHDF5.Client.PoolStart
