/-
# The wait for the completion of a read

`RV_dataset_read` adds one task for each server to the thread pool and waits until
`tasks_completed` reaches their number. A worker that finishes a task counts it under the lock of
the pool and signals `notify` when the count is a multiple of the number of servers. The workers
wait for tasks on the same condition variable, so the signal for the main thread may wake one of
them instead.
-/

import XHDF5.Client.ThreadPool

namespace XHDF5.Client

open XHDF5.Math

/-! ## The code -/

/-- Where the main thread stands: before the next `threadpool_add`, before the test of its loop with
the lock to take, in `pthread_cond_wait`, or behind the loop. -/
inductive MainState
  | adding (server : Nat)
  | testing
  | waiting
  | merging
deriving DecidableEq

/-- The pool, the main thread, `tasks_completed`, and `ServerNodeNum`. -/
structure PooledRead where
  pool : ThreadPool Nat
  main : MainState
  tasksCompleted : Nat
  serverNodeNum : Nat

/-- What a thread does next. A signal names the worker that it wakes, or none for the main
thread. -/
inductive ReadEvent
  | add (woken : Nat)
  | test
  | turn (worker : Nat)
  | complete (worker : Nat) (woken : Option Nat)

/-- A signal that the main thread may receive too. -/
def signalNotify (s : PooledRead) : Option Nat → PooledRead
  | none => if s.main = .waiting then { s with main := .testing } else s
  | some worker => { s with pool := { s.pool with workers := condSignal s.pool.workers worker } }

namespace PooledRead

/-- The start of the tasks, with a pool whose workers were started. -/
def init (threadCount queueSize serverNodeNum : Nat) : PooledRead where
  pool := threadpoolCreate threadCount queueSize
  main := .adding 0
  tasksCompleted := 0
  serverNodeNum := serverNodeNum

/-- One event. -/
def step (s : PooledRead) : ReadEvent → Option PooledRead
  | .add woken =>
      match s.main with
      | .adding server =>
          (threadpoolAdd s.pool server woken).map fun result =>
            { s with
              pool := result.1
              main := if server + 1 < s.serverNodeNum then .adding (server + 1) else .testing }
      | _ => none
  | .test =>
      some { s with main := if s.tasksCompleted < s.serverNodeNum then .waiting else .merging }
  | .turn worker =>
      (threadpoolThread s.pool worker).map fun result => { s with pool := result.1 }
  | .complete worker woken =>
      let s :=
        { s with
          pool := { s.pool with workers := s.pool.workers.set worker .ready }
          tasksCompleted := s.tasksCompleted + 1 }
      some (if s.tasksCompleted % s.serverNodeNum = 0 then signalNotify s woken else s)

/-- A thread is where the event happens, and a signal wakes a thread that waits when one does. -/
def Possible (s : PooledRead) : ReadEvent → Prop
  | .add woken => (∃ server, s.main = .adding server) ∧
      (.waiting ∈ s.pool.workers → s.pool.workers[woken]? = some .waiting)
  | .test => s.main = .testing
  | .turn worker => s.pool.workers[worker]? = some .ready ∨ s.pool.workers[worker]? = some .woken
  | .complete worker woken => (∃ task, s.pool.workers[worker]? = some (.running task)) ∧
      (s.main = .waiting ∨ .waiting ∈ s.pool.workers →
        match woken with
        | none => s.main = .waiting
        | some other => s.pool.workers[other]? = some .waiting)

/-- The states of a read. -/
def Reached (threadCount queueSize serverNodeNum : Nat) : PooledRead → Prop :=
  Reachable step Possible (.init threadCount queueSize serverNodeNum)

/-- All tasks are completed, but the main thread waits, and no thread can go on. -/
def Stuck (s : PooledRead) : Prop :=
  s.tasksCompleted = s.serverNodeNum ∧ s.main = .waiting ∧ ∀ e, ¬ s.Possible e

end PooledRead
/-! ## One worker -/

/-- The only worker is not waiting when it completes a task. -/
theorem PooledRead.step_single {s s' : PooledRead} {e : ReadEvent} (hworkers : s.pool.workers.length ≤ 1)
    (h : s.main = .waiting → s.tasksCompleted < s.serverNodeNum) (hpossible : s.Possible e)
    (hstep : s.step e = some s') :
    s'.pool.workers.length ≤ 1 ∧ (s'.main = .waiting → s'.tasksCompleted < s'.serverNodeNum) := by
  cases e with
  | add woken =>
      obtain ⟨⟨server, hmain⟩, -⟩ := hpossible
      rw [step, hmain] at hstep
      obtain ⟨result, hadd, rfl⟩ := Option.map_eq_some_iff.mp hstep
      refine ⟨?_, fun hwaiting => ?_⟩
      · rwa [length_threadpoolAdd hadd]
      · simp only at hwaiting
        split at hwaiting <;> cases hwaiting
  | test =>
      obtain rfl := Option.some.inj hstep
      refine ⟨hworkers, fun hwaiting => ?_⟩
      simp only at hwaiting ⊢
      split at hwaiting
      · assumption
      · cases hwaiting
  | turn worker =>
      obtain ⟨result, hturn, rfl⟩ := Option.map_eq_some_iff.mp hstep
      refine ⟨?_, h⟩
      rwa [length_threadpoolThread hturn]
  | complete worker woken =>
      obtain ⟨⟨task, hworker⟩, hwoken⟩ := hpossible
      obtain rfl := Option.some.inj hstep
      have halone : .waiting ∉ s.pool.workers := by
        intro hmem
        obtain ⟨other, hother⟩ := List.mem_iff_getElem?.mp hmem
        have hlt := (List.getElem?_eq_some_iff.mp hworker).1
        have hlt' := (List.getElem?_eq_some_iff.mp hother).1
        rw [show worker = other by omega, hother] at hworker
        cases hworker
      by_cases hsignal : (s.tasksCompleted + 1) % s.serverNodeNum = 0
      · simp only [if_pos hsignal]
        cases woken with
        | none =>
            rw [signalNotify]
            split
            · refine ⟨?_, nofun⟩
              rwa [List.length_set]
            · next hnot =>
                refine ⟨?_, fun hwaiting => absurd hwaiting hnot⟩
                rwa [List.length_set]
        | some other =>
            refine ⟨?_, fun hwaiting => ?_⟩
            · rw [signalNotify]
              simp only
              rwa [length_condSignal, List.length_set]
            · exact absurd (List.mem_of_getElem? (hwoken (.inl hwaiting))) halone
      · simp only [if_neg hsignal]
        refine ⟨?_, fun hwaiting => ?_⟩
        · rwa [List.length_set]
        · have hlt := h hwaiting
          have hne : s.tasksCompleted + 1 ≠ s.serverNodeNum := fun heq => by
            rw [heq, Nat.mod_self] at hsignal
            exact hsignal rfl
          exact Nat.lt_of_le_of_ne hlt hne

/-- A read with at most one worker does not get stuck. -/
theorem PooledRead.not_stuck_single {threadCount queueSize serverNodeNum : Nat}
    (hthreads : threadCount ≤ 1) {s : PooledRead}
    (h : Reached threadCount queueSize serverNodeNum s) : ¬ s.Stuck := by
  have hinv : s.pool.workers.length ≤ 1 ∧ (s.main = .waiting → s.tasksCompleted < s.serverNodeNum) := by
    apply h.invariant
    · refine ⟨?_, nofun⟩
      rw [init, threadpoolCreate, List.length_replicate]
      exact hthreads
    · rintro s e s' ⟨hworkers, hmain⟩ hpossible hstep
      exact step_single hworkers hmain hpossible hstep
  rintro ⟨hcompleted, hwaiting, -⟩
  exact Nat.ne_of_lt (hinv.2 hwaiting) hcompleted
/-! ## Several workers -/

section Several

variable {threadCount queueSize serverNodeNum : Nat} {q : RingBuffer Nat}
  {workers : List (WorkerState Nat)} {main : MainState} {completed : Nat}

/-- A read whose pool is in use. -/
def PooledRead.inUse (q : RingBuffer Nat) (workers : List (WorkerState Nat)) (main : MainState)
    (completed serverNodeNum : Nat) : PooledRead :=
  ⟨⟨q, false, workers, false⟩, main, completed, serverNodeNum⟩

namespace PooledRead

theorem Reached.step {s s' : PooledRead} (h : Reached threadCount queueSize serverNodeNum s)
    (e : ReadEvent) (hpossible : s.Possible e) (hstep : s.step e = some s') :
    Reached threadCount queueSize serverNodeNum s' :=
  Reachable.next h hpossible hstep

/-- A worker without a task waits. -/
theorem Reached.waits (h : Reached threadCount queueSize serverNodeNum
    (inUse q workers main completed serverNodeNum)) (hq : q.Queues []) {worker : Nat}
    (hworker : workers[worker]? = some .ready ∨ workers[worker]? = some .woken) :
    Reached threadCount queueSize serverNodeNum
      (inUse q (workers.set worker .waiting) main completed serverNodeNum) := by
  apply h.step (.turn worker) hworker
  have hcount : q.count = 0 := hq.count
  rw [PooledRead.step, inUse, threadpoolThread, if_neg Bool.false_ne_true, if_pos ⟨hcount, rfl⟩]
  rfl

/-- The workers behind the first one wait one after the other. -/
theorem reached_parked : ∃ q : RingBuffer Nat, q.Queues [] ∧ q.size = queueSize ∧
    Reached (threadCount + 1) queueSize serverNodeNum
      (inUse q (.ready :: List.replicate threadCount .waiting) (.adding 0) 0 serverNodeNum) := by
  have hwait (waiting : Nat) : ∀ ready, ready + waiting = threadCount + 1 →
      Reached (threadCount + 1) queueSize serverNodeNum (inUse (.empty queueSize)
        (List.replicate ready .ready ++ List.replicate waiting .waiting) (.adding 0) 0
          serverNodeNum) := by
    induction waiting with
    | zero =>
        rintro ready rfl
        rw [List.replicate_zero, List.append_nil]
        exact .start
    | succ waiting ih =>
        intro ready hready
        have hprevious := ih (ready + 1) (by omega)
        rw [List.replicate_succ', List.append_assoc] at hprevious
        have hnext := @Reached.waits _ _ _ _ _ _ _ hprevious
          (RingBuffer.queues_empty queueSize) ready
          (.inl (by rw [List.getElem?_append_right (by simp)]; simp))
        rw [List.set_append_right _ _ (by simp), List.length_replicate, Nat.sub_self] at hnext
        exact hnext
  exact ⟨_, RingBuffer.queues_empty queueSize, rfl, hwait threadCount 1 (Nat.add_comm 1 threadCount)⟩

/-- The first worker takes the next task, and the second one, which was woken for it, waits
again. -/
theorem Reached.takes {waiting done : Nat} (h : Reached threadCount queueSize serverNodeNum
      (inUse q (.ready :: List.replicate (waiting + 1) .waiting) (.adding done) done serverNodeNum))
    (hq : q.Queues []) (hsize : 0 < q.size) :
    ∃ q' : RingBuffer Nat, q'.Queues [] ∧ q'.size = q.size ∧
      Reached threadCount queueSize serverNodeNum
        (inUse q' (.running done :: List.replicate (waiting + 1) .waiting)
          (if done + 1 < serverNodeNum then .adding (done + 1) else .testing) done serverNodeNum) := by
  have hcount : q.count = 0 := hq.count
  have hpushed := hq.push (by rwa [hcount]) done
  refine ⟨(q.push done).pop, hpushed.pop, rfl, ?_⟩
  have hadded : Reached threadCount queueSize serverNodeNum
      (inUse (q.push done) (.ready :: .woken :: List.replicate waiting .waiting)
        (if done + 1 < serverNodeNum then .adding (done + 1) else .testing) done serverNodeNum) := by
    apply h.step (.add 1) ⟨⟨done, rfl⟩, fun _ => rfl⟩
    have hnot : ¬ (false = true ∨ q.size = 0) := fun hor =>
      hor.elim Bool.false_ne_true (Nat.ne_of_gt hsize)
    have hfull : ¬ q.count = q.size := by
      rw [hcount]
      exact Nat.ne_of_lt hsize
    rw [PooledRead.step, inUse, inUse]
    simp only [threadpoolAdd, if_neg hnot, if_neg hfull]
    rfl
  have htaken : Reached threadCount queueSize serverNodeNum
      (inUse (q.push done).pop (.running done :: .woken :: List.replicate waiting .waiting)
        (if done + 1 < serverNodeNum then .adding (done + 1) else .testing) done serverNodeNum) := by
    apply hadded.step (.turn 0) (.inl rfl)
    rw [PooledRead.step, inUse, threadpoolThread_takes hpushed rfl]
    rfl
  exact @Reached.waits _ _ _ _ _ _ _ htaken hpushed.pop 1 (.inr rfl)

/-- The first worker does all tasks but the last one. -/
theorem reached_last {waiting : Nat} (hsize : 0 < queueSize) {done : Nat} (hdone : done < serverNodeNum) :
    ∃ q : RingBuffer Nat, q.Queues [] ∧ q.size = queueSize ∧
      Reached (waiting + 2) queueSize serverNodeNum (inUse q
        (.ready :: List.replicate (waiting + 1) .waiting) (.adding done) done serverNodeNum) := by
  induction done with
  | zero => exact reached_parked
  | succ done ih =>
      obtain ⟨q, hq, hsame, hreached⟩ := ih (Nat.lt_of_succ_lt hdone)
      obtain ⟨q', hq', hsame', htaken⟩ := hreached.takes hq (by rwa [hsame])
      rw [if_pos hdone] at htaken
      refine ⟨q', hq', hsame'.trans hsame, htaken.step (.complete 0 (some 1)) ⟨⟨done, rfl⟩, fun _ => rfl⟩ ?_⟩
      have hmod : (done + 1) % serverNodeNum ≠ 0 := by
        rw [Nat.mod_eq_of_lt hdone]
        exact Nat.succ_ne_zero done
      exact congrArg some (if_neg hmod)

/-- With two workers the last signal may wake one of them instead of the main thread. -/
theorem exists_stuck {waiting : Nat} (hsize : 0 < queueSize) (hservers : 0 < serverNodeNum) :
    ∃ s, Reached (waiting + 2) queueSize serverNodeNum s ∧ s.Stuck := by
  obtain ⟨done, rfl⟩ := Nat.exists_eq_succ_of_ne_zero (Nat.ne_of_gt hservers)
  obtain ⟨q, hq, hsame, hlast⟩ := @reached_last _ _ waiting hsize _ (Nat.lt_succ_self done)
  obtain ⟨q', hq', -, htaken⟩ := hlast.takes hq (by rwa [hsame])
  rw [if_neg (Nat.lt_irrefl _)] at htaken
  -- the main thread waits before the last task is completed
  have hwaiting : Reached (waiting + 2) queueSize (done + 1) (inUse q'
      (.running done :: List.replicate (waiting + 1) .waiting) .waiting done (done + 1)) := by
    apply htaken.step .test rfl
    rw [PooledRead.step, inUse, if_pos (Nat.lt_succ_self done)]
    rfl
  -- the signal wakes the second worker
  have hlost : Reached (waiting + 2) queueSize (done + 1) (inUse q'
      (.ready :: .woken :: List.replicate waiting .waiting) .waiting (done + 1) (done + 1)) := by
    apply hwaiting.step (.complete 0 (some 1)) ⟨⟨done, rfl⟩, fun _ => rfl⟩
    exact congrArg some (if_pos (Nat.mod_self (done + 1)))
  have hsecond := @Reached.waits _ _ _ _ _ _ _ hlost hq' 1 (.inr rfl)
  have hfirst := @Reached.waits _ _ _ _ _ _ _ hsecond hq' 0 (.inl rfl)
  refine ⟨_, hfirst, rfl, rfl, fun e hpossible => ?_⟩
  have hall (worker : Nat) (w : WorkerState Nat)
      (hw : (List.replicate (waiting + 2) WorkerState.waiting)[worker]? = some w) : w = .waiting := by
    rw [List.getElem?_replicate] at hw
    split at hw
    · exact (Option.some.inj hw).symm
    · cases hw
  cases e with
  | add woken =>
      obtain ⟨⟨_, hmain⟩, -⟩ := hpossible
      cases hmain
  | test => cases hpossible
  | turn worker =>
      rcases hpossible with hw | hw
      · cases hall worker _ hw
      · cases hall worker _ hw
  | complete worker woken =>
      obtain ⟨⟨_, hw⟩, -⟩ := hpossible
      cases hall worker _ hw

end PooledRead

end Several

/-! ## The wait -/

/-- The wait for the completion cannot get stuck exactly with at most one worker. -/
theorem completionWait_not_stuck_iff {threadCount queueSize serverNodeNum : Nat}
    (hsize : 0 < queueSize) (hservers : 1 < serverNodeNum) :
    (∀ s, PooledRead.Reached threadCount queueSize serverNodeNum s → ¬ s.Stuck) ↔ threadCount ≤ 1 := by
  constructor
  · intro h
    by_contra hthreads
    obtain ⟨waiting, rfl⟩ := Nat.exists_eq_add_of_le' (Nat.not_le.mp hthreads)
    obtain ⟨s, hs, hstuck⟩ :=
      @PooledRead.exists_stuck _ _ waiting hsize (Nat.lt_trans Nat.one_pos hservers)
    exact h s hs hstuck
  · exact fun hthreads s hs => PooledRead.not_stuck_single hthreads hs

theorem completionWait_not_stuck_two_servers :
    (∀ s, PooledRead.Reached 1 2 2 s → ¬ s.Stuck) ↔ 1 ≤ 1 :=
  completionWait_not_stuck_iff (by decide) (by decide)

/-- Two servers with a worker each. -/
theorem stuck_two_servers : ¬ ∀ threadCount serverNodeNum : Nat, 0 < threadCount → 1 < serverNodeNum →
    ∀ s, PooledRead.Reached threadCount threadCount serverNodeNum s → ¬ s.Stuck := by
  intro h
  obtain ⟨s, hs, hstuck⟩ :=
    @PooledRead.exists_stuck 2 2 0 (by decide) (by decide)
  exact h 2 2 (by decide) (by decide) s hs hstuck

end XHDF5.Client
