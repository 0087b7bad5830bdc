/-
# The thread pool

`threadpool_add` puts a task into a ring of slots and signals `notify`, on which the workers wait
for tasks; `threadpool_destroy` sets `shutdown`, wakes all workers and joins them. Every step below
is what a thread does between locking the mutex and unlocking it or waiting, or the return of a
task's function, so that the steps of all threads come in any order.

The functions of the thread library succeed. A signal wakes one thread that waits, if any, and a
waiting thread may also wake up by itself. Using the pool after it was freed, and a remainder by
zero, have no defined result.
-/

import Mathlib.Algebra.BigOperators.Group.List.Basic
import Mathlib.Algebra.Order.Ring.Nat
import XHDF5.Math.RingBuffer
import XHDF5.Math.Run

namespace XHDF5.Client

open XHDF5.Math

/-! ## The code -/

/-- Where a worker stands in `threadpool_thread`: before the lock, in `pthread_cond_wait`, woken and
before the lock again, in the function of a task, or at its end. -/
inductive WorkerState (τ : Type)
  | ready
  | waiting
  | woken
  | running (task : τ)
  | exited
deriving DecidableEq

/-- A `threadpool_t`. The ring has the `task_queue` with `queue_size`, `head`, `tail` and `count`. -/
structure ThreadPool (τ : Type) where
  queue : RingBuffer τ
  shutdown : Bool
  workers : List (WorkerState τ)
  freed : Bool

variable {τ : Type}

/-- `threadpool_create`. -/
def threadpoolCreate (threadCount queueSize : Nat) : ThreadPool τ where
  queue := .empty queueSize
  shutdown := false
  workers := List.replicate threadCount .ready
  freed := false

/-- `pthread_cond_signal`, with the worker that it wakes if that one waits. -/
def condSignal (workers : List (WorkerState τ)) (woken : Nat) : List (WorkerState τ) :=
  match workers[woken]? with
  | some .waiting => workers.set woken .woken
  | _ => workers

/-- `pthread_cond_broadcast`. -/
def condBroadcast (workers : List (WorkerState τ)) : List (WorkerState τ) :=
  workers.map fun
    | .waiting => .woken
    | worker => worker

/-- `threadpool_add`: the pool and whether it accepted the task. -/
def threadpoolAdd (pool : ThreadPool τ) (task : τ) (woken : Nat) : Option (ThreadPool τ × Bool) :=
  if pool.freed ∨ pool.queue.size = 0 then none
  else if pool.queue.count = pool.queue.size then some (pool, false)
  else
    some ({ pool with queue := pool.queue.push task, workers := condSignal pool.workers woken }, true)

/-- The turn of a worker in `threadpool_thread`: the pool and the task that the worker starts, if
any. -/
def threadpoolThread (pool : ThreadPool τ) (worker : Nat) : Option (ThreadPool τ × List τ) :=
  if pool.freed then none
  else if pool.queue.count = 0 ∧ pool.shutdown = false then
    some ({ pool with workers := pool.workers.set worker .waiting }, [])
  else if pool.queue.count = 0 then
    some ({ pool with workers := pool.workers.set worker .exited }, [])
  else
    (pool.queue.slots pool.queue.head).map fun task =>
      ({ pool with queue := pool.queue.pop, workers := pool.workers.set worker (.running task) }, [task])

/-- The part of `threadpool_destroy` that holds the lock. -/
def threadpoolDestroy (pool : ThreadPool τ) : ThreadPool τ :=
  { pool with shutdown := true, workers := condBroadcast pool.workers }

/-! ## Runs -/

/-- What a thread does next. -/
inductive PoolEvent (τ : Type)
  | add (task : τ) (woken : Nat)
  | turn (worker : Nat)
  | finish (worker : Nat)
  | wakeUp (worker : Nat)
  | destroy
  | joined

/-- The events of workers that were not woken for nothing. -/
def PoolEvent.OfWorker : PoolEvent τ → Prop
  | turn _ => True
  | finish _ => True
  | _ => False

/-- A pool with the tasks that it accepted and those that its workers started, in order. -/
structure TracedPool (τ : Type) where
  pool : ThreadPool τ
  accepted : List τ
  started : List τ

/-- A new pool. -/
def TracedPool.init (threadCount queueSize : Nat) : TracedPool τ :=
  ⟨threadpoolCreate threadCount queueSize, [], []⟩

/-- What is left of `threadpool_destroy` when all workers are joined. -/
def ThreadPool.free (pool : ThreadPool τ) : ThreadPool τ := { pool with freed := true }

/-- The steps that a worker has left without another task. -/
def WorkerState.stepsLeft : WorkerState τ → Nat
  | ready => 1
  | waiting => 0
  | woken => 1
  | running _ => 2
  | exited => 0

namespace TracedPool

/-- One event. -/
def step (s : TracedPool τ) : PoolEvent τ → Option (TracedPool τ)
  | .add task woken =>
      (threadpoolAdd s.pool task woken).map fun result =>
        ⟨result.1, if result.2 then s.accepted ++ [task] else s.accepted, s.started⟩
  | .turn worker =>
      (threadpoolThread s.pool worker).map fun result =>
        ⟨result.1, s.accepted, s.started ++ result.2⟩
  | .finish worker =>
      some { s with pool := { s.pool with workers := s.pool.workers.set worker .ready } }
  | .wakeUp worker =>
      some { s with pool := { s.pool with workers := s.pool.workers.set worker .woken } }
  | .destroy => some { s with pool := threadpoolDestroy s.pool }
  | .joined => some { s with pool := s.pool.free }

/-- A thread is where the event happens, and a signal wakes a worker that waits when one does. -/
def Possible (s : TracedPool τ) : PoolEvent τ → Prop
  | .add _ woken =>
      .waiting ∈ s.pool.workers → s.pool.workers[woken]? = some .waiting
  | .turn worker => s.pool.workers[worker]? = some .ready ∨ s.pool.workers[worker]? = some .woken
  | .finish worker => ∃ task, s.pool.workers[worker]? = some (.running task)
  | .wakeUp worker => s.pool.workers[worker]? = some .waiting
  | .destroy => s.pool.shutdown = false
  | .joined => s.pool.shutdown = true ∧ s.pool.freed = false ∧ ∀ w ∈ s.pool.workers, w = .exited

/-- No worker can go on. -/
def Idle (s : TracedPool τ) : Prop := ∀ e : PoolEvent τ, e.OfWorker → ¬ s.Possible e

/-- The steps that the workers have left when no task comes and none wakes up for nothing. -/
def stepsLeft (s : TracedPool τ) : Nat :=
  2 * s.pool.queue.count + (s.pool.workers.map WorkerState.stepsLeft).sum

/-- The ring has the accepted tasks that were not started, in their order; and when no worker can go
on, or the pool was freed, all of them were started. -/
structure RunsTasks (s : TracedPool τ) : Prop where
  count_le : s.pool.queue.count ≤ s.pool.queue.size
  tail : s.pool.queue.tail = (s.pool.queue.head + s.pool.queue.count) % s.pool.queue.size
  queued : ∃ queue, s.accepted = s.started ++ queue ∧ queue.length = s.pool.queue.count ∧
    ∀ i task, queue[i]? = some task →
      s.pool.queue.slots ((s.pool.queue.head + i) % s.pool.queue.size) = some task
  idle : s.Idle → s.started = s.accepted
  freed : s.pool.freed = true → s.started = s.accepted

/-- The event has a result that runs the tasks, and a worker comes closer to where no worker can go
on. -/
def StepRunsTasks (s : TracedPool τ) (e : PoolEvent τ) : Prop :=
  ∃ s', s.step e = some s' ∧ s'.RunsTasks ∧ (e.OfWorker → s'.stepsLeft < s.stepsLeft)

/-- A task is added to a pool with slots, before all of its workers ended. -/
def AddsToWorkers (s : TracedPool τ) : PoolEvent τ → Prop
  | .add _ _ => 0 < s.pool.queue.size ∧ ∃ w ∈ s.pool.workers, w ≠ .exited
  | _ => True

/-! ## The invariant -/

/-- The tasks in the ring come behind the started ones, some worker is awake while there are any,
and workers end only after `shutdown`. -/
structure Inv (s : TracedPool τ) (queue : List τ) : Prop where
  queues : s.pool.queue.Queues queue
  accepted : s.accepted = s.started ++ queue
  awake : queue ≠ [] → ∃ w ∈ s.pool.workers, w ≠ .waiting ∧ w ≠ .exited
  waiting : s.pool.shutdown = true → .waiting ∉ s.pool.workers
  exited : .exited ∈ s.pool.workers → s.pool.shutdown = true
  freed : s.pool.freed = true → s.pool.shutdown = true ∧ ∀ w ∈ s.pool.workers, w = .exited

end TracedPool

/-! ### Workers -/

section Workers

variable {workers : List (WorkerState τ)} {worker : Nat} {old new w : WorkerState τ}

theorem mem_of_mem_set (h : w ∈ workers.set worker new) (hne : w ≠ new) : w ∈ workers :=
  (List.mem_or_eq_of_mem_set h).resolve_right hne

theorem mem_set_self (h : workers[worker]? = some old) : new ∈ workers.set worker new := by
  apply List.mem_of_getElem? (i := worker)
  rw [List.getElem?_set_self (List.getElem?_eq_some_iff.mp h).1]

theorem sum_set (h : workers[worker]? = some old) :
    ((workers.set worker new).map WorkerState.stepsLeft).sum + old.stepsLeft =
      (workers.map WorkerState.stepsLeft).sum + new.stepsLeft := by
  induction workers generalizing worker with
  | nil => cases h
  | cons first workers ih =>
      cases worker with
      | zero =>
          obtain rfl := Option.some.inj h
          simp only [List.set_cons_zero, List.map_cons, List.sum_cons]
          omega
      | succ worker =>
          have hrest := ih h
          simp only [List.set_cons_succ, List.map_cons, List.sum_cons]
          omega

theorem condSignal_waiting (h : workers[worker]? = some .waiting) :
    condSignal workers worker = workers.set worker .woken := by
  rw [condSignal, h]

theorem condSignal_none (h : .waiting ∉ workers) : condSignal workers worker = workers := by
  rw [condSignal]
  split
  · next hw => exact absurd (List.mem_of_getElem? hw) h
  · rfl

theorem mem_of_mem_condSignal (h : w ∈ condSignal workers worker) (hne : w ≠ .woken) :
    w ∈ workers := by
  rw [condSignal] at h
  split at h
  · exact mem_of_mem_set h hne
  · exact h

theorem length_condSignal : (condSignal workers worker).length = workers.length := by
  rw [condSignal]
  split
  · exact List.length_set
  · rfl

theorem length_threadpoolAdd {pool : ThreadPool τ} {task : τ} {result : ThreadPool τ × Bool}
    (h : threadpoolAdd pool task worker = some result) :
    result.1.workers.length = pool.workers.length := by
  rw [threadpoolAdd] at h
  split at h
  · cases h
  · split at h
    · obtain rfl := Option.some.inj h
      rfl
    · obtain rfl := Option.some.inj h
      exact length_condSignal

theorem length_threadpoolThread {pool : ThreadPool τ} {result : ThreadPool τ × List τ}
    (h : threadpoolThread pool worker = some result) :
    result.1.workers.length = pool.workers.length := by
  rw [threadpoolThread] at h
  split at h
  · cases h
  · split at h
    · obtain rfl := Option.some.inj h
      exact List.length_set
    · split at h
      · obtain rfl := Option.some.inj h
        exact List.length_set
      · obtain ⟨task, -, rfl⟩ := Option.map_eq_some_iff.mp h
        exact List.length_set

/-- A worker takes the first task. -/
theorem threadpoolThread_takes {pool : ThreadPool τ} {task : τ} {queue : List τ}
    (h : pool.queue.Queues (task :: queue)) (hfreed : pool.freed = false) :
    threadpoolThread pool worker = some ({ pool with
      queue := pool.queue.pop, workers := pool.workers.set worker (.running task) }, [task]) := by
  have hcount : pool.queue.count ≠ 0 := by
    rw [h.count]
    exact Nat.succ_ne_zero _
  rw [threadpoolThread, if_neg (Bool.eq_false_iff.mp hfreed), if_neg fun hboth => hcount hboth.1,
    if_neg hcount, h.first]
  rfl

theorem waiting_not_mem_condBroadcast : .waiting ∉ condBroadcast workers := by
  intro hmem
  obtain ⟨w, -, hw⟩ := List.mem_map.mp hmem
  cases w <;> cases hw

theorem mem_condBroadcast (h : w ∈ workers) (hne : w ≠ .waiting) : w ∈ condBroadcast workers := by
  apply List.mem_map.mpr
  refine ⟨w, h, ?_⟩
  cases w with
  | waiting => exact absurd rfl hne
  | ready | woken | running _ | exited => rfl

end Workers

namespace TracedPool

variable {s : TracedPool τ} {queue : List τ}

theorem inv_init (threadCount queueSize : Nat) :
    (init threadCount queueSize : TracedPool τ).Inv [] where
  queues := RingBuffer.queues_empty queueSize
  accepted := rfl
  awake h := absurd rfl h
  waiting h := by cases h
  exited h := by cases List.eq_of_mem_replicate h
  freed h := by cases h

/-- A worker that neither waits nor ended can go on. -/
theorem not_idle {w : WorkerState τ} (hmem : w ∈ s.pool.workers) (hwaiting : w ≠ .waiting)
    (hexited : w ≠ .exited) : ¬ s.Idle := by
  intro hidle
  obtain ⟨worker, hworker⟩ := List.mem_iff_getElem?.mp hmem
  cases w with
  | ready => exact hidle (.turn worker) trivial (.inl hworker)
  | waiting => exact hwaiting rfl
  | woken => exact hidle (.turn worker) trivial (.inr hworker)
  | running task => exact hidle (.finish worker) trivial ⟨task, hworker⟩
  | exited => exact hexited rfl

theorem Inv.runsTasks (h : s.Inv queue) : s.RunsTasks where
  count_le := h.queues.count ▸ h.queues.fits
  tail := h.queues.tail
  queued := ⟨queue, h.accepted, h.queues.count.symm, h.queues.slots⟩
  idle hidle := by
    have hnil : queue = [] := by
      by_contra hne
      obtain ⟨w, hmem, hwaiting, hexited⟩ := h.awake hne
      exact not_idle hmem hwaiting hexited hidle
    rw [h.accepted, hnil, List.append_nil]
  freed hfreed := by
    have hnil : queue = [] := by
      by_contra hne
      obtain ⟨w, hmem, -, hexited⟩ := h.awake hne
      exact hexited ((h.freed hfreed).2 w hmem)
    rw [h.accepted, hnil, List.append_nil]

theorem Inv.not_freed (h : s.Inv queue) {w : WorkerState τ} (hmem : w ∈ s.pool.workers)
    (hexited : w ≠ .exited) : s.pool.freed = false := by
  apply Bool.eq_false_iff.mpr
  intro hfreed
  exact hexited ((h.freed hfreed).2 w hmem)

/-! ### Steps -/

/-- A task is added before all workers ended. -/
theorem Inv.add (h : s.Inv queue) {task : τ} {woken : Nat} (hpossible : s.Possible (.add task woken))
    (hsize : 0 < s.pool.queue.size) {w : WorkerState τ} (hmem : w ∈ s.pool.workers)
    (hexited : w ≠ .exited) :
    ∃ s' queue', s.step (.add task woken) = some s' ∧ s'.Inv queue' := by
  have hnot : ¬ (s.pool.freed = true ∨ s.pool.queue.size = 0) := by
    rintro (hfreed | hzero)
    · rw [h.not_freed hmem hexited] at hfreed
      cases hfreed
    · exact Nat.ne_of_gt hsize hzero
  by_cases hfull : s.pool.queue.count = s.pool.queue.size
  · refine ⟨s, queue, ?_, h⟩
    rw [step, threadpoolAdd, if_neg hnot, if_pos hfull]
    rfl
  · have hroom : s.pool.queue.count < s.pool.queue.size :=
      Nat.lt_of_le_of_ne (h.queues.count ▸ h.queues.fits) hfull
    refine ⟨⟨{ s.pool with
        queue := s.pool.queue.push task, workers := condSignal s.pool.workers woken },
      s.accepted ++ [task], s.started⟩, queue ++ [task], ?_, h.queues.push hroom task, ?_, fun _ => ?_,
      fun hshutdown => ?_, fun hmem' => ?_, fun hfreed => ?_⟩
    · rw [step, threadpoolAdd, if_neg hnot, if_neg hfull]
      rfl
    · rw [h.accepted, List.append_assoc]
    · by_cases hwaiting : .waiting ∈ s.pool.workers
      · refine ⟨.woken, ?_, nofun, nofun⟩
        rw [condSignal_waiting (hpossible hwaiting)]
        exact mem_set_self (hpossible hwaiting)
      · refine ⟨w, ?_, fun heq => hwaiting (heq ▸ hmem), hexited⟩
        rwa [condSignal_none hwaiting]
    · exact fun hmem' => h.waiting hshutdown (mem_of_mem_condSignal hmem' nofun)
    · exact h.exited (mem_of_mem_condSignal hmem' nofun)
    · rw [h.not_freed hmem hexited] at hfreed
      cases hfreed

/-- A worker takes its turn. -/
theorem Inv.turn (h : s.Inv queue) {worker : Nat} (hpossible : s.Possible (.turn worker)) :
    ∃ s' queue', s.step (.turn worker) = some s' ∧ s'.Inv queue' ∧ s'.stepsLeft < s.stepsLeft := by
  obtain ⟨old, hworker, hold, hleft⟩ :
      ∃ old, s.pool.workers[worker]? = some old ∧ old ≠ .exited ∧ old.stepsLeft = 1 := by
    rcases hpossible with hready | hwoken
    · exact ⟨_, hready, nofun, rfl⟩
    · exact ⟨_, hwoken, nofun, rfl⟩
  have hlive := h.not_freed (List.mem_of_getElem? hworker) hold
  have hnot : ¬ s.pool.freed = true := Bool.eq_false_iff.mp hlive
  have hfreed {P : Prop} (hfreed : s.pool.freed = true) : P := absurd hfreed hnot
  cases queue with
  | nil =>
      have hcount : s.pool.queue.count = 0 := h.queues.count
      by_cases hshutdown : s.pool.shutdown = false
      · have hsum := @sum_set _ _ _ _ .waiting hworker
        refine ⟨⟨{ s.pool with workers := s.pool.workers.set worker .waiting }, s.accepted,
          s.started ++ []⟩, [], ?_, ⟨h.queues, ?_, fun hne => absurd rfl hne, fun hset => ?_, ?_, hfreed⟩,
          ?_⟩
        · rw [step, threadpoolThread, if_neg hnot, if_pos ⟨hcount, hshutdown⟩]
          rfl
        · exact h.accepted.trans (List.append_nil _).symm
        · rw [hshutdown] at hset
          cases hset
        · exact fun hmem => h.exited (mem_of_mem_set hmem nofun)
        · rw [hleft] at hsum
          simp only [stepsLeft, WorkerState.stepsLeft] at hsum ⊢
          omega
      · have hsum := @sum_set _ _ _ _ .exited hworker
        have hset : s.pool.shutdown = true := Bool.not_eq_false _ ▸ hshutdown
        refine ⟨⟨{ s.pool with workers := s.pool.workers.set worker .exited }, s.accepted,
          s.started ++ []⟩, [], ?_, ⟨h.queues, ?_, fun hne => absurd rfl hne, fun _ hmem => ?_,
          fun _ => hset, hfreed⟩, ?_⟩
        · rw [step, threadpoolThread, if_neg hnot, if_neg fun hboth => hshutdown hboth.2, if_pos hcount]
          rfl
        · exact h.accepted.trans (List.append_nil _).symm
        · exact h.waiting hset (mem_of_mem_set hmem nofun)
        · rw [hleft] at hsum
          simp only [stepsLeft, WorkerState.stepsLeft] at hsum ⊢
          omega
  | cons task queue =>
      have hcount := h.queues.count
      rw [List.length_cons] at hcount
      have hsum := @sum_set _ _ _ _ (.running task) hworker
      refine ⟨⟨{ s.pool with
          queue := s.pool.queue.pop, workers := s.pool.workers.set worker (.running task) },
        s.accepted, s.started ++ [task]⟩, queue, ?_, ⟨h.queues.pop, ?_, fun _ => ?_, fun hset hmem => ?_,
        fun hmem => ?_, hfreed⟩, ?_⟩
      · rw [step, threadpoolThread_takes h.queues hlive]
        rfl
      · rw [h.accepted, List.append_assoc]
        rfl
      · exact ⟨_, mem_set_self hworker, nofun, nofun⟩
      · exact h.waiting hset (mem_of_mem_set hmem nofun)
      · exact h.exited (mem_of_mem_set hmem nofun)
      · rw [hleft] at hsum
        simp only [stepsLeft, WorkerState.stepsLeft, RingBuffer.pop] at hsum ⊢
        omega

/-- A worker becomes another one that neither waits nor ended. -/
theorem Inv.set (h : s.Inv queue) {worker : Nat} {old new : WorkerState τ}
    (hworker : s.pool.workers[worker]? = some old) (hold : old ≠ .exited) (hwaiting : new ≠ .waiting)
    (hexited : new ≠ .exited) :
    Inv { s with pool := { s.pool with workers := s.pool.workers.set worker new } } queue where
  queues := h.queues
  accepted := h.accepted
  awake _ := ⟨new, mem_set_self hworker, hwaiting, hexited⟩
  waiting hset hmem := h.waiting hset (mem_of_mem_set hmem hwaiting.symm)
  exited hmem := h.exited (mem_of_mem_set hmem hexited.symm)
  freed hfreed := absurd hfreed (Bool.eq_false_iff.mp (h.not_freed (List.mem_of_getElem? hworker) hold))

/-- Every event keeps the invariant, when tasks are added before all workers ended. -/
theorem Inv.step_spec (h : s.Inv queue) {e : PoolEvent τ} (hpossible : s.Possible e)
    (hadds : s.AddsToWorkers e) : ∃ s' queue', s.step e = some s' ∧ s'.Inv queue' ∧
      (e.OfWorker → s'.stepsLeft < s.stepsLeft) := by
  cases e with
  | add task woken =>
      obtain ⟨hsize, w, hmem, hexited⟩ := hadds
      obtain ⟨s', queue', hstep, hinv⟩ := h.add hpossible hsize hmem hexited
      exact ⟨s', queue', hstep, hinv, False.elim⟩
  | turn worker =>
      obtain ⟨s', queue', hstep, hinv, hleft⟩ := h.turn hpossible
      exact ⟨s', queue', hstep, hinv, fun _ => hleft⟩
  | finish worker =>
      obtain ⟨task, hworker⟩ := hpossible
      have hsum := @sum_set _ _ _ _ .ready hworker
      refine ⟨_, queue, rfl, h.set hworker nofun nofun nofun, fun _ => ?_⟩
      simp only [stepsLeft, WorkerState.stepsLeft] at hsum ⊢
      omega
  | wakeUp worker =>
      exact ⟨_, queue, rfl, h.set hpossible nofun nofun nofun, False.elim⟩
  | destroy =>
      refine ⟨_, queue, rfl, ⟨h.queues, h.accepted, fun hne => ?_, fun _ => waiting_not_mem_condBroadcast,
        fun _ => rfl, fun hfreed => ?_⟩, False.elim⟩
      · obtain ⟨w, hmem, hwaiting, hexited⟩ := h.awake hne
        exact ⟨w, mem_condBroadcast hmem hwaiting, hwaiting, hexited⟩
      · exact absurd (h.freed hfreed).1 (Bool.eq_false_iff.mp hpossible)
  | joined =>
      obtain ⟨hset, -, hall⟩ := hpossible
      exact ⟨_, queue, rfl, ⟨h.queues, h.accepted, h.awake, h.waiting, h.exited, fun _ => ⟨hset, hall⟩⟩,
        False.elim⟩

/-- An event runs the tasks exactly when it adds none behind the last worker. -/
theorem Inv.stepRunsTasks_iff (h : s.Inv queue) {e : PoolEvent τ} (hpossible : s.Possible e) :
    s.StepRunsTasks e ↔ s.AddsToWorkers e := by
  constructor
  · rintro ⟨s', hstep, hruns, -⟩
    cases e with
    | add task woken =>
        rw [step, threadpoolAdd] at hstep
        split at hstep
        · cases hstep
        · next hnot =>
            have hsize : 0 < s.pool.queue.size := Nat.pos_of_ne_zero fun hzero => hnot (.inr hzero)
            refine ⟨hsize, ?_⟩
            by_contra hnone
            have hall : ∀ w ∈ s.pool.workers, w = .exited := fun w hmem => by
              by_contra hne
              exact hnone ⟨w, hmem, hne⟩
            have hnil : queue = [] := by
              by_contra hne
              obtain ⟨w, hmem, -, hexited⟩ := h.awake hne
              exact hexited (hall w hmem)
            have hwaiting : .waiting ∉ s.pool.workers := fun hmem => by cases hall _ hmem
            have hcount := h.queues.count
            rw [hnil] at hcount
            rw [if_neg (by rw [hcount]; exact Nat.ne_of_lt hsize), condSignal_none hwaiting] at hstep
            obtain rfl := Option.some.inj hstep
            have hidle : s.Idle := by
              intro e he hpossible
              cases e with
              | turn worker =>
                  rcases hpossible with hworker | hworker
                  · cases hall _ (List.mem_of_getElem? hworker)
                  · cases hall _ (List.mem_of_getElem? hworker)
              | finish worker =>
                  obtain ⟨_, hworker⟩ := hpossible
                  cases hall _ (List.mem_of_getElem? hworker)
              | add _ _ | wakeUp _ | destroy | joined => exact he
            have hstarted : s.started = s.accepted ++ [task] := hruns.idle hidle
            rw [h.accepted, hnil, List.append_nil] at hstarted
            exact List.cons_ne_nil task [] (List.self_eq_append_right.mp hstarted)
    | turn _ | finish _ | wakeUp _ | destroy | joined => trivial
  · intro hadds
    obtain ⟨s', queue', hstep, hinv, hleft⟩ := h.step_spec hpossible hadds
    exact ⟨s', hstep, hinv.runsTasks, hleft⟩

end TracedPool

/-! ## Every accepted task -/

/-- The pool runs the tasks at its start and after every event. -/
def RunsEveryTask (threadCount queueSize : Nat) (events : List (PoolEvent τ)) : Prop :=
  (TracedPool.init threadCount queueSize : TracedPool τ).RunsTasks ∧
    Along TracedPool.step TracedPool.StepRunsTasks events (.init threadCount queueSize)

/-- The pool runs every accepted task once and in order along exactly the runs that add no task
behind the last worker. -/
theorem threadpool_runsEveryTask_iff (threadCount queueSize : Nat) (events : List (PoolEvent τ))
    (hpossible : Along TracedPool.step TracedPool.Possible events (.init threadCount queueSize)) :
    RunsEveryTask threadCount queueSize events ↔
      Along TracedPool.step TracedPool.AddsToWorkers events (.init threadCount queueSize) := by
  have hinit : ∃ queue, (TracedPool.init threadCount queueSize : TracedPool τ).Inv queue :=
    ⟨[], TracedPool.inv_init threadCount queueSize⟩
  have hiff := along_iff_along (I := fun s : TracedPool τ => ∃ queue, s.Inv queue)
    (fun _ _ hinv hpossible => hinv.elim fun _ hinv => hinv.stepRunsTasks_iff hpossible) ?_ hinit
    hpossible
  · constructor
    · exact fun h => hiff.mp h.2
    · exact fun h => ⟨(TracedPool.inv_init threadCount queueSize).runsTasks, hiff.mpr h⟩
  · rintro s e s' ⟨queue, hinv⟩ hpossible hadds hstep
    obtain ⟨next, queue', hnext, hinv', -⟩ := hinv.step_spec hpossible hadds
    rw [hstep] at hnext
    exact ⟨queue', Option.some.inj hnext ▸ hinv'⟩

/-- A run in which the second task waits for the first one, and the pool is shut down meanwhile. -/
theorem threadpool_runsEveryTask_shutdown :
    RunsEveryTask 1 2 [.add 'a' 0, .turn 0, .add 'b' 0, .destroy, .finish 0, .turn 0] ↔
      Along TracedPool.step TracedPool.AddsToWorkers
        [.add 'a' 0, .turn 0, .add 'b' 0, .destroy, .finish 0, .turn 0] (.init 1 2) := by
  apply threadpool_runsEveryTask_iff
  refine ⟨fun hmem => ?_, fun s hs => ?_⟩
  · cases List.mem_singleton.mp hmem
  · obtain rfl := Option.some.inj hs
    refine ⟨.inl rfl, fun s hs => ?_⟩
    obtain rfl := Option.some.inj hs
    refine ⟨fun hmem => ?_, fun s hs => ?_⟩
    · cases List.mem_singleton.mp hmem
    · obtain rfl := Option.some.inj hs
      refine ⟨rfl, fun s hs => ?_⟩
      obtain rfl := Option.some.inj hs
      refine ⟨⟨'a', rfl⟩, fun s hs => ?_⟩
      obtain rfl := Option.some.inj hs
      exact ⟨.inl rfl, fun _ _ => trivial⟩

/-- A task that is added after the workers saw `shutdown` is accepted and never started. -/
theorem not_runsEveryTask_shutdown : ¬ ∀ (threadCount queueSize : Nat) (events : List (PoolEvent Char)),
    Along TracedPool.step TracedPool.Possible events (.init threadCount queueSize) →
      RunsEveryTask threadCount queueSize events := by
  intro h
  have hruns := h 1 1 [.destroy, .turn 0, .add 'a' 0] ?_
  · obtain ⟨-, -, hrun⟩ := hruns
    obtain ⟨-, hrun⟩ := hrun _ rfl
    obtain ⟨⟨s', hstep, hruns, -⟩, -⟩ := hrun _ rfl
    obtain rfl := Option.some.inj hstep
    have hstarted := hruns.idle ?_
    · cases hstarted
    · intro e he hpossible
      cases e with
      | turn worker => rcases hpossible with hworker | hworker <;> cases worker <;> cases hworker
      | finish worker =>
          obtain ⟨_, hworker⟩ := hpossible
          cases worker <;> cases hworker
      | add _ _ | wakeUp _ | destroy | joined => exact he
  · refine ⟨rfl, fun s hs => ?_⟩
    obtain rfl := Option.some.inj hs
    refine ⟨.inl rfl, fun s hs => ?_⟩
    obtain rfl := Option.some.inj hs
    refine ⟨fun hmem => ?_, fun _ _ => trivial⟩
    cases List.mem_singleton.mp hmem

end XHDF5.Client
