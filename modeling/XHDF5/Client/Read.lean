/-
# What a read reports

With one server `RV_dataset_read` returns what `RV_curl_multi_perform` returns. With several it
hands one task for each server to the thread pool, waits until `tasks_completed` reaches their
number, and runs the post-processing callback on every dataset. A task that the pool refuses, the
return value of a worker and a callback that fails are printed at most.
-/

import XHDF5.Client.MultiPerform

namespace XHDF5.Client

open XHDF5.Math

/-- The last answer to a transfer: its status (0 if there was none) and the number of bytes that
were delivered. -/
structure Answer where
  status : Nat
  received : Nat
deriving DecidableEq

/-- What happens to the task of a server: whether `threadpool_add` took it, the messages its
worker reads (the status, and for a 503 whether the back-off limit is reached), and the last
answers to its transfers, one for each dataset. -/
structure Task where
  accepted : Bool
  messages : List (Nat × Bool)
  answers : List Answer
deriving DecidableEq

/-- The message loop of a worker. -/
def workerLoop : List (Nat × Bool) → Outcome Unit
  | [] => .ok ()
  | (status, limitReached) :: messages =>
      if status = 503 then
        if limitReached then .fail else workerLoop messages
      else if status = 200 then workerLoop messages
      else (handleResponse status ()).bind fun _ => workerLoop messages

/-- `RV_curl_multi_perform_multithreading`: its `ret_value`, which nobody gets, and
`tasks_completed`, which it increments on every exit. -/
def rvCurlMultiPerformMultithreading (task : Task) (tasksCompleted : Nat) : Outcome Unit × Nat :=
  (workerLoop task.messages, tasksCompleted + 1)

/-- `tasks_completed` when all tasks that the pool took are done. -/
def tasksCompleted : List Task → Nat → Nat
  | [], completed => completed
  | task :: tasks, completed =>
      tasksCompleted tasks
        (if task.accepted then (rvCurlMultiPerformMultithreading task completed).2 else completed)

/-- The merge loop, given the results of the callback: `printf` is all that a failure does. -/
def mergeLoop : List Bool → Outcome Unit
  | [] => .ok ()
  | _ :: callbacks => mergeLoop callbacks

/-- What the caller of a read sees. -/
inductive ReadResult
  | waits
  | returns (ret_value : Outcome Unit)
deriving DecidableEq

/-- The part of `RV_dataset_read` for several servers, one task for each. -/
def pooledRead (tasks : List Task) (callbacks : List Bool) : ReadResult :=
  if tasksCompleted tasks 0 < tasks.length then .waits else .returns (mergeLoop callbacks)

/-- A run of a read after its transfers were set up: with one server the rounds of its event loop,
with several the tasks and the results of the callback for each dataset. -/
inductive ReadRun
  | single (randomize : Nat → Nat → Nat) (transfers : Transfers) (rounds : List Round)
  | pooled (tasks : List Task) (callbacks : List Bool)

section

variable (nodeSize typeSizes : List Nat)

/-- The bytes that the server `k` owes for the dataset `z`. -/
def owedBytes (z k : Nat) : Nat := nodeSize.getD k 0 * typeSizes.getD z 0

/-- Every server answered 200 with the bytes it owes for every dataset, and every callback
succeeded. -/
structure CompleteTasks (tasks : List Task) (callbacks : List Bool) : Prop where
  accepted : ∀ task ∈ tasks, task.accepted = true
  answered : ∀ (k : Nat) (task : Task), tasks[k]? = some task → ∀ z < typeSizes.length,
    task.answers[z]? = some ⟨200, owedBytes nodeSize typeSizes z k⟩
  callbacks : ∀ succeeds ∈ callbacks, succeeds = true

/-- The same for a single server, in the final state of its event loop. -/
def CompleteSingle (transfers : Transfers) (s : MultiState) : Prop :=
  ∀ (z handle : Nat), transfers.handles[z]? = some handle →
    s.callbacks.count z = 1 ∧
      ∃ answer, s.answers.find? (fun answer => answer.handle = handle) = some answer ∧
        answer.responseCode = 200 ∧ answer.received = owedBytes nodeSize typeSizes z 0

/-- The read returns SUCCEED only if it is complete, and FAIL in every other case. A loop that
goes on has not returned yet; a wait for a task that nobody runs never ends. -/
def ReadRun.Reports : ReadRun → Prop
  | .single randomize transfers rounds =>
      match rvCurlMultiPerform randomize rounds transfers.start with
      | .undefined => False
      | .failed => True
      | .succeeded s => CompleteSingle nodeSize typeSizes transfers s
      | .looping _ => True
  | .pooled tasks callbacks =>
      (pooledRead tasks callbacks = .returns (.ok ()) →
          CompleteTasks nodeSize typeSizes tasks callbacks) ∧
        (¬ CompleteTasks nodeSize typeSizes tasks callbacks →
          pooledRead tasks callbacks = .returns .fail)

/-- curl's contract on a run. -/
def ReadRun.Allowed : ReadRun → Prop
  | .single randomize transfers rounds =>
      Along (nextIteration randomize) Client.Allowed rounds transfers.start
  | .pooled _ _ => True

/-- A 200 brings the bytes it owes. -/
def FullBodies (transfers : Transfers) (_ : MultiState) (r : Round) : Prop :=
  ∀ answer ∈ r.completions, answer.responseCode = 200 →
    ∀ z, transfers.handles[z]? = some answer.handle →
      answer.received = owedBytes nodeSize typeSizes z 0

/-- The runs on which the return value can be trusted: with one server, calm iterations and full
bodies; with several, nothing that would have to be reported. -/
def ReadRun.Trusted : ReadRun → Prop
  | .single randomize transfers rounds =>
      Along (nextIteration randomize) Calm rounds transfers.start ∧
        Along (nextIteration randomize) (FullBodies nodeSize typeSizes transfers) rounds
          transfers.start
  | .pooled tasks callbacks => CompleteTasks nodeSize typeSizes tasks callbacks

/-- Several servers. -/
def ReadRun.IsPooled : ReadRun → Prop
  | .single _ _ _ => False
  | .pooled _ _ => True

end

/-! ## Several servers -/

theorem tasksCompleted_eq (tasks : List Task) (completed : Nat) :
    tasksCompleted tasks completed = completed + (tasks.filter Task.accepted).length := by
  induction tasks generalizing completed with
  | nil => rfl
  | cons task tasks ih =>
      rw [tasksCompleted, ih, List.filter_cons]
      cases task.accepted with
      | true =>
          simp only [rvCurlMultiPerformMultithreading, if_true, List.length_cons]
          omega
      | false => rfl

theorem mergeLoop_eq (callbacks : List Bool) : mergeLoop callbacks = .ok () := by
  induction callbacks with
  | nil => rfl
  | cons _ callbacks ih => exact ih

/-- No failure behind the setup reaches the caller. -/
theorem pooledRead_ne_fail (tasks : List Task) (callbacks : List Bool) :
    pooledRead tasks callbacks ≠ .returns .fail := by
  unfold pooledRead
  split
  · intro h
    cases h
  · rw [mergeLoop_eq]
    intro h
    cases h

/-- With several servers the return value is right exactly when there is nothing to report. -/
theorem reports_pooled_iff {nodeSize typeSizes : List Nat} {tasks : List Task}
    {callbacks : List Bool} :
    (ReadRun.pooled tasks callbacks).Reports nodeSize typeSizes ↔
      CompleteTasks nodeSize typeSizes tasks callbacks := by
  constructor
  · rintro ⟨-, hfail⟩
    by_contra hincomplete
    exact pooledRead_ne_fail tasks callbacks (hfail hincomplete)
  · exact fun hcomplete => ⟨fun _ => hcomplete, fun hincomplete => absurd hcomplete hincomplete⟩

/-! ## One server -/

section Single

variable {randomize : Nat → Nat → Nat} {transfers : Transfers} {s s' : MultiState}

theorem answers_handleMessage {message : Completion}
    (h : handleMessage randomize message s = .ok s') : s'.answers = s.answers := by
  unfold handleMessage handleResponse at h
  split at h
  · split at h
    · cases h
    · split at h
      · cases h
      · obtain rfl := Outcome.ok.inj h
        rfl
  · split at h
    · simp only at h
      split at h
      · cases h
      · split at h
        · obtain rfl := Outcome.ok.inj h
          rfl
        · cases h
    · split at h
      · obtain rfl := Outcome.ok.inj h
        rfl
      · cases h

theorem answers_drain {messages : List Completion} (h : drain randomize messages s = .ok s') :
    s'.answers = s.answers := by
  induction messages generalizing s with
  | nil =>
      obtain rfl := Outcome.ok.inj h
      rfl
  | cons message messages ih =>
      obtain ⟨s₁, hfirst, hrest⟩ := Outcome.bind_eq_ok_iff.mp h
      exact (ih hrest).trans (answers_handleMessage (s := { s with messages }) hfirst)

/-- An iteration records the answers of its perform call and no others. -/
theorem answers_performRound {r : Round} (h : performRound randomize r s = .ok s') :
    s'.answers = r.completions ++ s.answers := by
  unfold performRound at h
  split at h
  · obtain ⟨s₁, hdrain, hscan⟩ := Outcome.bind_eq_ok_iff.mp h
    obtain rfl := Outcome.ok.inj hscan
    have hanswers : s₁.answers = (performed r s).answers := by
      split at hdrain
      · exact answers_drain hdrain
      · obtain rfl := Outcome.ok.inj hdrain
        rfl
    exact hanswers
  · cases h

/-- All answers with status 200 so far brought the bytes they owe. -/
def AnswersFull (nodeSize typeSizes : List Nat) (transfers : Transfers) (s : MultiState) : Prop :=
  ∀ answer ∈ s.answers, answer.responseCode = 200 →
    ∀ z, transfers.handles[z]? = some answer.handle →
      answer.received = owedBytes nodeSize typeSizes z 0

theorem AnswersFull.performRound {nodeSize typeSizes : List Nat} {r : Round}
    (h : AnswersFull nodeSize typeSizes transfers s)
    (hfull : FullBodies nodeSize typeSizes transfers s r)
    (hround : performRound randomize r s = .ok s') :
    AnswersFull nodeSize typeSizes transfers s' := by
  intro answer hanswer
  rw [answers_performRound hround] at hanswer
  rcases List.mem_append.mp hanswer with hnew | hold
  · exact hfull answer hnew
  · exact h answer hold

/-- Where a run of full bodies succeeds, its final answers are full. -/
theorem answersFull_of_succeeded {nodeSize typeSizes : List Nat} {rounds : List Round}
    (h : AnswersFull nodeSize typeSizes transfers s)
    (hfull : Along (nextIteration randomize) (FullBodies nodeSize typeSizes transfers) rounds s)
    (hrun : rvCurlMultiPerform randomize rounds s = .succeeded s') :
    AnswersFull nodeSize typeSizes transfers s' := by
  induction rounds generalizing s with
  | nil => cases hrun
  | cons r rounds ih =>
      rw [rvCurlMultiPerform] at hrun
      cases hround : Client.performRound randomize r s with
      | undefined =>
          rw [hround] at hrun
          cases hrun
      | fail =>
          rw [hround] at hrun
          cases hrun
      | ok s₁ =>
          have hnext := h.performRound hfull.1 hround
          rw [hround] at hrun
          simp only at hrun
          by_cases hloop : 0 < s₁.numPrevRunning
          · rw [if_pos hloop] at hrun
            refine ih hnext (hfull.2 s₁ ?_) hrun
            rw [nextIteration, hround]
            exact if_pos hloop
          · rw [if_neg hloop] at hrun
            cases hrun
            exact hnext

end Single

end XHDF5.Client
