/-
# The event loop of one server

`RV_curl_multi_perform` drives the transfers of `count` datasets on one curl multi handle. Every
iteration calls `curl_multi_perform`, reads the messages only when the number of running handles
differs from that of the iteration before, scans the slots of denied handles, and leaves the loop
as soon as no handle runs.

A `Round` is what the environment contributes to one iteration: the handles that complete in
this perform call, with their status and what handling them will read, and the clock of the
retry scan. curl's contract is `Allowed`.
-/

import Mathlib.Data.List.Nodup
import XHDF5.Math.Run
import XHDF5.Client.Retry

namespace XHDF5.Client

open XHDF5.Math

/-- A completed transfer: its message, the number of bytes that its body delivered, and the clock,
the random number and the result of the post-processing callback that the code meets when it
handles it. The code asks neither for `msg->data.result` nor for the number of bytes. -/
structure Completion where
  handle : Nat
  responseCode : Nat
  received : Nat
  now : Nat
  randomFactor : Nat
  callbackSucceeds : Bool
deriving DecidableEq

/-- The environment's part of one iteration; `curlmOk` says that the `curl_multi` calls return
`CURLM_OK`. -/
structure Round where
  completions : List Completion
  curlmOk : Bool
  currTime : Nat
deriving DecidableEq

/-- The variables of the loop and the state of the multi handle: the handles that run and the
messages not yet read. `answers` (newest perform call first) and `callbacks` record what
happened. -/
structure MultiState where
  transferInfo : List TransferInfo
  failedHandlesToRetry : List (Option Nat)
  numPrevRunning : Nat
  currTime : Nat
  running : List Nat
  messages : List Completion
  answers : List Completion
  callbacks : List Nat
deriving DecidableEq

/-- `HANDLE_RESPONSE`: every status but 200 and 201 fails. -/
def handleResponse {α : Type} (responseCode : Nat) (value : α) : Outcome α :=
  if responseCode = 200 ∨ responseCode = 201 then .ok value else .fail

section

variable (randomize : Nat → Nat → Nat)

/-- The body of the message loop. -/
def handleMessage (message : Completion) (s : MultiState) : Outcome MultiState :=
  if message.responseCode = 503 then
    match denyHandle randomize s.transferInfo s.failedHandlesToRetry message.handle message.now
        message.randomFactor with
    | none => .undefined
    | some denial =>
        if backoffMaxBeforeFail ≤ denial.backoff then .fail
        else .ok { s with
          transferInfo := denial.transferInfo
          failedHandlesToRetry := denial.failedHandlesToRetry }
  else if message.responseCode = 200 then
    let handleIndex :=
      rvGetIndexOfMatchingHandle s.transferInfo s.failedHandlesToRetry.length message.handle
    match s.transferInfo[handleIndex]? with
    | none => .undefined
    | some info =>
        if message.callbackSucceeds then
          .ok { s with
            transferInfo := s.transferInfo.set handleIndex { info with curlEasyHandle := none }
            callbacks := s.callbacks ++ [handleIndex] }
        else .fail
  else handleResponse message.responseCode s

/-- Reading messages until none is left. -/
def drain : List Completion → MultiState → Outcome MultiState
  | [], s => .ok s
  | message :: messages, s => (handleMessage randomize message { s with messages }).bind (drain messages)

/-- The handles that still run after the perform call of a round. -/
def stillRunning (r : Round) (s : MultiState) : List Nat :=
  s.running.filter fun handle => handle ∉ r.completions.map (·.handle)

/-- The state after the perform call of a round. -/
def performed (r : Round) (s : MultiState) : MultiState :=
  { s with
    running := stillRunning r s
    messages := s.messages ++ r.completions
    answers := r.completions ++ s.answers }

/-- The state after the retry scan at `currTime`. -/
def retryScan (currTime : Nat) (s : MultiState) : MultiState :=
  { s with
    currTime
    running := s.running ++ readdedHandles currTime s.transferInfo s.failedHandlesToRetry
    failedHandlesToRetry := slotsAfterScan currTime s.transferInfo s.failedHandlesToRetry }

/-- One iteration of the loop. -/
def performRound (r : Round) (s : MultiState) : Outcome MultiState :=
  if r.curlmOk then
    let s' := performed r s
    let numStillRunning := s'.running.length
    (if s.numPrevRunning ≠ numStillRunning then drain randomize s'.messages s' else .ok s').bind
      fun s'' => .ok { retryScan r.currTime s'' with numPrevRunning := numStillRunning }
  else .fail

/-- Where a run of the loop stands. -/
inductive PerformResult
  | undefined
  | failed
  | succeeded (s : MultiState)
  | looping (s : MultiState)
deriving DecidableEq

/-- `RV_curl_multi_perform`, on the rounds seen so far. -/
def rvCurlMultiPerform : List Round → MultiState → PerformResult
  | [], s => .looping s
  | r :: rounds, s =>
      match performRound randomize r s with
      | .undefined => .undefined
      | .fail => .failed
      | .ok s' => if 0 < s'.numPrevRunning then rvCurlMultiPerform rounds s' else .succeeded s'

/-- The next iteration of the loop starts, where there is one, from this state. -/
def nextIteration (s : MultiState) (r : Round) : Option MultiState :=
  match performRound randomize r s with
  | .ok s' => if 0 < s'.numPrevRunning then some s' else none
  | _ => none

end

/-- The entries that the caller adds to the multi handle. -/
structure Transfers where
  transferInfo : List TransferInfo
  handles : List Nat
  handle_eq : transferInfo.map (·.curlEasyHandle) = handles.map some
  nodup : handles.Nodup

/-- The state before the loop. -/
def Transfers.start (transfers : Transfers) : MultiState where
  transferInfo := transfers.transferInfo
  failedHandlesToRetry := List.replicate transfers.transferInfo.length none
  numPrevRunning := 0
  currTime := 0
  running := transfers.handles
  messages := []
  answers := []
  callbacks := []

/-- curl's contract: a running handle completes once, and no other handle does. -/
def Allowed (s : MultiState) (r : Round) : Prop :=
  (r.completions.map (·.handle)).Nodup ∧ ∀ message ∈ r.completions, message.handle ∈ s.running

instance (s : MultiState) (r : Round) : Decidable (Allowed s r) :=
  inferInstanceAs (Decidable (_ ∧ _))

/-- The status a handle answered last. -/
def finalAnswer (answers : List Completion) (handle : Nat) : Option Nat :=
  (answers.find? fun answer => answer.handle = handle).map (·.responseCode)

/-- Each request finally answered 200, and its callback ran once. -/
def Complete (transfers : Transfers) (s : MultiState) : Prop :=
  ∀ (i handle : Nat), transfers.handles[i]? = some handle →
    finalAnswer s.answers handle = some 200 ∧ s.callbacks.count i = 1

/-- A request whose last answer is 503 runs again, waits in its slot for a back-off that is not
over, or has its answer still unread. -/
def Retried (transfers : Transfers) (s : MultiState) : Prop :=
  ∀ (i handle : Nat), transfers.handles[i]? = some handle →
    finalAnswer s.answers handle = some 503 →
      handle ∈ s.running ∨ (∃ message ∈ s.messages, message.handle = handle) ∨
        s.failedHandlesToRetry[i]? = some (some handle) ∧
          ∀ info, s.transferInfo[i]? = some info → isDue s.currTime info (some handle) = false

/-- What the result of a run has to satisfy. -/
def PerformResult.Right (transfers : Transfers) : PerformResult → Prop
  | undefined => False
  | failed => True
  | succeeded s => Complete transfers s
  | looping s => Retried transfers s

/-- An iteration that reaches no gap of the loop: no request answers 201, and a perform call that
leaves nothing running is not the first one, finds no slot taken and leaves no 503 to read. -/
def Calm (s : MultiState) (r : Round) : Prop :=
  (∀ message ∈ r.completions, message.responseCode ≠ 201) ∧
    (stillRunning r s = [] →
      (s.numPrevRunning = 0 → s.transferInfo = []) ∧
        (∀ slot ∈ s.failedHandlesToRetry, slot = none) ∧
          ∀ message ∈ s.messages ++ r.completions, message.responseCode ≠ 503)

instance (s : MultiState) (r : Round) : Decidable (Calm s r) :=
  inferInstanceAs (Decidable (_ ∧ _))

/-! ## Where a request can be -/

/-- The request of the entry `i` is not finished. -/
structure Open (s : MultiState) (i handle : Nat) : Prop where
  info : ∃ info, s.transferInfo[i]? = some info ∧ info.curlEasyHandle = some handle
  callbacks : s.callbacks.count i = 0

/-- The places of a request between two steps of the loop. -/
inductive Place (s : MultiState) (i handle : Nat) : Prop
  | inFlight (isOpen : Open s i handle) (running : handle ∈ s.running)
      (messages : handle ∉ s.messages.map (·.handle))
      (slot : s.failedHandlesToRetry[i]? = some none)
  | answered (isOpen : Open s i handle) (running : handle ∉ s.running) (message : Completion)
      (messages : message ∈ s.messages) (isOwn : message.handle = handle)
      (final : finalAnswer s.answers handle = some message.responseCode)
      (slot : s.failedHandlesToRetry[i]? = some none)
  | denied (isOpen : Open s i handle) (running : handle ∉ s.running)
      (messages : handle ∉ s.messages.map (·.handle))
      (slot : s.failedHandlesToRetry[i]? = some (some handle))
  | finished (info : ∃ info, s.transferInfo[i]? = some info ∧ info.curlEasyHandle = none)
      (callbacks : s.callbacks.count i = 1) (final : finalAnswer s.answers handle = some 200)
      (running : handle ∉ s.running) (messages : handle ∉ s.messages.map (·.handle))
      (slot : s.failedHandlesToRetry[i]? = some none)

/-- The invariant of the loop. -/
structure Tracked (transfers : Transfers) (s : MultiState) : Prop where
  lengthInfo : s.transferInfo.length = transfers.handles.length
  lengthSlots : s.failedHandlesToRetry.length = transfers.handles.length
  places : ∀ (i handle : Nat), transfers.handles[i]? = some handle → Place s i handle
  runningOwned : ∀ handle ∈ s.running, handle ∈ transfers.handles
  messagesOwned : ∀ message ∈ s.messages, message.handle ∈ transfers.handles
  messagesNodup : (s.messages.map (·.handle)).Nodup
  messagesRead : ∀ message ∈ s.messages, message.responseCode ≠ 201

theorem Transfers.eq_of_handle {transfers : Transfers} {i j handle : Nat}
    (hi : transfers.handles[i]? = some handle) (hj : transfers.handles[j]? = some handle) :
    i = j :=
  (List.getElem?_inj (List.getElem?_eq_some_iff.1 hi).1 transfers.nodup).1 (hi.trans hj.symm)

/-- An entry keeps its handle until it is finished. -/
theorem Place.exists_info {s : MultiState} {i handle : Nat} (h : Place s i handle) :
    ∃ info, s.transferInfo[i]? = some info ∧
      (info.curlEasyHandle = some handle ∨ info.curlEasyHandle = none) := by
  cases h with
  | inFlight isOpen | answered isOpen | denied isOpen =>
      obtain ⟨info, hinfo, hhandle⟩ := isOpen.info
      exact ⟨info, hinfo, Or.inl hhandle⟩
  | finished hinfo =>
      obtain ⟨info, hinfo, hhandle⟩ := hinfo
      exact ⟨info, hinfo, Or.inr hhandle⟩

/-- A step that touches nothing of a request leaves it in its place. -/
theorem Place.of_eq {s s' : MultiState} {i handle : Nat} (h : Place s i handle)
    (hinfo : s'.transferInfo[i]? = s.transferInfo[i]?)
    (hslot : s'.failedHandlesToRetry[i]? = s.failedHandlesToRetry[i]?)
    (hcallbacks : s'.callbacks.count i = s.callbacks.count i)
    (hrunning : handle ∈ s'.running ↔ handle ∈ s.running)
    (hmessages : ∀ message : Completion, message.handle = handle →
      (message ∈ s'.messages ↔ message ∈ s.messages))
    (hanswers : finalAnswer s'.answers handle = finalAnswer s.answers handle) :
    Place s' i handle := by
  have hopen : Open s i handle → Open s' i handle := fun isOpen =>
    ⟨by rw [hinfo]; exact isOpen.info, by rw [hcallbacks]; exact isOpen.callbacks⟩
  have hnone : handle ∉ s.messages.map (·.handle) → handle ∉ s'.messages.map (·.handle) := by
    intro hnot hmem
    obtain ⟨message, hmessage, howner⟩ := List.mem_map.1 hmem
    exact hnot (List.mem_map.2 ⟨message, (hmessages message howner).1 hmessage, howner⟩)
  cases h with
  | inFlight isOpen running messages slot =>
      exact .inFlight (hopen isOpen) (hrunning.2 running) (hnone messages) (hslot.trans slot)
  | answered isOpen running message messages isOwn final slot =>
      exact .answered (hopen isOpen) (running ∘ hrunning.1) message
        ((hmessages message isOwn).2 messages) isOwn (hanswers.trans final) (hslot.trans slot)
  | denied isOpen running messages slot =>
      exact .denied (hopen isOpen) (running ∘ hrunning.1) (hnone messages) (hslot.trans slot)
  | finished info callbacks final running messages slot =>
      exact .finished (by rw [hinfo]; exact info) (hcallbacks.trans callbacks)
        (hanswers.trans final) (running ∘ hrunning.1) (hnone messages) (hslot.trans slot)

namespace Tracked

variable {transfers : Transfers} {s : MultiState}

/-- Each handle stands in its own entry only. -/
theorem distinctHandles (h : Tracked transfers s) : DistinctHandles s.transferInfo := by
  have howner : ∀ (i handle : Nat) (info : TransferInfo), s.transferInfo[i]? = some info →
      info.curlEasyHandle = some handle → transfers.handles[i]? = some handle := by
    intro i handle info hinfo hhandle
    have hi : i < transfers.handles.length := by
      rw [← h.lengthInfo]
      exact (List.getElem?_eq_some_iff.1 hinfo).1
    have hown : transfers.handles[i]? = some transfers.handles[i] := List.getElem?_eq_getElem hi
    obtain ⟨info', hinfo', hcases⟩ := (h.places i _ hown).exists_info
    rw [hinfo] at hinfo'
    cases hinfo'
    rcases hcases with hcase | hcase
    · rw [hown, ← hcase, hhandle]
    · rw [hhandle] at hcase
      cases hcase
  intro i j a b handle ha hb hhandle hhandle'
  exact Transfers.eq_of_handle (howner i handle a ha hhandle) (howner j handle b hb hhandle')

/-- The request a message belongs to. -/
theorem of_message (h : Tracked transfers s) {message : Completion}
    (hmessage : message ∈ s.messages) :
    ∃ i, transfers.handles[i]? = some message.handle ∧ Open s i message.handle ∧
      message.handle ∉ s.running ∧ s.failedHandlesToRetry[i]? = some none ∧
        finalAnswer s.answers message.handle = some message.responseCode := by
  obtain ⟨i, hi⟩ := List.mem_iff_getElem?.1 (h.messagesOwned message hmessage)
  have hmem : message.handle ∈ s.messages.map (·.handle) := List.mem_map.2 ⟨message, hmessage, rfl⟩
  cases h.places i _ hi with
  | inFlight _ _ messages => exact absurd hmem messages
  | denied _ _ messages => exact absurd hmem messages
  | finished _ _ _ _ messages => exact absurd hmem messages
  | answered isOpen running other hother isOwn final slot =>
      have : other = message :=
        List.inj_on_of_nodup_map h.messagesNodup hother hmessage isOwn
      subst this
      exact ⟨i, hi, isOpen, running, slot, final⟩

/-- The requests of the other entries do not notice what happens to one entry when its message
is taken. -/
theorem place_of_ne (h : Tracked transfers s) {message : Completion} {messages : List Completion}
    (hmessages : s.messages = message :: messages) {i j handle : Nat}
    (hi : transfers.handles[i]? = some message.handle) (hj : transfers.handles[j]? = some handle)
    (hij : i ≠ j) {s' : MultiState} (hinfo : s'.transferInfo[j]? = s.transferInfo[j]?)
    (hslot : s'.failedHandlesToRetry[j]? = s.failedHandlesToRetry[j]?)
    (hcallbacks : s'.callbacks.count j = s.callbacks.count j) (hrunning : s'.running = s.running)
    (hrest : s'.messages = messages) (hanswers : s'.answers = s.answers) : Place s' j handle := by
  refine (h.places j handle hj).of_eq hinfo hslot hcallbacks (by rw [hrunning]) ?_
    (by rw [hanswers])
  intro other hother
  have hne : other ≠ message := by
    rintro rfl
    exact hij (Transfers.eq_of_handle hi (hother ▸ hj))
  rw [hrest, hmessages, List.mem_cons]
  exact ⟨Or.inr, fun hmem => hmem.resolve_left hne⟩

/-- A message that was taken leaves the others as they were. -/
theorem not_mem_rest (h : Tracked transfers s) {message : Completion} {messages : List Completion}
    (hmessages : s.messages = message :: messages) :
    message.handle ∉ messages.map (·.handle) := by
  have hnodup := h.messagesNodup
  rw [hmessages, List.map_cons] at hnodup
  exact (List.nodup_cons.1 hnodup).1

/-- The invariant after a message was taken, from the places of the requests. -/
theorem of_taken (h : Tracked transfers s) {message : Completion} {messages : List Completion}
    (hmessages : s.messages = message :: messages) {s' : MultiState}
    (hinfo : s'.transferInfo.length = s.transferInfo.length)
    (hslots : s'.failedHandlesToRetry.length = s.failedHandlesToRetry.length)
    (hrunning : s'.running = s.running) (hrest : s'.messages = messages)
    (hplaces : ∀ (i handle : Nat), transfers.handles[i]? = some handle → Place s' i handle) :
    Tracked transfers s' where
  lengthInfo := hinfo.trans h.lengthInfo
  lengthSlots := hslots.trans h.lengthSlots
  places := hplaces
  runningOwned := by
    rw [hrunning]
    exact h.runningOwned
  messagesOwned := by
    rw [hrest]
    intro other hother
    exact h.messagesOwned other (by rw [hmessages]; exact List.mem_cons_of_mem _ hother)
  messagesNodup := by
    have hnodup := h.messagesNodup
    rw [hmessages, List.map_cons] at hnodup
    rw [hrest]
    exact (List.nodup_cons.1 hnodup).2
  messagesRead := by
    rw [hrest]
    intro other hother
    exact h.messagesRead other (by rw [hmessages]; exact List.mem_cons_of_mem _ hother)

end Tracked

/-! ## One step of the loop -/

variable (randomize : Nat → Nat → Nat) {transfers : Transfers} {s : MultiState}

/-- What a step from `s` keeps besides the invariant: it changes neither the running handles nor
the answers. -/
structure Steady (s s' : MultiState) : Prop where
  running : s'.running = s.running
  answers : s'.answers = s.answers

/-- Handling one message fails or keeps the invariant; unless it is a 503 it takes no slot. -/
theorem handleMessage_tracked (h : Tracked transfers s) {message : Completion}
    {messages : List Completion} (hmessages : s.messages = message :: messages) :
    handleMessage randomize message { s with messages } = .fail ∨
      ∃ s', handleMessage randomize message { s with messages } = .ok s' ∧
        Tracked transfers s' ∧ s'.messages = messages ∧ Steady s s' ∧
          (message.responseCode ≠ 503 → s'.failedHandlesToRetry = s.failedHandlesToRetry) := by
  have hmem : message ∈ s.messages := by
    rw [hmessages]
    exact List.mem_cons_self
  obtain ⟨i, hi, isOpen, hrunning, hslot, hfinal⟩ := h.of_message hmem
  obtain ⟨info, hinfo, hhandle⟩ := isOpen.info
  have hlt : i < s.failedHandlesToRetry.length := (List.getElem?_eq_some_iff.1 hslot).1
  have hltInfo : i < s.transferInfo.length := (List.getElem?_eq_some_iff.1 hinfo).1
  by_cases hdenied : message.responseCode = 503
  · unfold handleMessage
    simp only
    rw [if_pos hdenied, denyHandle_eq h.distinctHandles hinfo hhandle, if_pos hlt]
    simp only
    by_cases hlimit : backoffMaxBeforeFail ≤
        nextBackoff randomize info.currentBackoffDuration message.randomFactor
    · exact Or.inl (if_pos hlimit)
    · refine Or.inr ⟨_, if_neg hlimit, ?_, rfl, ⟨rfl, rfl⟩, fun hne => absurd hdenied hne⟩
      refine h.of_taken hmessages List.length_set List.length_set rfl rfl ?_
      intro j handle hj
      by_cases hij : i = j
      · subst hij
        obtain rfl : message.handle = handle := Option.some.inj (hi.symm.trans hj)
        refine .denied ⟨⟨_, List.getElem?_set_self hltInfo, hhandle⟩, isOpen.callbacks⟩ hrunning
          (h.not_mem_rest hmessages) (List.getElem?_set_self hlt)
      · exact h.place_of_ne hmessages hi hj hij (List.getElem?_set_ne hij)
          (List.getElem?_set_ne hij) rfl rfl rfl rfl
  · by_cases hok : message.responseCode = 200
    · have hindex : rvGetIndexOfMatchingHandle s.transferInfo s.failedHandlesToRetry.length
          message.handle = i := by
        rw [rvGetIndexOfMatchingHandle_eq h.distinctHandles hinfo hhandle, if_pos hlt]
      unfold handleMessage
      simp only
      rw [if_neg hdenied, if_pos hok, hindex, hinfo]
      simp only
      cases hcallback : message.callbackSucceeds with
      | false => exact Or.inl rfl
      | true =>
          refine Or.inr ⟨_, rfl, ?_, rfl, ⟨rfl, rfl⟩, fun _ => rfl⟩
          refine h.of_taken hmessages List.length_set rfl rfl rfl ?_
          intro j handle hj
          by_cases hij : i = j
          · subst hij
            obtain rfl : message.handle = handle := Option.some.inj (hi.symm.trans hj)
            refine .finished ⟨_, List.getElem?_set_self hltInfo, rfl⟩ ?_ (hok ▸ hfinal) hrunning
              (h.not_mem_rest hmessages) hslot
            simp only [List.count_append, isOpen.callbacks, List.count_singleton_self, Nat.zero_add]
          · refine h.place_of_ne hmessages hi hj hij (List.getElem?_set_ne hij) rfl ?_ rfl rfl rfl
            simp only [List.count_append, List.count_singleton, beq_iff_eq, if_neg hij, Nat.add_zero]
    · refine Or.inl ?_
      have hread := h.messagesRead message hmem
      unfold handleMessage handleResponse
      rw [if_neg hdenied, if_neg hok, if_neg (by rintro (h | h) <;> contradiction)]

/-- Reading all messages fails or leaves every request finished, running or denied. -/
theorem drain_tracked {messages : List Completion} (h : Tracked transfers s)
    (hmessages : s.messages = messages) :
    drain randomize messages s = .fail ∨
      ∃ s', drain randomize messages s = .ok s' ∧ Tracked transfers s' ∧ s'.messages = [] ∧
        Steady s s' ∧ ((∀ message ∈ messages, message.responseCode ≠ 503) →
          s'.failedHandlesToRetry = s.failedHandlesToRetry) := by
  induction messages generalizing s with
  | nil => exact Or.inr ⟨s, rfl, h, hmessages, ⟨rfl, rfl⟩, fun _ => rfl⟩
  | cons message messages ih =>
      rcases handleMessage_tracked randomize h hmessages with hfail | hstep
      · exact Or.inl (by rw [drain, hfail]; rfl)
      · obtain ⟨s', hs', htracked, hrest, hsteady, hslots⟩ := hstep
        rw [drain, hs']
        rcases ih htracked hrest with hfail | hrun
        · exact Or.inl hfail
        · obtain ⟨s'', hs'', htracked', hrest', hsteady', hslots'⟩ := hrun
          refine Or.inr ⟨s'', hs'', htracked', hrest', ⟨hsteady'.running.trans hsteady.running,
            hsteady'.answers.trans hsteady.answers⟩, fun hall => ?_⟩
          rw [hslots' fun other hother => hall other (List.mem_cons_of_mem _ hother)]
          exact hslots (hall message List.mem_cons_self)

/-- The answers of a round come before the older ones. -/
theorem finalAnswer_append (answers older : List Completion) (handle : Nat) :
    finalAnswer (answers ++ older) handle =
      (finalAnswer answers handle).or (finalAnswer older handle) := by
  unfold finalAnswer
  rw [List.find?_append, Option.map_or]

theorem finalAnswer_eq_none {answers : List Completion} {handle : Nat}
    (h : handle ∉ answers.map (·.handle)) : finalAnswer answers handle = none := by
  rw [finalAnswer, Option.map_eq_none_iff, List.find?_eq_none]
  intro answer hanswer howner
  exact h (List.mem_map.2 ⟨answer, hanswer, of_decide_eq_true howner⟩)

/-- A handle that completes once in a perform call answers with that completion. -/
theorem finalAnswer_eq_some {answers : List Completion} {answer : Completion}
    (hnodup : (answers.map (·.handle)).Nodup) (hanswer : answer ∈ answers) :
    finalAnswer answers answer.handle = some answer.responseCode := by
  rw [finalAnswer]
  cases hfind : answers.find? fun other => other.handle = answer.handle with
  | none =>
      rw [List.find?_eq_none] at hfind
      exact absurd (decide_eq_true rfl) (hfind answer hanswer)
  | some other =>
      have hmatch := List.find?_some hfind
      have howner : other.handle = answer.handle := of_decide_eq_true hmatch
      have : other = answer :=
        List.inj_on_of_nodup_map hnodup (List.mem_of_find?_eq_some hfind) hanswer howner
      rw [this, Option.map_some]

theorem mem_stillRunning {r : Round} {handle : Nat} :
    handle ∈ stillRunning r s ↔ handle ∈ s.running ∧ handle ∉ r.completions.map (·.handle) := by
  rw [stillRunning, List.mem_filter, decide_eq_true_eq]

/-- The perform call moves the requests that complete from the running ones to the messages. -/
theorem performed_tracked (h : Tracked transfers s) {r : Round} (hallowed : Allowed s r)
    (hread : ∀ message ∈ r.completions, message.responseCode ≠ 201) :
    Tracked transfers (performed r s) := by
  have hnew : ∀ {handle : Nat}, handle ∉ s.running → handle ∉ r.completions.map (·.handle) := by
    intro handle hnot hmem
    obtain ⟨message, hmessage, rfl⟩ := List.mem_map.1 hmem
    exact hnot (hallowed.2 message hmessage)
  have hkept : ∀ {i handle : Nat}, Place s i handle → handle ∉ r.completions.map (·.handle) →
      Place (performed r s) i handle := by
    intro i handle hplace hnot
    refine hplace.of_eq rfl rfl rfl ?_ ?_ ?_
    · exact mem_stillRunning.trans (and_iff_left hnot)
    · intro message howner
      simp only [performed, List.mem_append]
      refine or_iff_left fun hmessage => hnot (List.mem_map.2 ⟨message, hmessage, howner⟩)
    · simp only [performed]
      rw [finalAnswer_append, finalAnswer_eq_none hnot, Option.none_or]
  refine ⟨h.lengthInfo, h.lengthSlots, ?_, ?_, ?_, ?_, ?_⟩
  · intro i handle hi
    have hplace := h.places i handle hi
    by_cases hmem : handle ∈ r.completions.map (·.handle)
    · have hrunning : handle ∈ s.running := by
        by_contra hnot
        exact hnew hnot hmem
      obtain ⟨message, hmessage, howner⟩ := List.mem_map.1 hmem
      cases hplace with
      | answered _ running => exact absurd hrunning running
      | denied _ running => exact absurd hrunning running
      | finished _ _ _ running => exact absurd hrunning running
      | inFlight isOpen _ _ slot =>
          refine .answered ⟨isOpen.info, isOpen.callbacks⟩ ?_ message
            (List.mem_append_right _ hmessage) howner ?_ slot
          · exact fun hstill => (mem_stillRunning.1 hstill).2 hmem
          · subst howner
            simp only [performed]
            rw [finalAnswer_append, finalAnswer_eq_some hallowed.1 hmessage, Option.some_or]
    · exact hkept hplace hmem
  · intro handle hhandle
    exact h.runningOwned handle (mem_stillRunning.1 hhandle).1
  · intro message hmessage
    rcases List.mem_append.1 hmessage with hold | hcompleted
    · exact h.messagesOwned message hold
    · exact h.runningOwned _ (hallowed.2 message hcompleted)
  · simp only [performed, List.map_append]
    refine List.nodup_append'.2 ⟨h.messagesNodup, hallowed.1, ?_⟩
    intro handle hold hcompleted
    obtain ⟨message, hmessage, rfl⟩ := List.mem_map.1 hold
    obtain ⟨i, _, _, hnot, _⟩ := h.of_message hmessage
    exact hnew hnot hcompleted
  · intro message hmessage
    rcases List.mem_append.1 hmessage with hold | hcompleted
    · exact h.messagesRead message hold
    · exact hread message hcompleted

/-- The retry scan moves the requests whose back-off is over to the running ones. -/
theorem retryScan_tracked (h : Tracked transfers s) (currTime : Nat) :
    Tracked transfers (retryScan currTime s) := by
  have howner : ∀ {i handle : Nat}, s.failedHandlesToRetry[i]? = some (some handle) →
      transfers.handles[i]? = some handle := by
    intro i handle hslot
    have hi : i < transfers.handles.length := by
      rw [← h.lengthSlots]
      exact (List.getElem?_eq_some_iff.1 hslot).1
    have hown : transfers.handles[i]? = some transfers.handles[i] := List.getElem?_eq_getElem hi
    cases h.places i _ hown with
    | inFlight _ _ _ slot | answered _ _ _ _ _ _ slot | finished _ _ _ _ _ slot =>
        rw [hslot] at slot
        cases slot
    | denied _ _ _ slot =>
        rw [hslot] at slot
        cases slot
        exact hown
  have hmem : ∀ {i handle : Nat} {info : TransferInfo}, transfers.handles[i]? = some handle →
      s.transferInfo[i]? = some info →
      (handle ∈ readdedHandles currTime s.transferInfo s.failedHandlesToRetry ↔
        s.failedHandlesToRetry[i]? = some (some handle) ∧
          isDue currTime info (some handle) = true) := by
    intro i handle info hi hinfo
    rw [mem_readdedHandles_iff]
    constructor
    · rintro ⟨j, other, hother, hslot, hdue⟩
      obtain rfl : j = i := Transfers.eq_of_handle (howner hslot) hi
      rw [hinfo] at hother
      cases hother
      exact ⟨hslot, hdue⟩
    · rintro ⟨hslot, hdue⟩
      exact ⟨i, info, hinfo, hslot, hdue⟩
  refine ⟨h.lengthInfo, ?_, ?_, ?_, h.messagesOwned, h.messagesNodup, h.messagesRead⟩
  · exact (length_slotsAfterScan (Nat.le_of_eq (h.lengthSlots.trans h.lengthInfo.symm))).trans
      h.lengthSlots
  · intro i handle hi
    have hplace := h.places i handle hi
    obtain ⟨info, hinfo, -⟩ := hplace.exists_info
    have hslots : ∀ {slot : Option Nat}, s.failedHandlesToRetry[i]? = some slot →
        (retryScan currTime s).failedHandlesToRetry[i]? =
          some (if isDue currTime info slot then none else slot) :=
      fun hslot => getElem?_slotsAfterScan hinfo hslot currTime
    have hidle : s.failedHandlesToRetry[i]? = some none →
        (retryScan currTime s).failedHandlesToRetry[i]? = s.failedHandlesToRetry[i]? ∧
          (handle ∈ (retryScan currTime s).running ↔ handle ∈ s.running) := by
      intro hslot
      refine ⟨(hslots hslot).trans hslot.symm, ?_⟩
      simp only [retryScan, List.mem_append, hmem hi hinfo, hslot, Option.some.injEq, reduceCtorEq,
        false_and, or_false]
    cases hplace with
    | inFlight isOpen running messages slot =>
        exact (h.places i handle hi).of_eq rfl (hidle slot).1 rfl (hidle slot).2
          (fun _ _ => Iff.rfl) rfl
    | answered isOpen running message messages isOwn final slot =>
        exact (h.places i handle hi).of_eq rfl (hidle slot).1 rfl (hidle slot).2
          (fun _ _ => Iff.rfl) rfl
    | finished info callbacks final running messages slot =>
        exact (h.places i handle hi).of_eq rfl (hidle slot).1 rfl (hidle slot).2
          (fun _ _ => Iff.rfl) rfl
    | denied isOpen running messages slot =>
        have hrunning : handle ∈ (retryScan currTime s).running ↔
            isDue currTime info (some handle) = true := by
          simp only [retryScan, List.mem_append, hmem hi hinfo, slot, true_and, running, false_or]
        by_cases hdue : isDue currTime info (some handle) = true
        · refine .inFlight ⟨isOpen.info, isOpen.callbacks⟩ (hrunning.2 hdue) messages ?_
          rw [hslots slot, if_pos hdue]
        · refine .denied ⟨isOpen.info, isOpen.callbacks⟩ (hdue ∘ hrunning.1) messages ?_
          rw [hslots slot, if_neg hdue]
  · intro handle hhandle
    rcases List.mem_append.1 hhandle with hold | hreadded
    · exact h.runningOwned handle hold
    · obtain ⟨i, _, _, hslot, _⟩ := mem_readdedHandles_iff.1 hreadded
      exact List.mem_of_getElem? (howner hslot)

/-- After a scan no taken slot is due. -/
theorem not_isDue_retryScan (h : Tracked transfers s) {currTime i handle : Nat}
    {info : TransferInfo} (hinfo : s.transferInfo[i]? = some info)
    (hslot : (retryScan currTime s).failedHandlesToRetry[i]? = some (some handle)) :
    isDue currTime info (some handle) = false := by
  have hi : i < s.failedHandlesToRetry.length := by
    rw [h.lengthSlots, ← (retryScan_tracked h currTime).lengthSlots]
    exact (List.getElem?_eq_some_iff.1 hslot).1
  have hold := getElem?_slotsAfterScan hinfo (List.getElem?_eq_getElem hi) currTime
  simp only [retryScan] at hslot
  rw [hslot] at hold
  by_cases hdue : isDue currTime info s.failedHandlesToRetry[i] = true
  · rw [if_pos hdue] at hold
    cases hold
  · rw [if_neg hdue] at hold
    rw [Option.some.inj hold]
    exact Bool.eq_false_iff.2 hdue

/-- Where nothing runs, no message is unread and no slot is taken, every request is finished. -/
theorem Tracked.complete (h : Tracked transfers s) (hrunning : s.running = [])
    (hmessages : s.messages = []) (hslots : ∀ slot ∈ s.failedHandlesToRetry, slot = none) :
    Complete transfers s := by
  intro i handle hi
  cases h.places i handle hi with
  | inFlight _ running =>
      rw [hrunning] at running
      cases running
  | answered _ _ message messages =>
      rw [hmessages] at messages
      cases messages
  | denied _ _ _ slot => cases hslots _ (List.mem_of_getElem? slot)
  | finished _ callbacks final => exact ⟨final, callbacks⟩

/-- Idle slots give nothing back to the multi handle. -/
theorem retryScan_of_idle (h : Tracked transfers s) (currTime : Nat)
    (hslots : ∀ slot ∈ s.failedHandlesToRetry, slot = none) :
    (retryScan currTime s).running = s.running ∧
      ∀ slot ∈ (retryScan currTime s).failedHandlesToRetry, slot = none := by
  constructor
  · have hnone : readdedHandles currTime s.transferInfo s.failedHandlesToRetry = [] := by
      rw [List.eq_nil_iff_forall_not_mem]
      intro handle hmem
      obtain ⟨i, info, _, hslot, _⟩ := mem_readdedHandles_iff.1 hmem
      cases hslots _ (List.mem_of_getElem? hslot)
    simp only [retryScan, hnone, List.append_nil]
  · intro slot hslot
    obtain ⟨i, hi⟩ := List.mem_iff_getElem?.1 hslot
    have hlt : i < transfers.handles.length := by
      rw [← (retryScan_tracked h currTime).lengthSlots]
      exact (List.getElem?_eq_some_iff.1 hi).1
    have hold := getElem?_slotsAfterScan
      (List.getElem?_eq_getElem (l := s.transferInfo) (by rw [h.lengthInfo]; exact hlt))
      (List.getElem?_eq_getElem (l := s.failedHandlesToRetry) (by rw [h.lengthSlots]; exact hlt))
      currTime
    simp only [retryScan] at hi
    rw [hi, hslots _ (List.getElem_mem _), ite_self] at hold
    exact Option.some.inj hold

/-- A request that was denied and is tracked runs, is unread or waits. -/
theorem Tracked.retried (h : Tracked transfers s)
    (hwaiting : ∀ (i handle : Nat) (info : TransferInfo), s.transferInfo[i]? = some info →
      s.failedHandlesToRetry[i]? = some (some handle) →
        isDue s.currTime info (some handle) = false) :
    Retried transfers s := by
  intro i handle hi hdenied
  cases h.places i handle hi with
  | inFlight _ running => exact Or.inl running
  | answered _ _ message messages isOwn => exact Or.inr (Or.inl ⟨message, messages, isOwn⟩)
  | denied _ _ _ slot =>
      exact Or.inr (Or.inr ⟨slot, fun info hinfo => hwaiting i handle info hinfo slot⟩)
  | finished _ _ final =>
      rw [hdenied] at final
      cases final

/-- What a calm iteration leaves behind when it does not fail. -/
structure RoundEnd (transfers : Transfers) (r : Round) (s s' : MultiState) : Prop where
  tracked : Tracked transfers s'
  retried : Retried transfers s'
  numPrevRunning : s'.numPrevRunning = (stillRunning r s).length
  complete : stillRunning r s = [] → Complete transfers s'

/-- Step lemma: a calm iteration has a defined result and keeps the invariant. -/
theorem performRound_tracked (h : Tracked transfers s) {r : Round} (hallowed : Allowed s r)
    (hcalm : Calm s r) :
    performRound randomize r s = .fail ∨
      ∃ s', performRound randomize r s = .ok s' ∧ RoundEnd transfers r s s' := by
  obtain ⟨hread, hlast⟩ := hcalm
  have hperformed := performed_tracked h hallowed hread
  -- The scan ends an iteration that did not fail before it.
  have hscan : ∀ s'', Tracked transfers s'' →
      (stillRunning r s = [] → Complete transfers (retryScan r.currTime s'')) →
      RoundEnd transfers r s
        { retryScan r.currTime s'' with numPrevRunning := (stillRunning r s).length } := by
    intro s'' htracked hcomplete
    have hafter := retryScan_tracked htracked r.currTime
    refine ⟨⟨hafter.lengthInfo, hafter.lengthSlots, fun i handle hi => ?_, hafter.runningOwned,
      hafter.messagesOwned, hafter.messagesNodup, hafter.messagesRead⟩, ?_, rfl, hcomplete⟩
    · exact (hafter.places i handle hi).of_eq rfl rfl rfl Iff.rfl (fun _ _ => Iff.rfl) rfl
    · exact hafter.retried fun i handle info hinfo hslot =>
        not_isDue_retryScan htracked hinfo hslot
  unfold performRound
  cases hcurlm : r.curlmOk with
  | false => exact Or.inl rfl
  | true =>
      rw [if_pos rfl]
      simp only
      by_cases hchanged : s.numPrevRunning ≠ (performed r s).running.length
      · rw [if_pos hchanged]
        rcases drain_tracked randomize hperformed rfl with hfail | hdrained
        · exact Or.inl (by rw [hfail]; rfl)
        · obtain ⟨s'', hs'', htracked, hmessages, hsteady, hslots⟩ := hdrained
          refine Or.inr ⟨_, by rw [hs'']; rfl, hscan s'' htracked ?_⟩
          intro hstill
          obtain ⟨_, hidle, hdenied⟩ := hlast hstill
          have hidle' : ∀ slot ∈ s''.failedHandlesToRetry, slot = none := by
            rw [hslots hdenied]
            exact hidle
          obtain ⟨hrunning, hfree⟩ := retryScan_of_idle htracked r.currTime hidle'
          exact (retryScan_tracked htracked r.currTime).complete
            (hrunning.trans (hsteady.running.trans hstill)) hmessages hfree
      · rw [if_neg hchanged]
        refine Or.inr ⟨_, rfl, hscan _ hperformed ?_⟩
        -- The count did not change: nothing ran before, so there is no entry at all.
        intro hstill i handle hi
        have hprev : s.numPrevRunning = 0 := by
          rw [not_not.1 hchanged]
          simp only [performed, hstill, List.length_nil]
        have hnone : transfers.handles = [] := by
          rw [← List.length_eq_zero_iff, ← h.lengthInfo, (hlast hstill).1 hprev, List.length_nil]
        rw [hnone] at hi
        cases hi

theorem start_tracked (transfers : Transfers) : Tracked transfers transfers.start := by
  have hlength : transfers.transferInfo.length = transfers.handles.length := by
    have := congrArg List.length transfers.handle_eq
    rwa [List.length_map, List.length_map] at this
  refine ⟨hlength, ?_, ?_, fun _ h => h, ?_, List.nodup_nil, ?_⟩
  · exact List.length_replicate.trans hlength
  · intro i handle hi
    have hlt : i < transfers.transferInfo.length := by
      rw [hlength]
      exact (List.getElem?_eq_some_iff.1 hi).1
    have hhandle : transfers.transferInfo[i].curlEasyHandle = some handle := by
      have hget := congrArg (fun l => l[i]?) transfers.handle_eq
      simp only [List.getElem?_map, hi, List.getElem?_eq_getElem hlt, Option.map_some] at hget
      exact Option.some.inj hget
    refine .inFlight ⟨⟨_, List.getElem?_eq_getElem hlt, hhandle⟩, List.count_nil⟩
      (List.mem_of_getElem? hi) List.not_mem_nil ?_
    simp only [Transfers.start, List.getElem?_replicate, if_pos hlt]
  · intro _ h
    cases h
  · intro _ h
    cases h

/-- Before the loop nothing was answered 503. -/
theorem retried_start (transfers : Transfers) : Retried transfers transfers.start := by
  intro i handle _ hdenied
  cases hdenied

/-- Run lemma, from any tracked state. -/
theorem rvCurlMultiPerform_of_tracked {rounds : List Round} (h : Tracked transfers s)
    (hretried : Retried transfers s) (hallowed : Along (nextIteration randomize) Allowed rounds s)
    (hcalm : Along (nextIteration randomize) Calm rounds s) :
    (rvCurlMultiPerform randomize rounds s).Right transfers := by
  induction rounds generalizing s with
  | nil => exact hretried
  | cons r rounds ih =>
      obtain ⟨hallowed, hallowed'⟩ := hallowed
      obtain ⟨hcalm, hcalm'⟩ := hcalm
      rw [rvCurlMultiPerform]
      rcases performRound_tracked randomize h hallowed hcalm with hfail | hround
      · rw [hfail]
        trivial
      · obtain ⟨s', hs', hend⟩ := hround
        rw [hs']
        simp only
        by_cases hloop : 0 < s'.numPrevRunning
        · rw [if_pos hloop]
          have hnext : nextIteration randomize s r = some s' := by
            rw [nextIteration, hs']
            exact if_pos hloop
          exact ih hend.tracked hend.retried (hallowed' s' hnext) (hcalm' s' hnext)
        · rw [if_neg hloop]
          refine hend.complete (List.length_eq_zero_iff.1 ?_)
          rw [← hend.numPrevRunning]
          omega

/-- The randomization in integer arithmetic, with `RAND_MAX` as in the GNU C library. -/
def scaleBackoff (backoff randomFactor : Nat) : Nat :=
  backoff + backoff * randomFactor / 2147483647

/-- An entry that reads through the given handle. -/
def readEntry (handle : Nat) : TransferInfo :=
  ⟨.read, some handle, ⟨0, 0, 0⟩, 0, 0, 0⟩

/-- Two requests: the first is denied once and sent again, while the second one runs. -/
def twoTransfers : Transfers :=
  ⟨[readEntry 1, readEntry 2], [1, 2], rfl, by decide⟩

/-- The rounds of that run. -/
def retryRounds : List Round :=
  [⟨[⟨1, 503, 0, 0, 0, true⟩], true, 0⟩, ⟨[], true, 10000000⟩,
    ⟨[⟨2, 200, 8, 0, 0, true⟩, ⟨1, 200, 8, 0, 0, true⟩], true, 20000000⟩]

end XHDF5.Client
