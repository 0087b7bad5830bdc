/-
# The workers of a read from several servers

`RV_dataset_read` sets up `count * ServerNodeNum` entries and starts one worker per server, each
running `RV_curl_multi_perform_multithreading` on the multi handle of its server. The worker of
an entry is its index modulo the number of servers. All workers share the entries; each has its
own `failed_handles_to_retry`, with `count` slots.

An event is one atomic piece of a worker: curl delivers a chunk, a 503 or a 200 is handled, or
the retry scan runs. The events of all workers come in any order.
-/

import XHDF5.Math.Run
import XHDF5.Client.Retry

namespace XHDF5.Client

open XHDF5.Math

/-- What a worker does next, for the entry or at the time named. -/
inductive WorkerEvent
  | deliver (entry : Nat) (data : List UInt8)
  | deny (entry now randomFactor : Nat)
  | finish (entry : Nat)
  | retryScan (worker currTime : Nat)
deriving DecidableEq

/-- A worker: its slots, the handles that run in its multi handle, and whether it is still in its
loop. -/
structure Worker where
  failedHandlesToRetry : List (Option Nat)
  running : List Nat
  active : Bool
deriving DecidableEq

/-- The entries that the workers share, and the workers. `received` records what curl delivered
for each entry since its request was last denied. -/
structure WorkerPool where
  transferInfo : List TransferInfo
  workers : List Worker
  received : List (List UInt8)
deriving DecidableEq

/-- The entries of a read of `count` datasets from `serverNodeNum` servers, as set up. -/
structure ReadTransfers where
  count : Nat
  serverNodeNum : Nat
  transferInfo : List TransferInfo
  length_eq : transferInfo.length = count * serverNodeNum
  distinct : DistinctHandles transferInfo
  ready : ∀ info ∈ transferInfo,
    info.curlEasyHandle.isSome ∧ info.respBuffer.currBufPtr = info.respBuffer.buffer

/-- The handle of an entry. -/
def handleOf (transferInfo : List TransferInfo) (entry : Nat) : Option Nat :=
  transferInfo[entry]?.bind (·.curlEasyHandle)

/-- The entries of one worker. -/
def entriesOf (serverNodeNum count worker : Nat) : List Nat :=
  (List.range count).map fun dataset => dataset * serverNodeNum + worker

/-- The state in which the workers start. -/
def ReadTransfers.start (transfers : ReadTransfers) : WorkerPool where
  transferInfo := transfers.transferInfo
  workers := (List.range transfers.serverNodeNum).map fun worker =>
    { failedHandlesToRetry := List.replicate transfers.count none
      running := (entriesOf transfers.serverNodeNum transfers.count worker).filterMap
        (handleOf transfers.transferInfo)
      active := true }
  received := List.replicate transfers.transferInfo.length []

section

variable (randomize : Nat → Nat → Nat)

/-- One event. -/
def workerStep (s : WorkerPool) : WorkerEvent → Option WorkerPool
  | .deliver entry data =>
      match s.transferInfo[entry]? with
      | none => none
      | some info =>
          let result := h5RestCurlWriteDataCallbackNoGlobal data info.respBuffer
          some { s with
            transferInfo := s.transferInfo.set entry { info with respBuffer := result.buffer }
            received := s.received.modify entry (· ++ data) }
  | .deny entry now randomFactor =>
      let worker := entry % s.workers.length
      match handleOf s.transferInfo entry, s.workers[worker]? with
      | some handle, some w =>
          match denyHandle randomize s.transferInfo w.failedHandlesToRetry handle now
              randomFactor with
          | none => none
          | some denial =>
              some { s with
                transferInfo := denial.transferInfo
                workers := s.workers.set worker
                  { failedHandlesToRetry := denial.failedHandlesToRetry
                    running := w.running.filter (· ≠ handle)
                    active := decide (denial.backoff < backoffMaxBeforeFail) }
                received := s.received.modify entry fun _ => [] }
      | _, _ => none
  | .finish entry =>
      let worker := entry % s.workers.length
      match handleOf s.transferInfo entry, s.workers[worker]? with
      | some handle, some w =>
          some { s with
            workers := s.workers.set worker { w with running := w.running.filter (· ≠ handle) } }
      | _, _ => none
  | .retryScan worker currTime =>
      match s.workers[worker]? with
      | none => none
      | some w =>
          some { s with
            workers := s.workers.set worker { w with
              failedHandlesToRetry :=
                slotsAfterScan currTime s.transferInfo w.failedHandlesToRetry
              running :=
                w.running ++ readdedHandles currTime s.transferInfo w.failedHandlesToRetry } }

end

/-- The worker is in its loop and runs the handle of the entry. -/
def RunsEntry (s : WorkerPool) (entry : Nat) : Prop :=
  ∃ w ∈ s.workers[entry % s.workers.length]?, w.active = true ∧
    ∃ handle ∈ handleOf s.transferInfo entry, handle ∈ w.running

instance (s : WorkerPool) (entry : Nat) : Decidable (RunsEntry s entry) :=
  inferInstanceAs (Decidable (∃ w ∈ s.workers[entry % s.workers.length]?, w.active = true ∧
    ∃ handle ∈ handleOf s.transferInfo entry, handle ∈ w.running))

/-- The events that can come next: curl works for running handles only, and a worker that left
its loop does nothing. -/
def CanHappen (s : WorkerPool) : WorkerEvent → Prop
  | .deliver entry _ => RunsEntry s entry
  | .deny entry _ _ => RunsEntry s entry
  | .finish entry => RunsEntry s entry
  | .retryScan worker _ => ∃ w ∈ s.workers[worker]?, w.active = true

instance (s : WorkerPool) : (event : WorkerEvent) → Decidable (CanHappen s event)
  | .deliver entry _ => inferInstanceAs (Decidable (RunsEntry s entry))
  | .deny entry _ _ => inferInstanceAs (Decidable (RunsEntry s entry))
  | .finish entry => inferInstanceAs (Decidable (RunsEntry s entry))
  | .retryScan worker _ => inferInstanceAs (Decidable (∃ w ∈ s.workers[worker]?, w.active = true))

/-- A 503 is handled for its own entry: the index the worker computes is that of the entry, and
the step restarts this entry and leaves every other one alone. -/
def DeniesOwn (randomize : Nat → Nat → Nat) (s : WorkerPool) : WorkerEvent → Prop
  | .deny entry now randomFactor =>
      ∃ w ∈ s.workers[entry % s.workers.length]?, ∃ info ∈ s.transferInfo[entry]?,
        ∃ handle ∈ info.curlEasyHandle,
          rvGetIndexOfMatchingHandle s.transferInfo w.failedHandlesToRetry.length handle = entry ∧
            ∃ s', workerStep randomize s (.deny entry now randomFactor) = some s' ∧
              s'.transferInfo = s.transferInfo.set entry
                (denyInfo randomize now randomFactor info)
  | _ => True

/-- Each transfer's position is as far behind the start of its slice as curl delivered since the
last 503: what comes next after a retry is written from the start. -/
def Rewound (s : WorkerPool) : Prop :=
  ∀ (entry : Nat) (info : TransferInfo) (bytes : List UInt8), s.transferInfo[entry]? = some info →
    s.received[entry]? = some bytes →
      info.respBuffer.currBufPtr = info.respBuffer.buffer + bytes.length

/-- Only entries below `count` are answered 503. -/
def DeniesWithin (count : Nat) (_ : WorkerPool) : WorkerEvent → Prop
  | .deny entry _ _ => entry < count
  | _ => True

instance (count : Nat) (s : WorkerPool) : (event : WorkerEvent) →
    Decidable (DeniesWithin count s event)
  | .deny entry _ _ => inferInstanceAs (Decidable (entry < count))
  | .deliver _ _ | .finish _ | .retryScan _ _ => isTrue trivial

/-! ## What the events keep -/

/-- The invariant of the shared entries and the workers. -/
structure PoolSound (transfers : ReadTransfers) (s : WorkerPool) : Prop where
  handles : s.transferInfo.map (·.curlEasyHandle) = transfers.transferInfo.map (·.curlEasyHandle)
  workers : s.workers.length = transfers.serverNodeNum
  slots : ∀ w ∈ s.workers, w.failedHandlesToRetry.length = transfers.count
  received : s.received.length = s.transferInfo.length
  rewound : Rewound s

theorem handleOf_eq_getElem? (transferInfo : List TransferInfo) (entry : Nat) :
    handleOf transferInfo entry = (transferInfo.map (·.curlEasyHandle))[entry]?.join := by
  rw [handleOf, List.getElem?_map]
  cases transferInfo[entry]? <;> rfl

/-- Entries with the same handles are distinct together. -/
theorem DistinctHandles.of_map_eq {a b : List TransferInfo} (h : DistinctHandles b)
    (hmap : a.map (·.curlEasyHandle) = b.map (·.curlEasyHandle)) : DistinctHandles a := by
  have htransfer : ∀ (i : Nat) (x : TransferInfo) (handle : Nat), a[i]? = some x →
      x.curlEasyHandle = some handle →
        ∃ y, b[i]? = some y ∧ y.curlEasyHandle = some handle := by
    intro i x handle hx hhandle
    have hget := congrArg (fun l => l[i]?) hmap
    simp only [List.getElem?_map, hx, Option.map_some] at hget
    obtain ⟨y, hy, hsame⟩ := Option.map_eq_some_iff.1 hget.symm
    exact ⟨y, hy, hsame.trans hhandle⟩
  intro i j x y handle hx hy hxh hyh
  obtain ⟨x', hx', hxh'⟩ := htransfer i x handle hx hxh
  obtain ⟨y', hy', hyh'⟩ := htransfer j y handle hy hyh
  exact h i j x' y' handle hx' hy' hxh' hyh'

/-- An update of an entry that keeps its handle keeps the list of handles. -/
theorem map_curlEasyHandle_set {transferInfo : List TransferInfo} {entry : Nat}
    {info other : TransferInfo} (hinfo : transferInfo[entry]? = some info)
    (hsame : other.curlEasyHandle = info.curlEasyHandle) :
    (transferInfo.set entry other).map (·.curlEasyHandle) =
      transferInfo.map (·.curlEasyHandle) := by
  refine List.ext_getElem? fun i => ?_
  rw [List.getElem?_map, List.getElem?_map, List.getElem?_set]
  by_cases hi : entry = i
  · subst hi
    rw [if_pos rfl, if_pos (List.getElem?_eq_some_iff.1 hinfo).1, hinfo, Option.map_some,
      Option.map_some, hsame]
  · rw [if_neg hi]

namespace PoolSound

variable {transfers : ReadTransfers} {s : WorkerPool}

theorem distinct (h : PoolSound transfers s) : DistinctHandles s.transferInfo :=
  transfers.distinct.of_map_eq h.handles

/-- What is behind an entry that a worker runs. -/
theorem exists_of_runsEntry (h : PoolSound transfers s) {entry : Nat} (hruns : RunsEntry s entry) :
    ∃ w info handle, s.workers[entry % s.workers.length]? = some w ∧
      s.transferInfo[entry]? = some info ∧ info.curlEasyHandle = some handle ∧
        handleOf s.transferInfo entry = some handle ∧
          w.failedHandlesToRetry.length = transfers.count := by
  obtain ⟨w, hw, -, handle, hhandle, -⟩ := hruns
  obtain ⟨info, hinfo, hown⟩ := Option.bind_eq_some_iff.1 hhandle
  exact ⟨w, info, handle, hw, hinfo, hown, hhandle, h.slots w (List.mem_of_getElem? hw)⟩

/-- What a 503 does for an entry that a worker runs. -/
theorem workerStep_deny (h : PoolSound transfers s) {entry : Nat} {w : Worker}
    {info : TransferInfo} {handle : Nat} (hw : s.workers[entry % s.workers.length]? = some w)
    (hinfo : s.transferInfo[entry]? = some info) (hown : info.curlEasyHandle = some handle)
    (hslots : w.failedHandlesToRetry.length = transfers.count) (randomize : Nat → Nat → Nat)
    (now randomFactor : Nat) :
    workerStep randomize s (.deny entry now randomFactor) =
      if entry < transfers.count then
        some { s with
          transferInfo := s.transferInfo.set entry (denyInfo randomize now randomFactor info)
          workers := s.workers.set (entry % s.workers.length)
            { failedHandlesToRetry := w.failedHandlesToRetry.set entry (some handle)
              running := w.running.filter (· ≠ handle)
              active := decide (nextBackoff randomize info.currentBackoffDuration randomFactor <
                backoffMaxBeforeFail) }
          received := s.received.modify entry fun _ => [] }
      else none := by
  have hhandle : handleOf s.transferInfo entry = some handle := by rw [handleOf, hinfo]; exact hown
  simp only [workerStep, hhandle, hw]
  rw [denyHandle_eq h.distinct hinfo hown, hslots]
  by_cases hentry : entry < transfers.count
  · rw [if_pos hentry, if_pos hentry]
  · rw [if_neg hentry, if_neg hentry]

/-- A worker handles a 503 for its own entry exactly when that entry is below `count`. -/
theorem deniesOwn_iff (h : PoolSound transfers s) {randomize : Nat → Nat → Nat}
    {event : WorkerEvent} (hcan : CanHappen s event) :
    DeniesOwn randomize s event ↔ DeniesWithin transfers.count s event := by
  cases event with
  | deliver => exact Iff.rfl
  | finish => exact Iff.rfl
  | retryScan => exact Iff.rfl
  | deny entry now randomFactor =>
      obtain ⟨w, info, handle, hw, hinfo, hown, -, hslots⟩ := h.exists_of_runsEntry hcan
      have hstep := h.workerStep_deny hw hinfo hown hslots randomize now randomFactor
      change _ ↔ entry < transfers.count
      constructor
      · rintro ⟨w', hw', info', hinfo', handle', hown', -, s', hs', -⟩
        rw [hstep] at hs'
        by_contra hentry
        rw [if_neg hentry] at hs'
        cases hs'
      · intro hentry
        rw [if_pos hentry] at hstep
        refine ⟨w, hw, info, hinfo, handle, hown, ?_, _, hstep, rfl⟩
        rw [rvGetIndexOfMatchingHandle_eq h.distinct hinfo hown, hslots, if_pos hentry]

/-- Updates of one worker that keep the number of its slots keep the invariant. -/
theorem set_worker (h : PoolSound transfers s) {worker : Nat} {w : Worker}
    (hslots : w.failedHandlesToRetry.length = transfers.count) :
    PoolSound transfers { s with workers := s.workers.set worker w } where
  handles := h.handles
  workers := List.length_set.trans h.workers
  slots := by
    intro w' hw'
    rcases List.mem_or_eq_of_mem_set hw' with hold | rfl
    · exact h.slots w' hold
    · exact hslots
  received := h.received
  rewound := h.rewound

/-- Updates of one entry that keep its handle and put its position behind what was delivered
keep the invariant. -/
theorem set_entry (h : PoolSound transfers s) {entry : Nat} {info : TransferInfo}
    (other : TransferInfo) (f : List UInt8 → List UInt8) (hinfo : s.transferInfo[entry]? = some info)
    (hsame : other.curlEasyHandle = info.curlEasyHandle)
    (hposition : ∀ bytes, s.received[entry]? = some bytes →
      other.respBuffer.currBufPtr = other.respBuffer.buffer + (f bytes).length) :
    PoolSound transfers { s with
      transferInfo := s.transferInfo.set entry other
      received := s.received.modify entry f } where
  handles := (map_curlEasyHandle_set hinfo hsame).trans h.handles
  workers := h.workers
  slots := h.slots
  received := by rw [List.length_modify, List.length_set, h.received]
  rewound := by
    intro j info' bytes' hinfo' hbytes'
    by_cases hj : entry = j
    · subst hj
      rw [List.getElem?_set_self (List.getElem?_eq_some_iff.1 hinfo).1] at hinfo'
      cases hinfo'
      rw [List.getElem?_modify_eq] at hbytes'
      obtain ⟨bytes, hbytes, rfl⟩ := Option.map_eq_some_iff.1 hbytes'
      exact hposition bytes hbytes
    · rw [List.getElem?_set_ne hj] at hinfo'
      rw [List.getElem?_modify_ne f _ hj] at hbytes'
      exact h.rewound j info' bytes' hinfo' hbytes'

/-- The callback moves the position by the chunk. -/
theorem currBufPtr_callback (data : List UInt8) {b : ResponseBuffer}
    (hb : b.buffer ≤ b.currBufPtr) :
    (h5RestCurlWriteDataCallbackNoGlobal data b).buffer =
      { b with currBufPtr := b.currBufPtr + data.length } := by
  rw [h5RestCurlWriteDataCallbackNoGlobal]
  exact congrArg CallbackResult.buffer (if_neg (by omega))

/-- Step lemma: every event that can happen keeps the invariant, as long as the entries that are
denied are below `count`. -/
theorem step (h : PoolSound transfers s) {randomize : Nat → Nat → Nat} {event : WorkerEvent}
    {s' : WorkerPool} (hcan : CanHappen s event) (hwithin : DeniesWithin transfers.count s event)
    (hstep : workerStep randomize s event = some s') : PoolSound transfers s' := by
  cases event with
  | deliver entry data =>
      obtain ⟨w, info, handle, hw, hinfo, hown, -, -⟩ := h.exists_of_runsEntry hcan
      simp only [workerStep, hinfo, Option.some.injEq] at hstep
      subst hstep
      refine h.set_entry _ _ hinfo rfl fun bytes hbytes => ?_
      have hposition := h.rewound entry info bytes hinfo hbytes
      simp only [currBufPtr_callback data (show info.respBuffer.buffer ≤ info.respBuffer.currBufPtr
        by omega), List.length_append]
      omega
  | deny entry now randomFactor =>
      obtain ⟨w, info, handle, hw, hinfo, hown, -, hslots⟩ := h.exists_of_runsEntry hcan
      rw [h.workerStep_deny hw hinfo hown hslots,
        if_pos (show entry < transfers.count from hwithin), Option.some.injEq] at hstep
      subst hstep
      have hentry := h.set_entry (denyInfo randomize now randomFactor info) (fun _ => []) hinfo rfl
        fun _ _ => rfl
      exact hentry.set_worker (List.length_set.trans hslots)
  | finish entry =>
      obtain ⟨w, info, handle, hw, hinfo, hown, hhandle, hslots⟩ := h.exists_of_runsEntry hcan
      simp only [workerStep, hhandle, hw, Option.some.injEq] at hstep
      subst hstep
      exact h.set_worker hslots
  | retryScan worker currTime =>
      obtain ⟨w, hw, -⟩ := hcan
      simp only [workerStep, Option.mem_def.1 hw, Option.some.injEq] at hstep
      subst hstep
      have hslots := h.slots w (List.mem_of_getElem? hw)
      have hworker : worker < transfers.serverNodeNum := by
        rw [← h.workers]
        exact (List.getElem?_eq_some_iff.1 hw).1
      have hlength : s.transferInfo.length = transfers.count * transfers.serverNodeNum := by
        have hmap := congrArg List.length h.handles
        rw [List.length_map, List.length_map] at hmap
        exact hmap.trans transfers.length_eq
      refine h.set_worker ((length_slotsAfterScan ?_).trans hslots)
      rw [hslots, hlength]
      exact Nat.le_mul_of_pos_right _ (by omega)

end PoolSound

/-! ## Whole runs -/

theorem start_poolSound (transfers : ReadTransfers) : PoolSound transfers transfers.start where
  handles := rfl
  workers := by rw [ReadTransfers.start, List.length_map, List.length_range]
  slots := by
    intro w hw
    obtain ⟨worker, -, rfl⟩ := List.mem_map.1 hw
    exact List.length_replicate
  received := List.length_replicate
  rewound := by
    intro entry info bytes hinfo hbytes
    have hready := (transfers.ready info (List.mem_of_getElem? hinfo)).2
    have hbytes' : bytes = [] := List.eq_of_mem_replicate (List.mem_of_getElem? hbytes)
    rw [hready, hbytes', List.length_nil, Nat.add_zero]

/-- In every interleaving of the workers, each 503 is handled for its own entry and every retried
transfer is rewritten from the start of its slice exactly when only entries below `count` are
ever answered 503. -/
theorem deniesOwn_and_rewound_iff (randomize : Nat → Nat → Nat) (transfers : ReadTransfers)
    (events : List WorkerEvent)
    (hcan : Along (workerStep randomize) CanHappen events transfers.start) :
    (Along (workerStep randomize) (DeniesOwn randomize) events transfers.start ∧
        Throughout (workerStep randomize) Rewound events transfers.start) ↔
      Along (workerStep randomize) (DeniesWithin transfers.count) events transfers.start := by
  have hiff := along_iff_along (I := PoolSound transfers) (Q := DeniesOwn randomize)
    (C := DeniesWithin transfers.count) (fun _ _ hsound hcan => hsound.deniesOwn_iff hcan)
    (fun _ _ _ hsound hcan hwithin => hsound.step hcan hwithin) (start_poolSound transfers) hcan
  rw [hiff]
  refine and_iff_left_of_imp fun hwithin => ?_
  exact (throughout_of_along (I := PoolSound transfers)
    (fun _ _ _ hsound hcan hwithin => hsound.step hcan hwithin) (start_poolSound transfers) hcan
    hwithin).imp fun _ hsound => hsound.rewound

/-- One dataset read from two servers. -/
def twoServers : ReadTransfers where
  count := 1
  serverNodeNum := 2
  transferInfo :=
    [⟨.read, some 1, ⟨0, 0, 2⟩, 0, 0, 0⟩, ⟨.read, some 2, ⟨2, 2, 2⟩, 0, 0, 0⟩]
  length_eq := rfl
  distinct := by
    intro i j a b handle ha hb hha hhb
    match i, j with
    | 0, 0 => rfl
    | 1, 1 => rfl
    | 0, 1 => cases ha; cases hb; cases hha; cases hhb
    | 1, 0 => cases ha; cases hb; cases hha; cases hhb
    | _ + 2, _ => cases ha
    | _, _ + 2 => cases hb
  ready := by decide

/-- The first server denies its request after one byte and answers it later. -/
def firstServerDenies : List WorkerEvent :=
  [.deliver 0 [7], .deny 0 0 0, .deliver 1 [3, 4], .retryScan 0 10000000, .deliver 0 [1, 2],
    .finish 1, .finish 0]

theorem deniesOwn_and_rewound_firstServerDenies :
    Along (workerStep fun backoff _ => backoff) (DeniesOwn fun backoff _ => backoff)
        firstServerDenies twoServers.start ∧
      Throughout (workerStep fun backoff _ => backoff) Rewound firstServerDenies
        twoServers.start :=
  (deniesOwn_and_rewound_iff (fun backoff _ => backoff) twoServers firstServerDenies
    (by decide +kernel)).2 (by decide +kernel)

/-- A 503 of the second server: the worker computes the index 2, which is no entry of the read. -/
theorem not_deniesOwn_secondServer :
    let events : List WorkerEvent := [.deny 1 0 0]
    Along (workerStep fun backoff _ => backoff) CanHappen events twoServers.start ∧
      rvGetIndexOfMatchingHandle twoServers.transferInfo 1 2 = 2 ∧
        ¬ Along (workerStep fun backoff _ => backoff) (DeniesOwn fun backoff _ => backoff) events
          twoServers.start := by
  refine ⟨by decide +kernel, by decide, ?_⟩
  rintro ⟨⟨w, hw, info, hinfo, handle, hhandle, hindex, -⟩, -⟩
  cases hw
  cases hinfo
  cases hhandle
  exact absurd hindex (by decide)

end XHDF5.Client
