/-
# Transfers and the handling of a 503

`RV_curl_multi_perform` and each worker of `RV_curl_multi_perform_multithreading` treat a 503
alike: look the handle up among `count` entries, restart its buffers, park the handle in
`failed_handles_to_retry`, and set a growing, randomized back-off. After every
`curl_multi_perform` a scan of the slots adds the handles back whose back-off is over.

A NULL pointer is `none`. An access outside an array has no defined result and is `none` too.
The randomization is arithmetic of type double and stays a parameter.
-/

import Mathlib.Data.List.ReduceOption
import XHDF5.Math.CInt
import XHDF5.Client.Response

namespace XHDF5.Client

open XHDF5.Math

/-- `transfer_type_t` of an initialised entry. -/
inductive TransferType
  | read
  | write
deriving DecidableEq

/-- The fields of `dataset_transfer_info` that the event loops use. -/
structure TransferInfo where
  transferType : TransferType
  curlEasyHandle : Option Nat
  respBuffer : ResponseBuffer
  bytesSent : Nat
  timeOfFail : Nat
  currentBackoffDuration : Nat
deriving DecidableEq

/-- `RV_get_index_of_matching_handle`. -/
def rvGetIndexOfMatchingHandle (transferInfo : List TransferInfo) (count handle : Nat) : Nat :=
  ((transferInfo.take count).findIdx? fun info => info.curlEasyHandle = some handle).getD
    (count + 1)

/-- `BACKOFF_INITIAL_DURATION`, in nanoseconds. -/
def backoffInitialDuration : Nat := 10000000

/-- `BACKOFF_MAX_BEFORE_FAIL`, in nanoseconds. -/
def backoffMaxBeforeFail : Nat := 3000000000

/-- The back-off after one more 503: `BACKOFF_SCALE_FACTOR` is 1.5, and `randomize` multiplies
by `1.0 + random_factor / RAND_MAX`. -/
def nextBackoff (randomize : Nat → Nat → Nat) (current randomFactor : Nat) : Nat :=
  randomize (if current = 0 then backoffInitialDuration else current * 3 / 2) randomFactor

/-- An entry after its request was denied at the time `now`. -/
def denyInfo (randomize : Nat → Nat → Nat) (now randomFactor : Nat) (info : TransferInfo) :
    TransferInfo :=
  { info with
    bytesSent := if info.transferType = .write then 0 else info.bytesSent
    respBuffer := { info.respBuffer with currBufPtr := info.respBuffer.buffer }
    timeOfFail := now
    currentBackoffDuration := nextBackoff randomize info.currentBackoffDuration randomFactor }

/-- What the 503 branch leaves behind. -/
structure Denial where
  transferInfo : List TransferInfo
  failedHandlesToRetry : List (Option Nat)
  backoff : Nat

/-- The branch of a 503: `failed_handles_to_retry` has `count` slots. -/
def denyHandle (randomize : Nat → Nat → Nat) (transferInfo : List TransferInfo)
    (failedHandlesToRetry : List (Option Nat)) (handle now randomFactor : Nat) : Option Denial :=
  let count := failedHandlesToRetry.length
  let handleIndex := rvGetIndexOfMatchingHandle transferInfo count handle
  match transferInfo[handleIndex]? with
  | none => none
  | some info =>
      if handleIndex < count then
        let denied := denyInfo randomize now randomFactor info
        some ⟨transferInfo.set handleIndex denied,
          failedHandlesToRetry.set handleIndex (some handle), denied.currentBackoffDuration⟩
      else none

/-- `curr_time_ns - transfer_info[i].time_of_fail`, of type `size_t`. -/
def elapsed (currTime timeOfFail : Nat) : Nat := wrap64 (currTime + 2 ^ 64 - timeOfFail)

/-- The test of the retry scan on an entry and its slot. -/
def isDue (currTime : Nat) (info : TransferInfo) (slot : Option Nat) : Bool :=
  slot.isSome && decide (info.currentBackoffDuration ≤ elapsed currTime info.timeOfFail)

/-- The slots after the retry scan. -/
def slotsAfterScan (currTime : Nat) (transferInfo : List TransferInfo)
    (failedHandlesToRetry : List (Option Nat)) : List (Option Nat) :=
  List.zipWith (fun info slot => if isDue currTime info slot then none else slot) transferInfo
    failedHandlesToRetry

/-- The handles that the retry scan gives back to `curl_multi_add_handle`, in its order. -/
def readdedHandles (currTime : Nat) (transferInfo : List TransferInfo)
    (failedHandlesToRetry : List (Option Nat)) : List Nat :=
  (List.zipWith (fun info slot => if isDue currTime info slot then slot else none) transferInfo
    failedHandlesToRetry).reduceOption

/-! ## Looking a handle up -/

/-- No two entries have one handle. -/
def DistinctHandles (transferInfo : List TransferInfo) : Prop :=
  ∀ (i j : Nat) (a b : TransferInfo) (handle : Nat), transferInfo[i]? = some a →
    transferInfo[j]? = some b → a.curlEasyHandle = some handle → b.curlEasyHandle = some handle →
    i = j

/-- A handle of one of the first `count` entries is found at its own index, and the handle of
any other entry is reported at `count + 1`. -/
theorem rvGetIndexOfMatchingHandle_eq {transferInfo : List TransferInfo} {i handle : Nat}
    {info : TransferInfo} (hdistinct : DistinctHandles transferInfo)
    (hinfo : transferInfo[i]? = some info) (hhandle : info.curlEasyHandle = some handle)
    (count : Nat) :
    rvGetIndexOfMatchingHandle transferInfo count handle = if i < count then i else count + 1 := by
  unfold rvGetIndexOfMatchingHandle
  by_cases hi : i < count
  · have hfind : (transferInfo.take count).findIdx?
        (fun info => info.curlEasyHandle = some handle) = some i := by
      rw [List.findIdx?_eq_some_iff_getElem]
      obtain ⟨hlt, hget⟩ := List.getElem?_eq_some_iff.1 hinfo
      refine ⟨by rw [List.length_take]; omega, ?_, ?_⟩
      · rw [List.getElem_take, hget, hhandle]
        exact decide_eq_true rfl
      · intro j hji hmatch
        rw [List.getElem_take] at hmatch
        have hj : transferInfo[j]? = some transferInfo[j] := List.getElem?_eq_getElem (by omega)
        have := hdistinct i j _ _ handle hinfo hj hhandle (of_decide_eq_true hmatch)
        omega
    rw [hfind, if_pos hi, Option.getD_some]
  · have hfind : (transferInfo.take count).findIdx?
        (fun info => info.curlEasyHandle = some handle) = none := by
      rw [List.findIdx?_eq_none_iff]
      intro other hother
      obtain ⟨j, hj, hget⟩ := List.mem_take_iff_getElem.1 hother
      refine decide_eq_false fun hmatch => ?_
      have hji : transferInfo[j]? = some other := by
        rw [← hget, List.getElem?_eq_getElem]
      have := hdistinct i j _ _ handle hinfo hji hhandle hmatch
      omega
    rw [hfind, if_neg hi, Option.getD_none]

/-- Updates that keep every entry's handle or drop it keep the handles distinct. -/
theorem DistinctHandles.set {transferInfo : List TransferInfo} {i : Nat}
    {info other : TransferInfo} (hdistinct : DistinctHandles transferInfo)
    (hinfo : transferInfo[i]? = some info)
    (hother : ∀ handle, other.curlEasyHandle = some handle → info.curlEasyHandle = some handle) :
    DistinctHandles (transferInfo.set i other) := by
  have hold : ∀ (j : Nat) (a : TransferInfo) (handle : Nat),
      (transferInfo.set i other)[j]? = some a → a.curlEasyHandle = some handle →
      ∃ b, transferInfo[j]? = some b ∧ b.curlEasyHandle = some handle := by
    intro j a handle hget hhandle
    rw [List.getElem?_set] at hget
    split at hget
    · next hij =>
      subst hij
      split at hget
      · cases hget
        exact ⟨info, hinfo, hother handle hhandle⟩
      · cases hget
    · exact ⟨a, hget, hhandle⟩
  intro j k a b handle ha hb hha hhb
  obtain ⟨a', ha', hha'⟩ := hold j a handle ha hha
  obtain ⟨b', hb', hhb'⟩ := hold k b handle hb hhb
  exact hdistinct j k a' b' handle ha' hb' hha' hhb'

@[simp] theorem curlEasyHandle_denyInfo (randomize : Nat → Nat → Nat) (now randomFactor : Nat)
    (info : TransferInfo) :
    (denyInfo randomize now randomFactor info).curlEasyHandle = info.curlEasyHandle := rfl

/-- What a 503 does for the handle of the entry `i`: within the slots it denies that entry and
no other, and beyond them it has no defined result. -/
theorem denyHandle_eq {transferInfo : List TransferInfo} {i handle : Nat} {info : TransferInfo}
    (hdistinct : DistinctHandles transferInfo) (hinfo : transferInfo[i]? = some info)
    (hhandle : info.curlEasyHandle = some handle) (randomize : Nat → Nat → Nat)
    (failedHandlesToRetry : List (Option Nat)) (now randomFactor : Nat) :
    denyHandle randomize transferInfo failedHandlesToRetry handle now randomFactor =
      if i < failedHandlesToRetry.length then
        some ⟨transferInfo.set i (denyInfo randomize now randomFactor info),
          failedHandlesToRetry.set i (some handle),
          nextBackoff randomize info.currentBackoffDuration randomFactor⟩
      else none := by
  unfold denyHandle
  simp only
  rw [rvGetIndexOfMatchingHandle_eq hdistinct hinfo hhandle]
  by_cases hi : i < failedHandlesToRetry.length
  · simp only [if_pos hi, hinfo]
    rfl
  · rw [if_neg hi, if_neg hi]
    cases transferInfo[failedHandlesToRetry.length + 1]? with
    | none => rfl
    | some other => exact if_neg (by omega)

/-! ## The retry scan -/

theorem length_slotsAfterScan {currTime : Nat} {transferInfo : List TransferInfo}
    {failedHandlesToRetry : List (Option Nat)}
    (h : failedHandlesToRetry.length ≤ transferInfo.length) :
    (slotsAfterScan currTime transferInfo failedHandlesToRetry).length =
      failedHandlesToRetry.length := by
  rw [slotsAfterScan, List.length_zipWith, Nat.min_eq_right h]

/-- The scan empties the slots that are due and keeps the others. -/
theorem getElem?_slotsAfterScan {transferInfo : List TransferInfo}
    {failedHandlesToRetry : List (Option Nat)} {i : Nat} {info : TransferInfo} {slot : Option Nat}
    (hinfo : transferInfo[i]? = some info) (hslot : failedHandlesToRetry[i]? = some slot)
    (currTime : Nat) :
    (slotsAfterScan currTime transferInfo failedHandlesToRetry)[i]? =
      some (if isDue currTime info slot then none else slot) := by
  rw [slotsAfterScan, List.getElem?_zipWith, hinfo, hslot]

/-- A handle is added back exactly when a slot that holds it is due. -/
theorem mem_readdedHandles_iff {currTime handle : Nat} {transferInfo : List TransferInfo}
    {failedHandlesToRetry : List (Option Nat)} :
    handle ∈ readdedHandles currTime transferInfo failedHandlesToRetry ↔
      ∃ (i : Nat) (info : TransferInfo), transferInfo[i]? = some info ∧
        failedHandlesToRetry[i]? = some (some handle) ∧
          isDue currTime info (some handle) = true := by
  rw [readdedHandles, List.reduceOption_mem_iff, List.mem_iff_getElem?]
  constructor
  · rintro ⟨i, hi⟩
    rw [List.getElem?_zipWith] at hi
    cases hinfo : transferInfo[i]? with
    | none => simp [hinfo] at hi
    | some info =>
        cases hslot : failedHandlesToRetry[i]? with
        | none => simp [hinfo, hslot] at hi
        | some slot =>
            simp only [hinfo, hslot, Option.some.injEq] at hi
            by_cases hdue : isDue currTime info slot = true
            · rw [if_pos hdue] at hi
              subst hi
              exact ⟨i, info, hinfo, hslot, hdue⟩
            · rw [if_neg hdue] at hi
              cases hi
  · rintro ⟨i, info, hinfo, hslot, hdue⟩
    refine ⟨i, ?_⟩
    rw [List.getElem?_zipWith, hinfo, hslot]
    simp [hdue]

end XHDF5.Client
