/-
# Whether a dataset read or write releases what it acquired

A read never does. Its end does not release the copy of the server list, which only a read from
several servers releases before it, and then the cURL multi handles are left.

A write does unless something goes wrong between the conversion of a selection and the end of its
set-up, or a pointer is overwritten: a header list that cannot be extended, or the buffer for an
empty list of values at given points.
-/

import XHDF5.Client.TransferLedger
import XHDF5.Math.Cleanup

namespace XHDF5.Client.Transfers

open XHDF5.Math Holdings IoVariable TransferField

/-- A call of one of the two functions. -/
inductive IoCall
  | read (call : ReadCall)
  | write (call : WriteCall)

/-- What is held after a call. -/
def IoCall.after : IoCall → Holdings IoVariable
  | .read call => (rvDatasetRead call .empty).2
  | .write call => (rvDatasetWrite call .empty).2

/-- Everything that a call acquires is released once, and nothing else is released. -/
def ReleasesAll (call : IoCall) : Prop := call.after.Settled

/-! ## Reading -/

section Reading

variable {n : IoVariable} {r : ReadCall}

/-- The variables that the end of a read leaves as they are. -/
def Forgotten (n : IoVariable) : Prop := n = urlStringCopy ∨ n = curlMultiHandle 0

theorem Forgotten.ne_transfer (h : Forgotten n) (i : Nat) (field : TransferField) :
    transfer i field ≠ n := by
  rcases h with rfl | rfl <;> nofun

theorem retains_each {γ : Type} {f : γ → IoEffect} (hf : ∀ x, (f x).Moves (Retains n))
    (xs : List γ) :
    (Effect.each f xs).Moves (Retains n) := Effect.moves_each fun x _ => hf x

theorem retains_pure : (pure ⟨⟩ : IoEffect).Moves (Retains n) := Effect.moves_pure _

theorem retains_finishTransfer (h : Forgotten n) (reading : Bool) (i : Nat)
    (answer : FinishedTransfer) :
    (finishTransfer reading i answer).Moves (Retains n) := by
  have hne := h.ne_transfer i
  have hdecompress : (decompress i answer.decompressed).Moves (Retains n) := by
    cases answer.decompressed with
    | none => exact retains_pure
    | some granted => exact retains_take (hne _) granted
  have hwritten : (do
      dispose (transfer i writeBody)
      dispose (transfer i base64EncodedValues) : IoEffect).Moves (Retains n) :=
    Effect.moves_bind (retains_dispose (hne _)) fun _ => retains_dispose (hne _)
  exact Effect.moves_bind (retains_demand _) fun _ =>
    Effect.moves_bind (retains_onlyIf hdecompress) fun _ =>
    Effect.moves_bind (retains_guard _) fun _ =>
    Effect.moves_bind (retains_guard _) fun _ =>
    Effect.moves_bind (retains_dispose (hne _)) fun _ =>
    Effect.moves_bind (retains_onlyIf hwritten) fun _ =>
    Effect.moves_bind (retains_dispose (hne _)) fun _ => retains_dispose (hne _)

theorem retains_rvCurlMultiPerform (h : Forgotten n) (reading : Bool) (calls : PerformCalls) :
    (rvCurlMultiPerform reading calls).Moves (Retains n) := by
  have hne : failedHandlesToRetry 0 ≠ n := by rcases h with rfl | rfl <;> nofun
  refine retains_endingWith (Effect.moves_bind (retains_require hne _) fun _ => ?_)
    (retains_dispose hne)
  refine retains_each (fun event => ?_) _
  cases event with
  | call succeeds => exact retains_guard succeeds
  | finished i answer => exact retains_finishTransfer h reading i answer

theorem retains_rvCurlMultiPerformMultithreading (h : Forgotten n) (j : Nat)
    (calls : PerformCalls) :
    (rvCurlMultiPerformMultithreading j calls).Moves (Retains n) := by
  have hretry : failedHandlesToRetry j ≠ n := by rcases h with rfl | rfl <;> nofun
  have hparams : params j ≠ n := by rcases h with rfl | rfl <;> nofun
  refine retains_endingWith (Effect.moves_bind (retains_require hretry _) fun _ => ?_)
    (Effect.moves_bind (retains_dispose hretry) fun _ => retains_dispose hparams)
  refine retains_each (fun event => ?_) _
  cases event with
  | call succeeds => exact retains_guard succeeds
  | finished i answer =>
      exact Effect.moves_bind (retains_guard _) fun _ => retains_release (h.ne_transfer i _)

theorem retains_copyUrls (h : Forgotten n) (j : Nat) (urls : List Bool) :
    (copyUrls j urls).Moves (Retains n) := by
  induction urls generalizing j with
  | nil => exact retains_pure
  | cons granted urls ih =>
      have hne : urlsByMyself j ≠ n := by rcases h with rfl | rfl <;> nofun
      exact Effect.moves_bind (retains_take hne granted) fun _ =>
        Effect.moves_bind (retains_orStuck granted) fun _ => ih (j + 1)

theorem retains_rvReadInit (h : Forgotten n) (i : Nat) (x : ReadTransfer) :
    (rvReadInit i x).Moves (Retains n) := by
  have hne := h.ne_transfer i
  exact Effect.moves_bind (retains_guard _) fun _ =>
    Effect.moves_bind (retains_take (hne _) _) fun _ =>
    Effect.moves_bind (retains_take (hne _) _) fun _ =>
    Effect.moves_bind (retains_require (hne _) _) fun _ => retains_guard _

theorem retains_splitRange (h : Forgotten n) (x : SplitCalls) (j : Nat) :
    (splitRange x j).Moves (Retains n) := by
  have htmp : tmp ≠ n := by rcases h with rfl | rfl <;> nofun
  have hentry : selectNodeEntry j ≠ n := by rcases h with rfl | rfl <;> nofun
  exact Effect.moves_bind (retains_take htmp _) fun _ =>
    Effect.moves_bind (retains_orStuck _) fun _ =>
    Effect.moves_bind (retains_take hentry _) fun _ => retains_dispose htmp

theorem retains_splitSelection (h : Forgotten n) (flag : Bool) (x : SplitCalls) :
    (splitSelection r flag x).Moves (Retains n) := by
  have hne : ∀ m ∈ [offset, offsetData, count, countData, inputCopy, parseCopy], m ≠ n := by
    rcases h with rfl | rfl <;> decide
  have hdivide : (do
      orStuck (x.splits && r.selectNode)
      Effect.each (splitRange x) r.servers : IoEffect).Moves (Retains n) :=
    Effect.moves_bind (retains_orStuck _) fun _ => retains_each (retains_splitRange h x) _
  exact Effect.moves_bind (retains_take (hne offset (by decide)) _) fun _ =>
    Effect.moves_bind (retains_take (hne count (by decide)) _) fun _ =>
    Effect.moves_bind (retains_guard _) fun _ =>
    Effect.moves_bind (retains_take (hne inputCopy (by decide)) _) fun _ =>
    Effect.moves_bind (retains_orStuck _) fun _ =>
    Effect.moves_bind (retains_take (hne parseCopy (by decide)) _) fun _ =>
    Effect.moves_bind (retains_orStuck _) fun _ =>
    Effect.moves_bind (retains_take (hne offsetData (by decide)) _) fun _ =>
    Effect.moves_bind (retains_take (hne countData (by decide)) _) fun _ =>
    Effect.moves_bind (retains_dispose (hne parseCopy (by decide))) fun _ =>
    Effect.moves_bind (retains_onlyIf hdivide) fun _ =>
    Effect.moves_bind (retains_dispose (hne countData (by decide))) fun _ =>
    Effect.moves_bind (retains_dispose (hne count (by decide))) fun _ =>
    Effect.moves_bind (retains_dispose (hne offsetData (by decide))) fun _ =>
    retains_dispose (hne offset (by decide))

theorem retains_rvReadBuffer (h : Forgotten n) (i : Nat) (x : ReadTransfer) :
    (rvReadBuffer r i x).Moves (Retains n) := by
  unfold rvReadBuffer
  split
  · exact retains_require (h.ne_transfer i _) _
  · exact fun s => retains_share (h.ne_transfer i _) (h.ne_transfer _ _) s

theorem retains_rvReadRequest (h : Forgotten n) (i : Nat) (x : ReadTransfer) :
    (rvReadRequest i x).Moves (Retains n) := by
  have hne := h.ne_transfer i
  unfold rvReadRequest
  split
  · exact Effect.moves_bind (retains_extend (hne _) _) fun _ =>
      Effect.moves_bind (retains_guard _) fun _ =>
      Effect.moves_bind (retains_guard _) fun _ => retains_extend (hne _) _
  · exact retains_guard _

theorem retains_rvReadPrepare (h : Forgotten n) (i : Nat) (x : ReadTransfer) :
    (rvReadPrepare r i x).Moves (Retains n) := by
  have hne := h.ne_transfer i
  have hselect : (do
      Effect.guard x.selected
      require (transfer i .selectionBody) x.converted : IoEffect).Moves (Retains n) :=
    Effect.moves_bind (retains_guard _) fun _ => retains_require (hne _) _
  exact Effect.moves_bind (retains_guard _) fun _ =>
    Effect.moves_bind (retains_onlyIf hselect) fun _ =>
    Effect.moves_bind (retains_guard _) fun _ =>
    Effect.moves_bind (retains_require (hne _) _) fun _ =>
    Effect.moves_bind (retains_extend (hne _) _) fun _ =>
    Effect.moves_bind (retains_extend (hne _) _) fun _ =>
    Effect.moves_bind (retains_extend (hne _) _) fun _ =>
    Effect.moves_bind (retains_onlyIf (retains_splitSelection h _ _)) fun _ =>
    Effect.moves_bind (retains_orStuck _) fun _ =>
    Effect.moves_bind (retains_rvReadBuffer h i x) fun _ =>
    Effect.moves_bind (retains_orStuck _) fun _ =>
    Effect.moves_bind (retains_guard _) fun _ =>
    Effect.moves_bind (retains_rvReadRequest h i x) fun _ =>
    Effect.moves_bind (retains_guard _) fun _ => retains_guard _

theorem retains_rvDatasetReadDone (h : Forgotten n) : (rvDatasetReadDone r).Moves (Retains n) := by
  have hne : ∀ m ∈ [selectNode, .nodeSize, transferInfo], m ≠ n := by
    rcases h with rfl | rfl <;> decide
  refine Effect.moves_bind (retains_each (fun i => ?_) _) fun _ =>
    Effect.moves_bind (retains_release (hne _ (by decide))) fun _ =>
    Effect.moves_bind (retains_release (hne _ (by decide))) fun _ =>
    retains_release (hne _ (by decide))
  have hfield := h.ne_transfer i
  exact Effect.moves_bind (retains_onlyIf (Effect.moves_bind (retains_dispose (hfield _)) fun _ =>
      retains_release (hfield _))) fun _ =>
    Effect.moves_bind (retains_orStuck _) fun _ =>
    Effect.moves_bind (retains_release (hfield _)) fun _ =>
    Effect.moves_bind (retains_release (hfield _)) fun _ =>
    Effect.moves_bind (retains_release (hfield _)) fun _ => retains_release (hfield _)

theorem retains_rvReadFromServers (h : Forgotten n)
    (hend : (do Effect.each (releaseServer r) r.servers; release urlStringCopy).Moves (Retains n)) :
    (rvReadFromServers r).Moves (Retains n) := by
  refine Effect.moves_bind (retains_each (fun j => ?_) _) fun _ =>
    Effect.moves_bind (retains_orStuck _) fun _ =>
    Effect.moves_bind (retains_each (fun j => ?_) _) fun _ =>
    Effect.moves_bind (retains_each (fun i => ?_) _) fun _ => hend
  · have hne : params j ≠ n := by rcases h with rfl | rfl <;> nofun
    exact Effect.moves_bind (retains_take hne _) fun _ => retains_orStuck _
  · exact Effect.moves_ignore (retains_rvCurlMultiPerformMultithreading h j _)
  · have hne := h.ne_transfer i
    exact Effect.moves_bind (retains_clear (hne _)) fun _ =>
      Effect.moves_bind (retains_dispose (hne _)) fun _ => retains_onlyIf (retains_dispose (hne _))

theorem retains_releaseServer (h : Forgotten n) (j : Nat) :
    (releaseServer r j).Moves (Retains n) := by
  have hentry : selectNodeEntry j ≠ n := by rcases h with rfl | rfl <;> nofun
  have hurl : urlsByMyself j ≠ n := by rcases h with rfl | rfl <;> nofun
  exact Effect.moves_bind (retains_orStuck _) fun _ =>
    Effect.moves_bind (retains_release hentry) fun _ =>
    Effect.moves_bind (retains_orStuck _) fun _ => retains_release hurl

/-- A cURL multi handle is left when there was something to read from several servers. -/
theorem retains_curlMultiHandle : (rvReadFromServers r).Moves (Retains (curlMultiHandle 0)) :=
  retains_rvReadFromServers (.inr rfl) (Effect.moves_bind
    (retains_each (retains_releaseServer (.inr rfl)) _) fun _ => retains_release nofun)

/-- Without anything to read the texts for the servers were never set, and the end comes before the
copy of the server list is released. -/
theorem retains_urlStringCopy (hservers : 0 < r.serverNodeNum) (hnone : r.transfers = []) :
    (rvReadFromServers r).Moves (Retains urlStringCopy) := by
  refine retains_rvReadFromServers (.inl rfl) fun s => ?_
  have hfails : (Effect.each (releaseServer r) r.servers).Fails := by
    refine Effect.fails_each (List.mem_range.mpr hservers) (Effect.fails_bind ?_)
    rw [hnone]
    exact fun s => rfl
  rw [Effect.bind_of_none (hfails s)]
  exact retains_each (retains_releaseServer (.inl rfl)) _ s

theorem retains_rvReadSetUp : (rvReadSetUp r).Moves (Retains urlStringCopy) := by
  have h : Forgotten urlStringCopy := .inl rfl
  have hne : ∀ m ∈ [.nodeSize, selectNode, transferInfo], m ≠ urlStringCopy := by decide
  have hmulti : ∀ j, curlMultiHandle j ≠ urlStringCopy := fun _ => nofun
  exact Effect.moves_bind (retains_copyUrls h 0 _) fun _ =>
    Effect.moves_bind (retains_take (hne _ (by decide)) _) fun _ =>
    Effect.moves_bind (retains_orStuck _) fun _ =>
    Effect.moves_bind (retains_take (hne _ (by decide)) _) fun _ =>
    Effect.moves_bind (retains_require (hne _ (by decide)) _) fun _ =>
    Effect.moves_bind (retains_each (fun j => retains_take (hmulti j) _) _) fun _ =>
    Effect.moves_bind (retains_each (fun i => retains_rvReadInit h i _) _) fun _ =>
    retains_each (fun i => retains_rvReadPrepare h i _) _

/-- A transfer cannot be added without the multi handle. -/
theorem fails_rvReadSetUp (hmulti : r.curlMultiHandle 0 = false) (hsome : r.transfers ≠ []) :
    (rvReadSetUp r).Fails := by
  have hmem : 0 ∈ r.transfers :=
    List.mem_range.mpr (Nat.pos_of_ne_zero fun h => hsome (by rw [ReadCall.transfers, h]; rfl))
  have hadded : (Effect.guard (r.curlMultiHandle (0 % r.serverNodeNum) &&
      (r.transfer 0).added) : IoEffect).Fails :=
    Effect.fails_guard (by rw [Nat.zero_mod, hmulti]; rfl)
  have hprepare : (rvReadPrepare r 0 (r.transfer 0)).Fails := by
    unfold rvReadPrepare
    iterate 14 refine Effect.fails_bind_right fun _ => ?_
    exact hadded
  unfold rvReadSetUp
  iterate 7 refine Effect.fails_bind_right fun _ => ?_
  exact Effect.fails_each hmem hprepare

/-- When everything is set up, the first multi handle is there. -/
theorem gives_rvReadSetUp (hservers : 0 < r.serverNodeNum) (hsome : r.transfers ≠ []) :
    (rvReadSetUp r).Gives (Holds (curlMultiHandle 0)) := by
  intro s hs
  cases hmulti : r.curlMultiHandle 0 with
  | false =>
      rw [fails_rvReadSetUp hmulti hsome s] at hs
      cases hs
  | true =>
      obtain ⟨k, hk⟩ := Nat.exists_eq_succ_of_ne_zero hservers.ne'
      have hhandles : (Effect.each (fun j => take (curlMultiHandle j) (r.curlMultiHandle j))
          r.servers).Gives (Holds (curlMultiHandle 0)) := by
        rw [ReadCall.servers, hk, List.range_succ_eq_map]
        refine Effect.gives_bind_left (fun s _ => ?_) fun _ => ?_
        · show Holds _ (take (curlMultiHandle 0) (r.curlMultiHandle 0) s).2
          rw [hmulti]
          exact holds_assign _ s
        · refine fun s => (Effect.moves_each (fun j hj => retains_take ?_ _) s).holds
          obtain ⟨i, -, rfl⟩ := List.mem_map.mp hj
          exact fun heq => nomatch heq
      have hkeeps : ∀ _ : Unit, (do
          Effect.each (fun i => rvReadInit i (r.transfer i)) r.transfers
          Effect.each (fun i => rvReadPrepare r i (r.transfer i)) r.transfers
            : IoEffect).Moves (Retains (curlMultiHandle 0)) := fun _ =>
        Effect.moves_bind (retains_each (fun i => retains_rvReadInit (.inr rfl) i _) _) fun _ =>
          retains_each (fun i => retains_rvReadPrepare (.inr rfl) i _) _
      revert s
      show (rvReadSetUp r).Gives (Holds (curlMultiHandle 0))
      unfold rvReadSetUp
      iterate 5 refine Effect.gives_bind_right fun _ => ?_
      exact Effect.gives_bind_left hhandles fun value s => (hkeeps value s).holds

theorem ReadCall.serverNodeNum_pos (h : r.configured = true) : 0 < r.serverNodeNum := by
  unfold configured at h
  split at h
  · next num _ hnum _ =>
      rw [Bool.and_eq_true, decide_eq_true_eq, decide_eq_true_eq] at h
      rw [serverNodeNum, hnum]
      exact Int.lt_toNat.mpr h.1
  · cases h

/-- Whichever way the rest of a read goes, one of the two variables is still held at its end. -/
theorem forgotten_holds (hservers : 0 < r.serverNodeNum) {s : Holdings IoVariable}
    (hs : Holds urlStringCopy s) :
    ∃ n, Forgotten n ∧ Holds n ((do
      rvReadSetUp r
      if 1 < r.serverNodeNum then rvReadFromServers r
        else rvCurlMultiPerform true r.perform : IoEffect) s).2 := by
  have hsetUp : Holds urlStringCopy (rvReadSetUp r s).2 := (retains_rvReadSetUp s).holds hs
  cases hvalue : (rvReadSetUp r s).1 with
  | none =>
      rw [Effect.bind_of_none hvalue]
      exact ⟨urlStringCopy, .inl rfl, hsetUp⟩
  | some value =>
      rw [Effect.bind_of_some hvalue]
      by_cases hmany : 1 < r.serverNodeNum
      · rw [if_pos hmany]
        by_cases hnone : r.transfers = []
        · exact ⟨_, .inl rfl, (retains_urlStringCopy hservers hnone _).holds hsetUp⟩
        · have hhandle := gives_rvReadSetUp hservers hnone s (by rw [hvalue]; rfl)
          exact ⟨_, .inr rfl, (retains_curlMultiHandle _).holds hhandle⟩
      · rw [if_neg hmany]
        exact ⟨_, .inl rfl, (retains_rvCurlMultiPerform (.inl rfl) _ _ _).holds hsetUp⟩

/-- A read always leaves something behind, or has done something undefined. -/
theorem not_settled_read (r : ReadCall) : ¬ (IoCall.read r).after.Settled := by
  have hstuck : ∀ {s : Holdings IoVariable}, s.stuck = true → ¬ (rvDatasetReadDone r s).2.Settled :=
    fun hs => not_settled_of_stuck ((retains_rvDatasetReadDone (.inl rfl) _).stuck hs)
  show ¬ (rvDatasetReadDone r (rvDatasetReadBody r .empty).2).2.Settled
  unfold rvDatasetReadBody
  cases hconfigured : r.configured with
  | false => exact hstuck rfl
  | true =>
      cases hcopy : r.urlStringCopy with
      | false => exact hstuck rfl
      | true =>
          obtain ⟨n, hn, hholds⟩ := forgotten_holds (r.serverNodeNum_pos hconfigured)
            (holds_assign urlStringCopy .empty)
          exact ((retains_rvDatasetReadDone hn _).holds hholds).not_settled

end Reading

/-! ## Writing -/

/-- What has to be granted and to succeed for a transfer to come through the first loop. -/
def WriteTransfer.Inits (x : WriteTransfer) : Prop :=
  x.checked = true ∧ x.requestUrl = true ∧ (x.curlEasyHandle && x.writeFunction) = true ∧
    x.respBuffer = true ∧ x.options = true

/-- The selection is `H5S_ALL`, or it is converted. -/
def WriteTransfer.Selects (x : WriteTransfer) : Prop :=
  x.fileAll = true ∨ x.selected = true ∧ x.converted = true

/-- The values are converted where they have to be. -/
def TconvCalls.Converts : Option TconvCalls → Prop
  | none => True
  | some calls => calls.sizes = true ∧ calls.init ≠ .failed ∧ calls.converted = true

/-- A buffer for the converted values is there when it is used. -/
def TconvCalls.Obtains : Option TconvCalls → Prop
  | none => True
  | some calls => calls.sizes = true → calls.init ≠ .failed

/-- There is a body for the request. -/
def BodyCalls.Makes : BodyCalls → Prop
  | .contiguous succeeds => succeeds = true
  | .gathered checked granted gathers => checked = true ∧ granted = true ∧ gathers = true
  | .references converted => converted = true
  | .other => True

/-- A buffer is obtained, and the values are encoded. -/
def PointCalls.Encodes (x : PointCalls) : Prop :=
  x.base64EncodedValues = true ∧ x.given = true ∧ (x.empty = true → x.again = true) ∧ x.grows = true

/-- The points and the values are put into one body. -/
def PointCalls.Wraps (x : PointCalls) : Prop :=
  x.Encodes ∧ x.writeBody = true ∧ x.printed = true

/-- The values have a length when they are encoded, and the list of headers is not lost at the
end. -/
def PointCalls.Harmless (x : PointCalls) (headers : Bool) : Prop :=
  (x.base64EncodedValues = true → x.given = true → x.empty = false) ∧
    (x.Wraps → headers = true → x.contentType = true)

/-- No list of headers is lost when a header is added to it. -/
def WriteTransfer.HeadersStay (x : WriteTransfer) : Prop :=
  (x.hostHeader = true → x.expectHeader = true) ∧ (x.expectHeader = true → x.contentType = true)

/-- A transfer comes from the conversion of its selection to the end of its set-up. -/
def WriteTransfer.Prepares (x : WriteTransfer) (points : Bool) : Prop :=
  x.npoints = true ∧ TconvCalls.Converts x.tconv ∧ x.body.Makes ∧ x.hostHeaders = true ∧
    x.url = true ∧ (points = true → x.pointCalls.Wraps) ∧ x.requestOptions = true ∧
      (!x.nonEmpty || x.added) = true

/-- Nothing is overwritten on the way there, as far as the transfer comes. -/
def WriteTransfer.Harmless (x : WriteTransfer) (points : Bool) : Prop :=
  x.npoints = true → TconvCalls.Obtains x.tconv ∧ (TconvCalls.Converts x.tconv → x.body.Makes →
    x.hostHeaders = true → x.HeadersStay ∧
      (x.url = true → points = true → x.pointCalls.Harmless x.contentType))

/-- The set-up of a transfer leaves nothing behind: there is no error once the selection was
converted, and nothing is overwritten. -/
def WriteTransfer.Fits (x : WriteTransfer) (points : Bool) : Prop :=
  x.typed = true → x.Selects → (x.Prepares points ∨ x.fileAll = true) ∧ x.Harmless points

/-- So do the set-ups of the transfers that are reached. -/
def SetUpsFit : Bool → List WriteTransfer → Prop
  | _, [] => True
  | points, x :: xs =>
      x.Fits (x.pointsAfter points) ∧
        (x.typed = true ∧ x.Selects ∧ x.Prepares (x.pointsAfter points) →
          SetUpsFit (x.pointsAfter points) xs)

/-- The array of transfers is there unless it is empty, and the set-ups leave nothing behind. -/
def WriteCall.Fits (w : WriteCall) : Prop :=
  (w.transferInfo = true ∨ w.transfers = []) ∧
    (w.transferInfo = true → (∀ x ∈ w.transfers, x.Inits) → SetUpsFit false w.transfers)

section Writing

variable {i count : Nat} {points k : Bool} {fields : List TransferField}

/-- The fields that the second loop fills. -/
def setUpFields : List TransferField :=
  [tconvBuf, bkgBuf, writeBody, hostHeaders, curlHeaders, base64EncodedValues]

/-- The variables of a write. -/
def writeScope (count : Nat) : Set IoVariable :=
  {n | n = transferInfo ∨ n = curlMultiHandle 0 ∨ n = .selectionBody ∨
    ∃ i < count, ∃ field ∈ curlHeaders :: writeFields, n = transfer i field}

theorem mem_writeScope {field : TransferField} (hi : i < count)
    (hfield : field ∈ curlHeaders :: writeFields) : transfer i field ∈ writeScope count :=
  .inr (.inr (.inr ⟨i, hi, field, hfield, rfl⟩))

/-- What is known when a transfer is set up: some of its fields are not set yet, nor are those of
the transfers after it, and whether there is a selection. -/
def left (i : Nat) (fields : List TransferField) (k : Bool) : IoVariable → Option Bool
  | .transfer j field =>
      if j = i ∧ field ∈ fields ∨ i < j ∧ field ∈ setUpFields then some false else none
  | .selectionBody => some k
  | _ => none

theorem left_self {field : TransferField} (h : field ∈ fields) :
    left i fields k (transfer i field) = some false := if_pos (.inl ⟨rfl, h⟩)

theorem left_kept : left i fields k .selectionBody = some k := rfl

theorem left_none {field : TransferField} (h : field ∉ fields) :
    left i fields k (transfer i field) = none := by
  refine if_neg ?_
  rintro (⟨-, hmem⟩ | ⟨hlt, -⟩)
  · exact h hmem
  · exact Nat.lt_irrefl i hlt

/-- Setting a field does not change what is known of the others. -/
theorem left_update {field : TransferField} {F : IoVariable → Option Bool} {v : Option Bool}
    (hfield : field ∉ fields) (h : ∀ n b, left i fields k n = some b → F n = some b) :
    ∀ n b, left i fields k n = some b → Function.update F (transfer i field) v n = some b := by
  intro n b hn
  by_cases heq : n = transfer i field
  · rw [heq, left_none hfield] at hn
    cases hn
  · rw [Function.update_of_ne heq]
    exact h n b hn

theorem left_mono {more : List TransferField} (hsub : ∀ field ∈ fields, field ∈ more) :
    ∀ n b, left i fields k n = some b → left i more k n = some b := by
  intro n b hn
  cases n with
  | transfer j field =>
      rw [left] at hn
      split at hn
      · next h =>
          cases hn
          exact if_pos (h.imp_left fun h => ⟨h.1, hsub field h.2⟩)
      · cases hn
  | _ => exact hn

/-- After a transfer the next one is as it was. -/
theorem left_succ : ∀ n b, left (i + 1) setUpFields k n = some b → left i [] k n = some b := by
  intro n b hn
  cases n with
  | transfer j field =>
      rw [left] at hn
      split at hn
      · next h =>
          cases hn
          refine if_pos (.inr ?_)
          rcases h with ⟨rfl, hfield⟩ | ⟨hlt, hfield⟩
          · exact ⟨Nat.lt_succ_self i, hfield⟩
          · exact ⟨Nat.lt_of_succ_lt hlt, hfield⟩
      · cases hn
  | _ => exact hn

theorem left_selection {k' : Bool} : ∀ n b, left i fields k' n = some b →
    Function.update (left i fields k) .selectionBody (some k') n = some b := by
  intro n b hn
  by_cases heq : n = .selectionBody
  · subst heq
    rw [Function.update_self]
    exact hn
  · rw [Function.update_of_ne heq]
    cases n with
    | selectionBody => exact absurd rfl heq
    | _ => exact hn

/-- What is after a transfer's fields are set: nothing is known of them any more. -/
abbrev Sets (count i : Nat) (fields : List TransferField) (k : Bool) (m : IoEffect) (C H : Prop)
    (rest : List TransferField) : Prop :=
  Needs (writeScope count) .selectionBody (left i fields k) m C ((C ∨ k = false) ∧ H)
    (left i rest k)

theorem sets_guard (b : Bool) : Sets count i fields k (Effect.guard b) (b = true) True fields :=
  (needs_guard left_kept b).or_true

theorem sets_require {field : TransferField} {rest : List TransferField} (hi : i < count)
    (hscope : field ∈ curlHeaders :: writeFields) (hfield : field ∈ fields) (hrest : field ∉ rest)
    (hsub : ∀ f ∈ rest, f ∈ fields) (g : Bool) :
    Sets count i fields k (require (transfer i field) g) (g = true) True rest := by
  have hne : IoVariable.selectionBody ≠ transfer i field := nofun
  exact ((needs_require (mem_writeScope hi hscope) (left_self hfield) hne left_kept g).weaken
    fun _ => left_update hrest (left_mono hsub)).or_true

theorem sets_rvTconvInit (hi : i < count) (init : TconvInit) :
    Sets count i setUpFields k (rvTconvInit i init) (init ≠ .failed) (init ≠ .failed)
      [writeBody, hostHeaders, curlHeaders, base64EncodedValues] := by
  have hsub : ∀ field ∈ [writeBody, hostHeaders, curlHeaders, base64EncodedValues],
      field ∈ setUpFields := by decide
  cases init with
  | nothing =>
      refine (needs_pure.weaken fun _ => left_mono hsub).congr (iff_of_true trivial nofun) ?_
      exact iff_of_true trivial ⟨.inl nofun, nofun⟩
  | failed =>
      exact needs_stuck.congr (iff_of_false id fun h => h rfl) (iff_of_false id fun h => h.2 rfl)
  | buffers bkg =>
      have htconv : Needs (writeScope count) .selectionBody (left i setUpFields k)
          (take (transfer i tconvBuf) true) True (false = false)
          (Function.update (left i setUpFields k) (transfer i tconvBuf) (some true)) :=
        needs_take (mem_writeScope hi (by decide)) (left_self (by decide)) true
      have hbkg : Needs (writeScope count) .selectionBody
          (Function.update (left i setUpFields k) (transfer i tconvBuf) (some true))
          (take (transfer i bkgBuf) bkg) True (false = false)
          (Function.update (Function.update (left i setUpFields k) (transfer i tconvBuf)
            (some true))
            (transfer i bkgBuf) (some bkg)) := by
        have hunset : left i setUpFields k (transfer i bkgBuf) = some false := left_self (by decide)
        exact needs_take (mem_writeScope hi (by decide))
          ((Function.update_of_ne (by simp) ..).trans hunset) bkg
      refine ((htconv.bind fun _ => hbkg).weaken fun _ => ?_).congr
        (iff_of_true ⟨trivial, trivial⟩ nofun) (iff_of_true ⟨rfl, fun _ => rfl⟩ ⟨.inl nofun, nofun⟩)
      exact left_update (by decide) (left_update (by decide) (left_mono hsub))

theorem sets_rvWriteConvert (hi : i < count) (calls : Option TconvCalls) :
    Sets count i setUpFields k (rvWriteConvert i calls) (TconvCalls.Converts calls)
      (TconvCalls.Obtains calls) [writeBody, hostHeaders, curlHeaders, base64EncodedValues] := by
  cases calls with
  | none =>
      refine (needs_pure.weaken fun _ => left_mono (by decide)).congr .rfl ?_
      exact iff_of_true trivial ⟨.inl trivial, trivial⟩
  | some calls =>
      refine Needs.congr (Needs.bind_or (sets_guard _) fun _ =>
        Needs.bind_or (sets_rvTconvInit hi _) fun _ => sets_guard _) .rfl (and_congr_right fun _ =>
          ?_)
      exact ⟨fun h hsizes => (h.2 hsizes).1,
        fun h => ⟨trivial, fun hsizes => ⟨h hsizes, fun _ => trivial⟩⟩⟩

theorem sets_rvWriteBody (hi : i < count) (calls : BodyCalls) :
    Sets count i [writeBody, hostHeaders, curlHeaders, base64EncodedValues] k (rvWriteBody i calls)
      calls.Makes True [hostHeaders, curlHeaders, base64EncodedValues] := by
  have hsub : ∀ field ∈ [hostHeaders, curlHeaders, base64EncodedValues],
      field ∈ [writeBody, hostHeaders, curlHeaders, base64EncodedValues] := by decide
  have hmake : ∀ g, Sets count i [writeBody, hostHeaders, curlHeaders, base64EncodedValues] k
      (require (transfer i writeBody) g) (g = true) True
      [hostHeaders, curlHeaders, base64EncodedValues] :=
    sets_require hi (by decide) (by decide) (by decide) hsub
  cases calls with
  | contiguous succeeds => exact (sets_guard succeeds).weaken fun _ => left_mono hsub
  | gathered checked granted gathers =>
      refine Needs.congr (Needs.bind_or (sets_guard _) fun _ =>
        Needs.bind_or (hmake granted) fun _ => sets_guard _) .rfl (and_congr_right fun _ => ?_)
      exact iff_of_true ⟨trivial, fun _ => ⟨trivial, fun _ => trivial⟩⟩ trivial
  | references converted => exact hmake converted
  | other =>
      refine (needs_pure.weaken fun _ => left_mono hsub).congr .rfl ?_
      exact iff_of_true trivial ⟨.inl trivial, trivial⟩

/-- What is known after the headers were set: whether there is a list of them. -/
abbrev headed (i : Nat) (fields : List TransferField) (k a : Bool) : IoVariable → Option Bool :=
  Function.update (left i fields k) (transfer i curlHeaders) (some a)

theorem headed_kept {a : Bool} : headed i fields k a .selectionBody = some k := rfl

theorem headed_mono {a : Bool} {F : IoVariable → Option Bool}
    (h : ∀ n b, left i fields k n = some b → F n = some b)
    (ha : F (transfer i curlHeaders) = some a) :
    ∀ n b, headed i fields k a n = some b → F n = some b := by
  intro n b hn
  by_cases heq : n = transfer i curlHeaders
  · rw [heq, headed, Function.update_self] at hn
    rw [heq, ha, hn]
  · rw [headed, Function.update_of_ne heq] at hn
    exact h n b hn

theorem needs_rvWriteHeaders (hi : i < count) (x : WriteTransfer) :
    Needs (writeScope count) .selectionBody
      (left i [hostHeaders, curlHeaders, base64EncodedValues] k)
      (rvWriteHeaders i x) (x.hostHeaders = true)
      ((x.hostHeaders = true ∨ k = false) ∧ (x.hostHeaders = true → x.HeadersStay))
      (headed i [base64EncodedValues] k x.contentType) := by
  have hscope : transfer i curlHeaders ∈ writeScope count := mem_writeScope hi (by decide)
  have hhost : Sets count i [hostHeaders, curlHeaders, base64EncodedValues] k
      (require (transfer i hostHeaders) x.hostHeaders) (x.hostHeaders = true) True
      [curlHeaders, base64EncodedValues] :=
    sets_require hi (by decide) (by decide) (by decide) (by decide) _
  have hextend : ∀ (F : IoVariable → Option Bool) (a g : Bool),
      (∀ n b, left i [base64EncodedValues] k n = some b → F n = some b) →
      F (transfer i curlHeaders) = some a →
      Needs (writeScope count) .selectionBody F (extend (transfer i curlHeaders) g) True
        ((True ∨ k = false) ∧ (a = true → g = true)) (headed i [base64EncodedValues] k g) := by
    intro F a g hF ha
    refine Needs.or_of_true ((needs_extend hscope ha g).weaken fun _ => headed_mono ?_ ?_)
    · exact left_update (by decide) hF
    · exact Function.update_self ..
  have hagain : ∀ a g, Needs (writeScope count) .selectionBody (headed i [base64EncodedValues] k a)
      (extend (transfer i curlHeaders) g) True ((True ∨ k = false) ∧ (a = true → g = true))
      (headed i [base64EncodedValues] k g) := fun a g =>
    hextend _ a g (left_update (by decide) fun _ _ => id) (Function.update_self ..)
  refine Needs.congr (Needs.bind_or hhost fun _ =>
    Needs.bind_or (hextend _ false _ (left_mono (by decide)) (left_self (by decide))) fun _ =>
    Needs.bind_or (hagain _ _) fun _ => hagain _ _) ?_ ?_
  · simp
  · simp [WriteTransfer.HeadersStay]

/-- Setting a field other than the headers does not change what is known of them. -/
theorem headed_update {a : Bool} {field : TransferField} {F : IoVariable → Option Bool}
    {v : Option Bool} (hheaders : curlHeaders ∉ fields) (hne : field ≠ curlHeaders)
    (hfield : field ∉ fields) (h : ∀ n b, headed i fields k a n = some b → F n = some b) :
    ∀ n b, headed i fields k a n = some b → Function.update F (transfer i field) v n = some b := by
  have hset : F (transfer i curlHeaders) = some a := h _ _ (Function.update_self ..)
  refine headed_mono (left_update hfield fun n b hn => ?_)
    ((Function.update_of_ne ?_ ..).trans hset)
  · by_cases heq : n = transfer i curlHeaders
    · rw [heq, left_none hheaders] at hn
      cases hn
    · exact h n b ((Function.update_of_ne heq ..).trans hn)
  · exact fun heq => hne (IoVariable.transfer.inj heq).2.symm

/-- The buffer for encoded values is set anew when the values have no length. -/
theorem needs_rvBase64Encode {a : Bool} (hi : i < count) (x : PointCalls) :
    Needs (writeScope count) .selectionBody
      (Function.update (headed i [base64EncodedValues] k a) (transfer i base64EncodedValues)
        (some true))
      (rvBase64Encode i x) (x.given = true ∧ (x.empty = true → x.again = true) ∧ x.grows = true)
      ((x.given = true ∧ (x.empty = true → x.again = true) ∧ x.grows = true ∨ k = false) ∧
        (x.given = true → x.empty = false))
      (headed i [] k a) := by
  have hscope : transfer i base64EncodedValues ∈ writeScope count := mem_writeScope hi (by decide)
  have hknown : ∀ n b, headed i [] k a n = some b →
      Function.update (headed i [base64EncodedValues] k a) (transfer i base64EncodedValues)
        (some true)
        n = some b := by
    refine headed_update (by decide) (by decide) (by decide)
      (headed_mono ?_ (Function.update_self ..))
    exact left_update (by decide) (left_mono (by decide))
  have hagain : x.empty = true → Needs (writeScope count) .selectionBody
      (Function.update (headed i [base64EncodedValues] k a) (transfer i base64EncodedValues)
        (some true))
      (require (transfer i base64EncodedValues) x.again) (x.again = true)
      ((x.again = true ∨ k = false) ∧ False) (headed i [] k a) := by
    intro _
    have htake : Needs (writeScope count) .selectionBody
        (Function.update (headed i [base64EncodedValues] k a) (transfer i base64EncodedValues)
          (some true)) (take (transfer i base64EncodedValues) x.again) True (true = false)
        (headed i [] k a) := by
      refine (needs_take hscope (Function.update_self ..) x.again).weaken fun _ => ?_
      exact headed_update (by decide) (by decide) (by decide) hknown
    refine Needs.congr (htake.bind fun _ => needs_guard headed_kept x.again) (and_iff_right trivial)
      ?_
    exact iff_of_false (fun h => nomatch h.1) And.right
  have hgrow : (!x.grows) = true → Needs (writeScope count) .selectionBody (headed i [] k a) (do
      dispose (transfer i base64EncodedValues)
      Effect.fail) False ((False ∨ k = false) ∧ True) (headed i [] k a) := by
    intro _
    have hdispose : Needs (writeScope count) .selectionBody (headed i [] k a)
        (dispose (transfer i base64EncodedValues)) True True (headed i [] k a) :=
      (needs_dispose _).weaken fun _ =>
        headed_update (by decide) (by decide) (by decide) fun _ _ => id
    refine Needs.congr (hdispose.bind fun _ => needs_fail headed_kept) (and_iff_right trivial) ?_
    simp
  refine Needs.congr (Needs.bind_or (Needs.or_true (needs_guard (hknown _ _ headed_kept) x.given))
    fun _ =>
    Needs.bind_or (needs_onlyIf hagain fun _ => hknown) fun _ =>
    needs_onlyIf hgrow fun _ _ _ => id) ?_ ?_
  · simp
  · simp

theorem needs_rvWritePoints {a : Bool} (hi : i < count) (x : PointCalls) :
    Needs (writeScope count) .selectionBody (headed i [base64EncodedValues] k a) (rvWritePoints i x)
      x.Wraps ((x.Wraps ∨ k = false) ∧ x.Harmless a) (left i [] k) := by
  have hne : IoVariable.selectionBody ≠ transfer i base64EncodedValues := nofun
  have hbody : IoVariable.selectionBody ≠ transfer i writeBody := nofun
  have hunset : headed i [base64EncodedValues] k a (transfer i base64EncodedValues) = some false :=
    (Function.update_of_ne (by simp) ..).trans (left_self (by decide))
  have hbase64 := Needs.or_true (needs_require (mem_writeScope hi (by decide)) hunset hne
    headed_kept
    x.base64EncodedValues)
  have hdispose : Needs (writeScope count) .selectionBody (headed i [] k a)
      (dispose (transfer i writeBody)) True ((True ∨ k = false) ∧ True)
      (Function.update (headed i [] k a) (transfer i writeBody) (some false)) :=
    (needs_dispose _).or_of_true
  have hwriteBody : Needs (writeScope count) .selectionBody
      (Function.update (headed i [] k a) (transfer i writeBody) (some false))
      (require (transfer i writeBody) x.writeBody) (x.writeBody = true)
      ((x.writeBody = true ∨ k = false) ∧ True) (headed i [] k a) := by
    refine Needs.or_true (Needs.weaken (needs_require (mem_writeScope hi (by decide))
      (Function.update_self ..) hbody ?_ _) fun _ => ?_)
    · exact (Function.update_of_ne hbody ..).trans headed_kept
    · exact headed_update (by decide) (by decide) (by decide)
        (headed_update (by decide) (by decide) (by decide) fun _ _ => id)
  have hextend : Needs (writeScope count) .selectionBody (headed i [] k a)
      (extend (transfer i curlHeaders) x.contentType) True
      ((True ∨ k = false) ∧ (a = true → x.contentType = true)) (left i [] k) := by
    refine Needs.or_of_true ((needs_extend (mem_writeScope hi (by decide)) (Function.update_self ..)
      _).weaken fun _ => ?_)
    exact left_update (by decide) (left_update (by decide) fun _ _ => id)
  refine Needs.congr (Needs.bind_or hbase64 fun _ => Needs.bind_or (needs_rvBase64Encode hi x)
    fun _ =>
    Needs.bind_or hdispose fun _ => Needs.bind_or hwriteBody fun _ =>
    Needs.bind_or (needs_guard headed_kept x.printed).or_true fun _ => hextend) ?_ ?_
  · simp [PointCalls.Wraps, PointCalls.Encodes, and_assoc]
  · simp [PointCalls.Wraps, PointCalls.Encodes, PointCalls.Harmless, and_assoc, imp_and]

theorem needs_rvWriteSelect (x : WriteTransfer) :
    Needs (writeScope count) .selectionBody (left i setUpFields false) (rvWriteSelect x)
      x.Selects True
      (left i setUpFields (!x.fileAll)) := by
  unfold rvWriteSelect
  split
  · next hall =>
      rw [hall]
      exact needs_pure.congr (iff_of_true trivial (.inl hall)) .rfl
  · next hall =>
      rw [Bool.eq_false_of_not_eq_true hall]
      have hrequire : Needs (writeScope count) .selectionBody (left i setUpFields false)
          (require .selectionBody x.converted) (x.converted = true) True
            (left i setUpFields true) :=
        (needs_require_kept (.inr (.inr (.inl rfl))) left_kept _).weaken fun _ => left_selection
      refine ((needs_guard left_kept x.selected).bind fun _ => hrequire).congr ?_ ?_
      · exact ⟨.inr, fun h => h.resolve_left hall⟩
      · exact iff_of_true ⟨.inr rfl, fun _ => trivial⟩ trivial

/-- After the selection is converted every error is wrong, unless the selection is `H5S_ALL`. -/
theorem needs_rvWriteSetUp (hi : i < count) (x : WriteTransfer) :
    Needs (writeScope count) .selectionBody (left i setUpFields k) (rvWriteSetUp i points x)
      (x.Prepares points) ((x.Prepares points ∨ k = false) ∧ x.Harmless points)
      (left (i + 1) setUpFields false) := by
  have hdispose : Needs (writeScope count) .selectionBody (left i [] k)
      (dispose .selectionBody) True
      ((True ∨ k = false) ∧ True) (left (i + 1) setUpFields false) :=
    Needs.or_of_true ((needs_dispose _).weaken fun _ n b hn => left_selection n b
      (left_succ n b hn))
  have hpoints : Needs (writeScope count) .selectionBody
      (headed i [base64EncodedValues] k x.contentType)
        (onlyIf points (rvWritePoints i x.pointCalls))
      (points = true → x.pointCalls.Wraps)
      (((points = true → x.pointCalls.Wraps) ∨ k = false) ∧
        (points = true → x.pointCalls.Harmless x.contentType)) (left i [] k) :=
    needs_onlyIf (fun _ => needs_rvWritePoints hi x.pointCalls)
      fun _ => left_update (by decide) (left_mono (by decide))
  refine Needs.congr (Needs.bind_or (sets_guard _) fun _ =>
    Needs.bind_or (sets_rvWriteConvert hi _) fun _ =>
    Needs.bind_or (sets_rvWriteBody hi _) fun _ =>
    Needs.bind_or (needs_rvWriteHeaders hi x) fun _ =>
    Needs.bind_or (needs_guard headed_kept x.url).or_true fun _ =>
    Needs.bind_or hpoints fun _ =>
    Needs.bind_or (sets_guard _) fun _ =>
    Needs.bind_or (sets_guard _) fun _ => hdispose) ?_ ?_
  · simp [WriteTransfer.Prepares]
  · simp only [WriteTransfer.Prepares, WriteTransfer.Harmless, true_and, and_true, implies_true,
      imp_and]

/-- The set-up of a transfer. -/
theorem needs_rvWritePrepare (hi : i < count) (x : WriteTransfer) :
    Needs (writeScope count) .selectionBody (left i setUpFields false) (rvWritePrepare i points x)
      (x.typed = true ∧ x.Selects ∧ x.Prepares points) (x.Fits points)
      (left (i + 1) setUpFields false) := by
  refine Needs.congr (Needs.bind (needs_guard left_kept _) fun _ =>
    Needs.bind (needs_rvWriteSelect x) fun _ => needs_rvWriteSetUp hi x) .rfl ?_
  simp [WriteTransfer.Fits]

theorem needs_rvWritePrepares (points : Bool) (xs : List WriteTransfer)
    (hcount : i + xs.length = count) :
    ∃ C, Needs (writeScope count) .selectionBody (left i setUpFields false)
      (rvWritePrepares i points xs) C (SetUpsFit points xs) (left count setUpFields false) := by
  induction xs generalizing i points with
  | nil =>
      cases hcount
      exact ⟨True, needs_pure⟩
  | cons x xs ih =>
      obtain ⟨C, hrest⟩ := ih (i := i + 1) (x.pointsAfter points)
        (by rw [← hcount, List.length_cons]; omega)
      exact ⟨_, (needs_rvWritePrepare (by rw [← hcount, List.length_cons]; omega) x).bind fun _ =>
        hrest⟩

/-- What is known in the first loop: some fields of a transfer are not set yet, nor is anything of
the transfers after it, or what the second loop sets. -/
def fresh (i : Nat) (fields : List TransferField) : IoVariable → Option Bool
  | .transfer j field =>
      if field ∈ setUpFields ∨ j = i ∧ field ∈ fields ∨ i < j then some false else none
  | .selectionBody => some false
  | _ => none

/-- The fields that the first loop fills. -/
def initFields : List TransferField := [curlEasyHandle, requestUrl, respBuffer]

theorem fresh_kept : fresh i fields .selectionBody = some false := rfl

theorem fresh_self {field : TransferField} (h : field ∈ fields) :
    fresh i fields (transfer i field) = some false := if_pos (.inr (.inl ⟨rfl, h⟩))

theorem fresh_update {field : TransferField} {rest : List TransferField} {v : Option Bool}
    (hset : field ∉ setUpFields) (hrest : field ∉ rest) (hsub : ∀ f ∈ rest, f ∈ fields) :
    ∀ n b, fresh i rest n = some b →
      Function.update (fresh i fields) (transfer i field) v n = some b := by
  intro n b hn
  by_cases heq : n = transfer i field
  · rw [heq, fresh, if_neg] at hn
    · cases hn
    · rintro (h | ⟨-, h⟩ | h)
      · exact hset h
      · exact hrest h
      · exact Nat.lt_irrefl i h
  · rw [Function.update_of_ne heq]
    cases n with
    | transfer j field =>
        rw [fresh] at hn
        split at hn
        · next h =>
            cases hn
            exact if_pos (h.imp_right fun h => h.imp_left fun h => ⟨h.1, hsub field h.2⟩)
        · cases hn
    | _ => exact hn

theorem fresh_succ : ∀ n b, fresh (i + 1) fields n = some b → fresh i [] n = some b := by
  intro n b hn
  cases n with
  | transfer j field =>
      rw [fresh] at hn
      split at hn
      · next h =>
          cases hn
          refine if_pos (h.imp_right fun h => .inr ?_)
          rcases h with ⟨rfl, -⟩ | h
          · exact Nat.lt_succ_self i
          · exact Nat.lt_of_succ_lt h
      · cases hn
  | _ => exact hn

theorem needs_initField {field : TransferField} {rest : List TransferField} (hi : i < count)
    (hscope : field ∈ curlHeaders :: writeFields) (hset : field ∉ setUpFields)
    (hfield : field ∈ fields)
    (hrest : field ∉ rest) (hsub : ∀ f ∈ rest, f ∈ fields) (g : Bool) :
    Needs (writeScope count) .selectionBody (fresh i fields) (require (transfer i field) g)
      (g = true)
      (g = true ∨ false = false) (fresh i rest) := by
  have hne : IoVariable.selectionBody ≠ transfer i field := nofun
  exact (needs_require (mem_writeScope hi hscope) (fresh_self hfield) hne fresh_kept g).weaken
    fun _ => fresh_update hset hrest hsub

/-- In the first loop nothing goes wrong. -/
theorem needs_rvWriteInit (hi : i < count) (x : WriteTransfer) :
    Needs (writeScope count) .selectionBody (fresh i initFields) (rvWriteInit i x) x.Inits True
      (fresh (i + 1) initFields) := by
  have heasy : Needs (writeScope count) .selectionBody (fresh i initFields)
      (take (transfer i curlEasyHandle) x.curlEasyHandle) True (false = false)
      (fresh i [requestUrl, respBuffer]) :=
    (needs_take (mem_writeScope hi (by decide)) (fresh_self (by decide)) _).weaken
      fun _ => fresh_update (by decide) (by decide) (by decide)
  have hurl : Needs (writeScope count) .selectionBody (fresh i [requestUrl, respBuffer])
      (require (transfer i requestUrl) x.requestUrl) (x.requestUrl = true)
      (x.requestUrl = true ∨ false = false) (fresh i [respBuffer]) :=
    needs_initField hi (by decide) (by decide) (by decide) (by decide) (by decide) _
  have hresp : Needs (writeScope count) .selectionBody (fresh i [respBuffer])
      (require (transfer i respBuffer) x.respBuffer) (x.respBuffer = true)
      (x.respBuffer = true ∨ false = false) (fresh i []) :=
    needs_initField hi (by decide) (by decide) (by decide) (by decide) (by decide) _
  refine Needs.congr (Needs.bind (needs_guard fresh_kept _) fun _ =>
    Needs.bind heasy fun _ => Needs.bind hurl fun _ =>
    Needs.bind (needs_guard fresh_kept _) fun _ => Needs.bind hresp fun _ =>
    (needs_guard fresh_kept _).weaken fun _ => fresh_succ) ?_ ?_
  · simp [WriteTransfer.Inits]
  · simp

theorem needs_rvWriteInits (xs : List WriteTransfer) (hcount : i + xs.length = count) :
    Needs (writeScope count) .selectionBody (fresh i initFields) (rvWriteInits i xs)
      (∀ x ∈ xs, x.Inits) True (fresh count initFields) := by
  induction xs generalizing i with
  | nil =>
      cases hcount
      exact needs_pure.congr (iff_of_true trivial fun _ hx => absurd hx List.not_mem_nil) .rfl
  | cons x xs ih =>
      rw [List.length_cons] at hcount
      have hi : i < count := by omega
      have hrest : i + 1 + xs.length = count := by omega
      refine Needs.congr (Needs.bind (needs_rvWriteInit hi x) fun _ => ih hrest) ?_ ?_
      · exact List.forall_mem_cons.symm
      · exact iff_of_true ⟨trivial, fun _ => trivial⟩ trivial

/-- After the first loop the second one has everything before it. -/
theorem left_zero : ∀ n b, left 0 setUpFields false n = some b →
    fresh count initFields n = some b := by
  intro n b hn
  cases n with
  | transfer j field =>
      rw [left] at hn
      split at hn
      · next h =>
          cases hn
          exact if_pos (.inl (h.elim And.right And.right))
      · cases hn
  | _ => exact hn

theorem keeps_finishTransfer {scope : Set IoVariable} (i : Nat) (answer : FinishedTransfer) :
    (finishTransfer false i answer).Moves (Keeps scope .selectionBody) :=
  Effect.moves_bind (keeps_demand _) fun _ =>
  Effect.moves_bind (Effect.moves_pure _) fun _ =>
  Effect.moves_bind (keeps_guard _) fun _ =>
  Effect.moves_bind (keeps_guard _) fun _ =>
  Effect.moves_bind (keeps_dispose _) fun _ =>
  Effect.moves_bind (Effect.moves_bind (keeps_dispose _) fun _ => keeps_dispose _) fun _ =>
  Effect.moves_bind (keeps_dispose _) fun _ => keeps_dispose _

/-- The requests of a write leave nothing behind, whatever is answered. -/
theorem ends_rvCurlMultiPerform (calls : PerformCalls) {F : IoVariable → Option Bool}
    (hF : F .selectionBody = some false) :
    Ends (writeScope count) .selectionBody F (rvCurlMultiPerform false calls) True := by
  have hne : IoVariable.selectionBody ≠ failedHandlesToRetry 0 := nofun
  refine ends_of_keeps hF fun s hs _ => keeps_within ?_ hne _ (Effect.moves_each fun event _ => ?_)
    hs
  · rintro (h | h | h | ⟨_, _, _, _, h⟩) <;> cases h
  · cases event with
    | call succeeds => exact keeps_guard succeeds
    | finished i answer => exact keeps_finishTransfer i answer

/-- Up to the end of a write nothing is lost and no selection is left exactly when the set-ups
fit. -/
theorem ends_rvDatasetWriteBody (w : WriteCall) :
    Ends (writeScope w.transfers.length) .selectionBody (fun _ => some false) (rvDatasetWriteBody w)
      (w.transferInfo = true → (∀ x ∈ w.transfers, x.Inits) → SetUpsFit false w.transfers) := by
  have hscope : ∀ {n : IoVariable}, n = transferInfo ∨ n = curlMultiHandle 0 →
      n ∈ writeScope w.transfers.length := fun h => h.imp_right .inl
  have hinfo : Needs (writeScope w.transfers.length) .selectionBody (fun _ => some false)
      (require transferInfo w.transferInfo) (w.transferInfo = true)
      (w.transferInfo = true ∨ false = false)
      (Function.update (fun _ => some false) transferInfo (some true)) :=
    needs_require (hscope (.inl rfl)) rfl (by decide) rfl _
  have hmulti : Needs (writeScope w.transfers.length) .selectionBody
      (Function.update (fun _ => some false) transferInfo (some true))
      (take (curlMultiHandle 0) w.curlMultiHandle) True (false = false) (fresh 0 initFields) := by
    refine (needs_take (hscope (.inr rfl)) rfl _).weaken fun _ n b hn => ?_
    cases n with
    | transfer j field =>
        rw [fresh] at hn
        split at hn
        · exact hn
        · cases hn
    | selectionBody => exact hn
    | _ => cases hn
  obtain ⟨C, hprepares⟩ := needs_rvWritePrepares (i := 0) false w.transfers (Nat.zero_add _)
  refine Ends.congr (Needs.bind_ends hinfo fun _ => Needs.bind_ends hmulti fun _ =>
    Needs.bind_ends (needs_rvWriteInits w.transfers (Nat.zero_add _)) fun _ =>
    Needs.bind_ends (hprepares.of_known left_zero) fun _ =>
    Needs.bind_ends (needs_guard left_kept _) fun _ => ends_rvCurlMultiPerform w.perform left_kept)
      ?_
  simp

/-- What the end of a write releases. -/
def writeReleases (count : Nat) : List IoVariable :=
  (List.range count).flatMap (fun i => (curlHeaders :: writeFields).map (transfer i)) ++
    ([curlMultiHandle 0] ++ [transferInfo])

theorem mem_writeReleases {n : IoVariable} :
    n ∈ writeReleases count ↔
      (∃ i < count, ∃ field ∈ curlHeaders :: writeFields, n = transfer i field) ∨
      n = curlMultiHandle 0 ∨ n = transferInfo := by
  simp only [writeReleases, List.mem_append, List.mem_flatMap, List.mem_range, List.mem_map,
    List.mem_singleton, eq_comm (a := n)]

theorem nodup_transferFields :
    ((List.range count).flatMap fun i => (curlHeaders :: writeFields).map (transfer i)).Nodup := by
  refine List.nodup_flatMap.mpr ⟨fun i _ => List.Nodup.map ?_ (by decide), ?_⟩
  · exact fun _ _ heq => (IoVariable.transfer.inj heq).2
  · refine List.nodup_range.imp fun hne n hn hn' => hne ?_
    obtain ⟨_, -, rfl⟩ := List.mem_map.mp hn
    obtain ⟨_, -, heq⟩ := List.mem_map.mp hn'
    exact (IoVariable.transfer.inj heq).1.symm

theorem drops_rvDatasetWriteDone (w : WriteCall)
    (hinfo : w.transferInfo = true ∨ w.transfers = []) :
    Drops (writeReleases w.transfers.length) (rvDatasetWriteDone w) := by
  have hitem : ∀ i ∈ List.range w.transfers.length,
    Drops ((curlHeaders :: writeFields).map (transfer i)) (do
      orStuck w.transferInfo
      dispose (transfer i curlHeaders)
      Effect.each (fun field => release (transfer i field)) writeFields) := by
    intro i hi
    have htrue : w.transferInfo = true := hinfo.resolve_right fun hnil => by
      rw [hnil] at hi
      cases hi
    have hfields : Drops (writeFields.flatMap fun field => [transfer i field])
        (Effect.each (fun field => release (transfer i field)) writeFields) :=
      drops_each (fun field _ => drops_release _) (by simp [writeFields])
    rw [htrue]
    exact (drops_dispose (transfer i curlHeaders)).bind hfields (by simp [writeFields])
  have hends : Drops ([curlMultiHandle 0] ++ [transferInfo]) (do
      release (curlMultiHandle 0)
      release transferInfo : IoEffect) := (drops_release _).bind (drops_release _) (by simp)
  refine (drops_each hitem nodup_transferFields).bind hends fun n hn hn' => ?_
  obtain ⟨i, -, hn⟩ := List.mem_flatMap.mp hn
  obtain ⟨field, -, rfl⟩ := List.mem_map.mp hn
  simp at hn'

/-- A write leaves nothing behind exactly under its condition. -/
theorem settled_write_iff (w : WriteCall) : (IoCall.write w).after.Settled ↔ w.Fits := by
  have hbody := ends_rvDatasetWriteBody w .empty sound_empty fun n b hb => Option.some.inj hb
  by_cases hinfo : w.transferInfo = true ∨ w.transfers = []
  · obtain ⟨s, hs, hdropped⟩ := drops_rvDatasetWriteDone w hinfo _ _ _ ∅ hbody.1
      (dropped_refl hbody.1) fun _ _ => Set.notMem_empty _
    have hafter : (IoCall.write w).after = s := congrArg Prod.snd hs
    rw [hafter, settled_iff hbody.1 hdropped, hbody.2, and_iff_right clean_empty, WriteCall.Fits,
      and_iff_right hinfo]
    · rintro (hn | hn)
      · cases hn
      · rcases mem_writeReleases.mp hn with ⟨_, _, _, _, hn⟩ | hn | hn <;> cases hn
    · rintro n (rfl | rfl | rfl | hn)
      · exact .inl (.inr (mem_writeReleases.mpr (.inr (.inr rfl))))
      · exact .inl (.inr (mem_writeReleases.mpr (.inr (.inl rfl))))
      · exact .inr rfl
      · exact .inl (.inr (mem_writeReleases.mpr (.inl hn)))
  · refine iff_of_false ?_ fun h => hinfo h.1
    obtain ⟨hinfo, hsome⟩ := not_or.mp hinfo
    obtain ⟨k, hk⟩ := Nat.exists_eq_succ_of_ne_zero (mt List.eq_nil_of_length_eq_zero hsome)
    -- the array is read although it is not there
    have hstuck : ∀ s, (rvDatasetWriteDone w s).2.stuck = true := by
      intro s
      rw [rvDatasetWriteDone, Bool.eq_false_of_not_eq_true hinfo, hk, List.range_succ_eq_map]
      rfl
    exact not_settled_of_stuck (hstuck _)

end Writing

/-- Whether a call releases everything: never for a read. -/
def IoCall.Fits : IoCall → Prop
  | .read _ => False
  | .write call => call.Fits

/-- A read of one dataset from one server, where every call succeeds. -/
def plainRead : ReadCall where
  serverNum := some 1
  endpoint := some [true]
  urlStringCopy := true
  nodeSize := true
  selectNode := true
  transferInfo := true
  curlMultiHandle _ := true
  count := 1
  transfer _ := {
    buf := true, curlEasyHandle := true, nodeSize := true, requestUrl := true, options := true
    checked := true, fileAll := true, selected := true, points := false, binary := true
    converted := true, npoints := true, hostHeaders := true, hostHeader := true
    expectHeader := true, acceptHeader := true
    split := {
      offset := true, offsetData := true, count := true, countData := true, inputCopy := true
      parseCopy := true, parses := true, splits := true, tmp := fun _ => true
      selectNodeEntry := fun _ => true }
    respBuffer := true, url := true, selectionRoom := true, posted := true, contentType := true
    requestOptions := true, added := true }
  thread _ := ⟨true, true, ⟨true, []⟩⟩
  perform := ⟨true, [.finished 0 ⟨none, true, true⟩]⟩

end XHDF5.Client.Transfers
