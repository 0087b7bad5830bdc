/-
# Uploads and their repetition

curl fetches the body of a write piece by piece through `H5_rest_curl_read_data_callback`, which
moves the position in the transfer's own `upload_info`. When a request is denied, the event loop
sets that position back. The calls for the transfers of one `RV_dataset_write` and the messages of
the event loop come in any order.
-/

import XHDF5.Client.MultiPerform
import XHDF5.Math.Pieces

namespace XHDF5.Client.Upload

open XHDF5.Math

/-- An `upload_info`, with the bytes that `buffer` points to. -/
structure UploadInfo where
  buffer : List UInt8
  bufferSize : Nat
  bytesSent : Nat
deriving DecidableEq

/-- `H5_rest_curl_read_data_callback`: what becomes of the position, and what is copied into
curl's buffer of `size * nmemb` bytes. A copy past the end of a buffer has no result. -/
def h5RestCurlReadDataCallback (size nmemb : Nat) :
    Option UploadInfo → Option (Option UploadInfo × List UInt8)
  | none => some (none, [])
  | some uinfo =>
      let maxBufSize := wrap64 (size * nmemb)
      if uinfo.bufferSize ≤ uinfo.bytesSent then some (some uinfo, [])
      else
        let bytesLeft := uinfo.bufferSize - uinfo.bytesSent
        let dataSize := if maxBufSize < bytesLeft then maxBufSize else bytesLeft
        if uinfo.bytesSent + dataSize ≤ uinfo.buffer.length ∧ dataSize ≤ size * nmemb then
          some (some { uinfo with bytesSent := uinfo.bytesSent + dataSize },
            (uinfo.buffer.drop uinfo.bytesSent).take dataSize)
        else none

/-- A buffer that curl offers: an object in memory that is not empty. -/
structure Offer where
  size : Nat
  nmemb : Nat
  pos : 0 < size * nmemb
  fits : size * nmemb < 2 ^ 64

/-- What a transfer uploads: `buffer_size` bytes from a buffer that holds as many. -/
structure Body where
  buffer : List UInt8
  bufferSize : Nat
  within : bufferSize ≤ buffer.length

/-- The bytes of a body. -/
def Body.bytes (body : Body) : List UInt8 := body.buffer.take body.bufferSize

/-- The transfers of a write, as `RV_dataset_write` sets them up. -/
structure Writes extends Transfers where
  bodies : List Body
  length_eq : bodies.length = transferInfo.length
  started : ∀ info ∈ transferInfo, info.transferType = .write ∧ info.bytesSent = 0

/-- The event loop, until it is left, and the pieces that each transfer has handed out: in the
attempt that is under way, and in those that were denied. -/
structure Uploads where
  loop : Option MultiState
  current : Nat → List (Piece UInt8)
  denied : Nat → List (List (Piece UInt8))

/-- What happens: curl wants more of a transfer's body, or a message is read, or slots are
scanned. -/
inductive UploadEvent
  | offered (i : Nat) (offer : Offer)
  | message (message : Completion)
  | scan (currTime : Nat)

section

variable (randomize : Nat → Nat → Nat) (writes : Writes)

/-- The state before the loop. -/
def Writes.begin : Uploads where
  loop := some writes.toTransfers.start
  current _ := []
  denied _ := []

/-- A transfer's entry after a call of the callback, with the piece. -/
def readMore (i : Nat) (offer : Offer) (s : MultiState) : Option (MultiState × Piece UInt8) :=
  (s.transferInfo[i]?).bind fun info => (writes.bodies[i]?).bind fun body =>
    match h5RestCurlReadDataCallback offer.size offer.nmemb
        (some ⟨body.buffer, body.bufferSize, info.bytesSent⟩) with
    | some (some uinfo, copied) =>
        some ({ s with
            transferInfo := s.transferInfo.set i { info with bytesSent := uinfo.bytesSent } },
          ⟨offer.size * offer.nmemb, copied⟩)
    | _ => none

/-- One event. -/
def uploadStep (u : Uploads) (e : UploadEvent) : Option Uploads :=
  match u.loop with
  | none => some u
  | some s =>
      match e with
      | .offered i offer =>
          (readMore writes i offer s).map fun read =>
            { u with
              loop := some read.1
              current := Function.update u.current i (u.current i ++ [read.2]) }
      | .message message =>
          match handleMessage randomize message s with
          | .undefined => none
          | .fail => some { u with loop := none }
          | .ok s' =>
              if message.responseCode = 503 then
                let i := rvGetIndexOfMatchingHandle s.transferInfo s.failedHandlesToRetry.length
                  message.handle
                some { loop := some s'
                       current := Function.update u.current i []
                       denied := Function.update u.denied i (u.current i :: u.denied i) }
              else some { u with loop := some s' }
      | .scan currTime => some { u with loop := some (retryScan currTime s) }

/-- curl's contract: both the callback and the messages are for handles that have not been cleaned
up. -/
def Alive (u : Uploads) : UploadEvent → Prop
  | .offered i _ => ∀ s ∈ u.loop, ((s.transferInfo[i]?).bind (·.curlEasyHandle)).isSome
  | .message message => ∀ s ∈ u.loop, ∃ info ∈ s.transferInfo, info.curlEasyHandle =
    some message.handle
  | .scan _ => True

instance (u : Uploads) : ∀ e, Decidable (Alive u e)
  | .offered _ _ | .message _ => inferInstanceAs (Decidable (∀ s ∈ u.loop, _))
  | .scan _ => isTrue trivial

/-- An attempt hands out a body from its first byte on; and all of it, once curl had room for it
or was told that there is no more. -/
structure EmitsOnce (bytes : List UInt8) (attempt : List (Piece UInt8)) : Prop
    extends HandsOut bytes attempt where
  complete : bytes.length ≤ (attempt.map Piece.offered).sum ∨
    (∃ piece ∈ attempt, piece.copied = []) → handed attempt = bytes

/-- Every attempt does, those that were denied and the one after them. -/
def EmitsBodies (u : Uploads) : Prop :=
  ∀ (i : Nat) (body : Body), writes.bodies[i]? = some body →
    EmitsOnce body.bytes (u.current i) ∧ ∀ attempt ∈ u.denied i, EmitsOnce body.bytes attempt

end

/-! ## The callback -/

/-- A call hands out what is left, as far as the offered buffer has room, and moves on by
as much. -/
theorem h5RestCurlReadDataCallback_eq (offer : Offer) (body : Body) {sent : Nat}
    (hsent : sent ≤ body.bufferSize) :
    h5RestCurlReadDataCallback offer.size offer.nmemb (some ⟨body.buffer, body.bufferSize, sent⟩) =
      some (some ⟨body.buffer, body.bufferSize,
          sent + ((body.bytes.drop sent).take (offer.size * offer.nmemb)).length⟩,
        (body.bytes.drop sent).take (offer.size * offer.nmemb)) := by
  have hwithin := body.within
  have hbytes : body.bytes.drop sent = (body.buffer.drop sent).take (body.bufferSize - sent) :=
    List.drop_take
  have hmin : (if offer.size * offer.nmemb < body.bufferSize - sent then offer.size * offer.nmemb
      else body.bufferSize - sent) = min (offer.size * offer.nmemb) (body.bufferSize - sent) := by
    split <;> omega
  have hlength : ((body.bytes.drop sent).take (offer.size * offer.nmemb)).length =
      min (offer.size * offer.nmemb) (body.bufferSize - sent) := by
    rw [hbytes, List.take_take, List.length_take, List.length_drop]
    omega
  rw [hlength, h5RestCurlReadDataCallback]
  simp only [wrap64_of_lt offer.fits]
  by_cases hend : body.bufferSize ≤ sent
  · have hzero : body.bufferSize - sent = 0 := by omega
    rw [if_pos hend, hbytes, hzero, List.take_zero, List.take_nil, Nat.min_zero, Nat.add_zero]
  · rw [if_neg hend, hmin, if_pos (by omega), hbytes, List.take_take]

/-! ## Messages -/

section

variable {randomize : Nat → Nat → Nat} {writes : Writes} {s : MultiState} {i : Nat}
  {info : TransferInfo} {message : Completion}

/-- What becomes of a message: the loop is left, the entry is denied or finished, or nothing
happens. -/
theorem handleMessage_cases (hdistinct : DistinctHandles s.transferInfo)
    (hinfo : s.transferInfo[i]? = some info) (hhandle : info.curlEasyHandle = some message.handle)
    (hslot : i < s.failedHandlesToRetry.length) :
    handleMessage randomize message s = .fail ∨
      (message.responseCode = 503 ∧ handleMessage randomize message s = .ok { s with
        transferInfo :=
          s.transferInfo.set i (denyInfo randomize message.now message.randomFactor info)
        failedHandlesToRetry := s.failedHandlesToRetry.set i (some message.handle) }) ∨
      (message.responseCode ≠ 503 ∧ ∃ callbacks, handleMessage randomize message s = .ok { s with
        transferInfo := s.transferInfo.set i { info with curlEasyHandle := none }
        callbacks }) ∨
      (message.responseCode ≠ 503 ∧ handleMessage randomize message s = .ok s) := by
  unfold handleMessage
  by_cases hdenied : message.responseCode = 503
  · rw [if_pos hdenied, denyHandle_eq hdistinct hinfo hhandle, if_pos hslot]
    simp only
    split
    · exact .inl rfl
    · exact .inr (.inl ⟨hdenied, rfl⟩)
  · rw [if_neg hdenied]
    by_cases hfinished : message.responseCode = 200
    · rw [if_pos hfinished, rvGetIndexOfMatchingHandle_eq hdistinct hinfo hhandle, if_pos hslot]
      simp only [hinfo]
      split
      · exact .inr (.inr (.inl ⟨hdenied, _, rfl⟩))
      · exact .inl rfl
    · rw [if_neg hfinished, handleResponse]
      split
      · exact .inr (.inr (.inr ⟨hdenied, rfl⟩))
      · exact .inl rfl

/-! ## What every event keeps -/

/-- The positions of the transfers are where their current attempts have got to. -/
structure Positioned (writes : Writes) (u : Uploads) (s : MultiState) : Prop where
  length : s.transferInfo.length = writes.bodies.length
  slots : s.failedHandlesToRetry.length = s.transferInfo.length
  distinct : DistinctHandles s.transferInfo
  writing : ∀ info ∈ s.transferInfo, info.transferType = .write
  sent : ∀ (i : Nat) (info : TransferInfo), s.transferInfo[i]? = some info →
    info.bytesSent = (handed (u.current i)).length

/-- The invariant: until the loop is left, the positions are right; and so is what was
handed out. -/
structure Uploading (writes : Writes) (u : Uploads) : Prop where
  positioned : ∀ s, u.loop = some s → Positioned writes u s
  emits : ∀ (i : Nat) (body : Body), writes.bodies[i]? = some body →
    HandsOut body.bytes (u.current i) ∧ ∀ attempt ∈ u.denied i, HandsOut body.bytes attempt

/-- Another entry at one place, and the current attempts as before at the others. -/
theorem Positioned.set {u u' : Uploads} {s' : MultiState} {other : TransferInfo}
    (h : Positioned writes u s) (hinfo : s.transferInfo[i]? = some info)
    (hset : s'.transferInfo = s.transferInfo.set i other)
    (hslots : s'.failedHandlesToRetry.length = s.failedHandlesToRetry.length)
    (hhandle : ∀ handle, other.curlEasyHandle = some handle → info.curlEasyHandle = some handle)
    (htype : other.transferType = info.transferType)
    (hsent : other.bytesSent = (handed (u'.current i)).length)
    (hcurrent : ∀ j, j ≠ i → u'.current j = u.current j) : Positioned writes u' s' where
  length := by rw [hset, List.length_set, h.length]
  slots := by rw [hset, List.length_set, hslots, h.slots]
  distinct := hset ▸ h.distinct.set hinfo hhandle
  writing info' hinfo' := by
    rw [hset] at hinfo'
    rcases List.mem_or_eq_of_mem_set hinfo' with hmem | rfl
    · exact h.writing info' hmem
    · rw [htype]
      exact h.writing info (List.mem_of_getElem? hinfo)
  sent j info' hinfo' := by
    rw [hset, List.getElem?_set] at hinfo'
    split at hinfo'
    · next hij =>
        subst hij
        split at hinfo'
        · cases hinfo'
          exact hsent
        · cases hinfo'
    · next hij =>
        rw [hcurrent j fun hji => hij hji.symm]
        exact h.sent j info' hinfo'

/-- What is handed out of a body is no longer than the body. -/
theorem length_handed_le {body : Body} {pieces : List (Piece UInt8)}
    (h : HandsOut body.bytes pieces) : (handed pieces).length ≤ body.bufferSize := by
  have hwithin := body.within
  rw [h.handed_eq, Body.bytes, List.take_take, List.length_take]
  omega

/-- A call of the callback hands out one more piece. -/
theorem readMore_uploading {u : Uploads} (h : Uploading writes u) (hloop : u.loop = some s)
    (hinfo : s.transferInfo[i]? = some info) (offer : Offer) :
    ∃ read, readMore writes i offer s = some read ∧
      Uploading writes { u with
        loop := some read.1
        current := Function.update u.current i (u.current i ++ [read.2]) } := by
  have hpositioned := h.positioned s hloop
  have hi : i < writes.bodies.length := by
    rw [← hpositioned.length]
    exact (List.getElem?_eq_some_iff.mp hinfo).1
  have hbody : writes.bodies[i]? = some writes.bodies[i] := List.getElem?_eq_getElem hi
  obtain ⟨hhands, hdenied⟩ := h.emits i _ hbody
  have hsent := hpositioned.sent i info hinfo
  have hread := h5RestCurlReadDataCallback_eq offer writes.bodies[i]
    (hsent ▸ length_handed_le hhands)
  refine ⟨_, by rw [readMore, hinfo, Option.bind_some, hbody, Option.bind_some, hread], ?_, ?_⟩
  · rintro s' hs'
    cases hs'
    refine hpositioned.set hinfo rfl rfl (fun _ h => h) rfl ?_ fun j hj =>
      Function.update_of_ne hj ..
    change _ = (handed (Function.update u.current i _ i)).length
    rw [Function.update_self, handed_append, handed_singleton, List.length_append, hsent]
  · intro j body' hbody'
    refine ⟨?_, (h.emits j body' hbody').2⟩
    change HandsOut body'.bytes (Function.update u.current i _ j)
    by_cases hji : j = i
    · subst hji
      rw [hbody] at hbody'
      cases hbody'
      rw [Function.update_self, hsent]
      exact hhands.snoc offer.pos
    · rw [Function.update_of_ne hji]
      exact (h.emits j body' hbody').1

/-- Every event has a result and keeps the invariant. -/
theorem uploadStep_uploading {u : Uploads} (h : Uploading writes u) {e : UploadEvent}
    (halive : Alive u e) :
    ∃ u', uploadStep randomize writes u e = some u' ∧ Uploading writes u' := by
  unfold uploadStep
  cases hloop : u.loop with
  | none => exact ⟨u, rfl, h⟩
  | some s =>
      have hpositioned := h.positioned s hloop
      cases e with
      | offered i offer =>
          obtain ⟨handle, hhandle⟩ := Option.isSome_iff_exists.mp (halive s hloop)
          obtain ⟨info, hinfo, -⟩ := Option.bind_eq_some_iff.mp hhandle
          obtain ⟨read, hread, hnext⟩ := readMore_uploading h hloop hinfo offer
          exact ⟨_, by simp only [hread, Option.map_some], hnext⟩
      | message message =>
          obtain ⟨info, hmem, hhandle⟩ := halive s hloop
          obtain ⟨i, hinfo⟩ := List.mem_iff_getElem?.mp hmem
          have hslot : i < s.failedHandlesToRetry.length := by
            rw [hpositioned.slots]
            exact (List.getElem?_eq_some_iff.mp hinfo).1
          rcases @handleMessage_cases randomize s i info message hpositioned.distinct hinfo hhandle
              hslot with
            hleft | ⟨hdenied, hnext⟩ | ⟨hnot, callbacks, hnext⟩ | ⟨hnot, hnext⟩
          · simp only [hleft]
            exact ⟨_, rfl, ⟨fun s' hs' => (by cases hs'), h.emits⟩⟩
          · simp only [hnext, if_pos hdenied,
              rvGetIndexOfMatchingHandle_eq hpositioned.distinct hinfo hhandle, if_pos hslot]
            refine ⟨_, rfl, ?_, ?_⟩
            · rintro s' hs'
              cases hs'
              refine hpositioned.set hinfo rfl (List.length_set ..) (fun _ h => h) rfl ?_
                fun j hj => Function.update_of_ne hj ..
              have htype := hpositioned.writing info (List.mem_of_getElem? hinfo)
              change (if info.transferType = .write then 0 else info.bytesSent) =
                (handed (Function.update u.current i [] i)).length
              rw [if_pos htype, Function.update_self]
              rfl
            · intro j body hbody
              obtain ⟨hcurrent, hattempts⟩ := h.emits j body hbody
              change HandsOut body.bytes (Function.update u.current i [] j) ∧
                ∀ attempt ∈ Function.update u.denied i (u.current i :: u.denied i) j,
                  HandsOut body.bytes attempt
              by_cases hji : j = i
              · subst hji
                rw [Function.update_self, Function.update_self]
                exact ⟨.nil _, List.forall_mem_cons.mpr ⟨hcurrent, hattempts⟩⟩
              · rw [Function.update_of_ne hji, Function.update_of_ne hji]
                exact ⟨hcurrent, hattempts⟩
          · simp only [hnext, if_neg hnot]
            refine ⟨_, rfl, ?_, h.emits⟩
            rintro s' hs'
            cases hs'
            exact hpositioned.set hinfo rfl rfl (fun _ h => by cases h) rfl
              (hpositioned.sent i info hinfo) fun _ _ => rfl
          · simp only [hnext, if_neg hnot]
            refine ⟨_, rfl, ?_, h.emits⟩
            rintro s' hs'
            cases hs'
            exact { hpositioned with }
      | scan currTime =>
          refine ⟨_, rfl, ?_, h.emits⟩
          rintro s' hs'
          cases hs'
          refine { hpositioned with slots := ?_ }
          change (slotsAfterScan currTime s.transferInfo s.failedHandlesToRetry).length = _
          rw [length_slotsAfterScan (Nat.le_of_eq hpositioned.slots), hpositioned.slots]
          rfl

theorem begin_uploading (writes : Writes) : Uploading writes writes.begin where
  positioned s hs := by
    cases hs
    refine ⟨writes.length_eq.symm, List.length_replicate, ?_, fun info hinfo =>
      (writes.started info hinfo).1, fun i info hinfo => ?_⟩
    · intro i j a b handle ha hb hhandle hhandle'
      have hown (k : Nat) (info : TransferInfo) (hinfo : writes.transferInfo[k]? = some info)
          (hk : info.curlEasyHandle = some handle) : writes.handles[k]? = some handle := by
        have hentry : (writes.transferInfo.map (·.curlEasyHandle))[k]? = some (some handle) := by
          rw [List.getElem?_map, hinfo, Option.map_some, hk]
        rw [writes.handle_eq, List.getElem?_map] at hentry
        obtain ⟨other, hother, heq⟩ := Option.map_eq_some_iff.mp hentry
        rw [hother, Option.some.inj heq]
      exact Transfers.eq_of_handle (hown i a ha hhandle) (hown j b hb hhandle')
    · exact (writes.started info (List.mem_of_getElem? hinfo)).2
  emits _ body _ := ⟨.nil _, fun _ h => by cases h⟩

theorem emitsOnce {bytes : List UInt8} {attempt : List (Piece UInt8)} (h : HandsOut bytes attempt) :
    EmitsOnce bytes attempt where
  toHandsOut := h
  complete
    | .inl hroom => h.complete hroom
    | .inr ⟨_, hmem, hempty⟩ => h.complete_of_empty hmem hempty

theorem Uploading.emitsBodies {u : Uploads} (h : Uploading writes u) : EmitsBodies writes u :=
  fun i body hbody =>
    ⟨emitsOnce (h.emits i body hbody).1, fun attempt hattempt =>
      emitsOnce ((h.emits i body hbody).2 attempt hattempt)⟩

/-- In every order of calls and messages each call has a result, and every attempt at a transfer
uploads its body once. -/
theorem uploads_emit {es : List UploadEvent}
    (halive : Along (uploadStep randomize writes) Alive es writes.begin) :
    Along (uploadStep randomize writes) (fun u e => uploadStep randomize writes u e ≠ none) es
        writes.begin ∧
      Throughout (uploadStep randomize writes) (EmitsBodies writes) es writes.begin := by
  have hkeeps (u : Uploads) (e : UploadEvent) (u' : Uploads) (h : Uploading writes u)
      (he : Alive u e) (hnext : uploadStep randomize writes u e = some u') :
        Uploading writes u' := by
    obtain ⟨other, hother, hnext'⟩ := @uploadStep_uploading randomize writes u h e he
    rw [hnext] at hother
    exact Option.some.inj hother ▸ hnext'
  have hdefined (u : Uploads) (e : UploadEvent) (h : Uploading writes u) (he : Alive u e) :
      uploadStep randomize writes u e ≠ none := by
    obtain ⟨other, hother, -⟩ := @uploadStep_uploading randomize writes u h e he
    rw [hother]
    exact Option.some_ne_none other
  have hstart := begin_uploading writes
  have hfree : Along (uploadStep randomize writes) (fun _ _ => True) es writes.begin :=
    along_of_forall (fun _ _ => trivial) es writes.begin
  exact ⟨along_of_along (fun u e h he _ => hdefined u e h he)
    (fun u e u' h he _ => hkeeps u e u' h he)
      hstart halive hfree,
    (throughout_of_along (fun u e u' h he _ => hkeeps u e u' h he) hstart halive hfree).imp
      fun _ h => h.emitsBodies⟩

end

/-! ## A denied upload -/

/-- One transfer of three bytes. -/
def threeBytes : Writes where
  transferInfo := [⟨.write, some 7, ⟨0, 0, 1024⟩, 0, 0, 0⟩]
  handles := [7]
  handle_eq := rfl
  nodup := List.nodup_singleton 7
  bodies := [⟨[1, 2, 3], 3, Nat.le_refl 3⟩]
  length_eq := rfl
  started info h := by
    rw [List.mem_singleton.mp h]
    exact ⟨rfl, rfl⟩

/-- Two bytes are uploaded, the request is denied, and the body is uploaded again. -/
def deniedOnce : List UploadEvent :=
  [.offered 0 ⟨1, 2, by decide, by decide⟩, .message ⟨7, 503, 0, 0, 0, true⟩, .scan 20000000,
    .offered 0 ⟨1, 2, by decide, by decide⟩, .offered 0 ⟨1, 2, by decide, by decide⟩,
    .offered 0 ⟨1, 2, by decide, by decide⟩, .message ⟨7, 200, 0, 0, 0, true⟩]

/-- The attempt that was denied and the one after it. -/
theorem uploads_emit_deniedOnce :
    Along (uploadStep (fun backoff _ => backoff) threeBytes)
        (fun u e => uploadStep (fun backoff _ => backoff) threeBytes u e ≠ none) deniedOnce
        threeBytes.begin ∧
      Throughout (uploadStep (fun backoff _ => backoff) threeBytes)
        (EmitsBodies threeBytes) deniedOnce
        threeBytes.begin :=
  uploads_emit (by decide)

/-- What is handed out in the two attempts. -/
example :
    (deniedOnce.foldlM (uploadStep (fun backoff _ => backoff) threeBytes) threeBytes.begin).map
    (fun u => ((u.denied 0).map handed, handed (u.current 0))) = some ([[1, 2]], [1, 2, 3]) := by
  decide

end XHDF5.Client.Upload
