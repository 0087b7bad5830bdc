/-
# What a dataset read or write acquires and releases

`RV_dataset_read` and `RV_dataset_write` work on an array of transfers, one for each dataset and,
when reading, each server. The handles, buffers and strings of a transfer stand in its fields. An
error anywhere goes to the end of the function, which releases the fields again.

The calls of other code are known by their results: whether what is asked for is granted, and
whether a check or a request succeeds. A call of the two functions is the list of these results.
-/

import XHDF5.Math.Holdings

namespace XHDF5.Client.Transfers

open XHDF5.Math Holdings

/-- The fields of `dataset_transfer_info` that hold something. -/
inductive TransferField
  | curlEasyHandle
  | nodeSize
  | requestUrl
  | respBuffer
  | selectionBody
  | curlHeaders
  | hostHeaders
  | writeBody
  | base64EncodedValues
  | tconvBuf
  | bkgBuf
  deriving DecidableEq

/-- The variables of the two functions that hold something. -/
inductive IoVariable
  | urlStringCopy
  | urlsByMyself (j : Nat)
  | nodeSize
  | selectNode
  | selectNodeEntry (j : Nat)
  | transferInfo
  | curlMultiHandle (j : Nat)
  | selectionBody
  | offset
  | offsetData
  | count
  | countData
  | inputCopy
  | parseCopy
  | tmp
  | params (j : Nat)
  | failedHandlesToRetry (j : Nat)
  | transfer (i : Nat) (field : TransferField)
  deriving DecidableEq

open IoVariable TransferField

/-- The code of the two functions. -/
abbrev IoEffect := Math.Effect (Holdings IoVariable) Unit

/-! ## Requests -/

/-- An answer with status 200: whether it was compressed, and if so whether there is room for the
decompressed answer, and whether the callback and the removal of the handle succeed. -/
structure FinishedTransfer where
  decompressed : Option Bool
  processed : Bool
  removed : Bool

/-- What happens while requests are performed: a call or an answer other than 200, which ends the
function or does not, or an answer 200 for a transfer. -/
inductive PerformEvent
  | call (succeeds : Bool)
  | finished (index : Nat) (answer : FinishedTransfer)

/-- The results of the calls of `RV_curl_multi_perform`. -/
structure PerformCalls where
  failedHandlesToRetry : Bool
  events : List PerformEvent

/-- The decompressed answer takes the place of the one that was received. -/
def decompress (i : Nat) : Option Bool → IoEffect
  | none => pure ⟨⟩
  | some granted => take (transfer i respBuffer) granted

/-- A finished transfer is looked up by its handle, and most of what it holds is released. The
answers to a write have no encoding, since no header callback is set for them. -/
def finishTransfer (reading : Bool) (i : Nat) (answer : FinishedTransfer) : IoEffect := do
  demand (transfer i curlEasyHandle)
  onlyIf reading (decompress i answer.decompressed)
  Effect.guard answer.processed
  Effect.guard answer.removed
  dispose (transfer i curlEasyHandle)
  onlyIf (!reading) do
    dispose (transfer i writeBody)
    dispose (transfer i base64EncodedValues)
  dispose (transfer i requestUrl)
  dispose (transfer i respBuffer)

/-- `RV_curl_multi_perform`. -/
def rvCurlMultiPerform (reading : Bool) (calls : PerformCalls) : IoEffect :=
  endingWith (do
    require (failedHandlesToRetry 0) calls.failedHandlesToRetry
    Effect.each (fun event : PerformEvent => match event with
      | .call succeeds => Effect.guard succeeds
      | .finished i answer => finishTransfer reading i answer) calls.events)
  (dispose (failedHandlesToRetry 0))

/-- `RV_curl_multi_perform_multithreading`, which leaves the handle of a finished transfer in its
field. -/
def rvCurlMultiPerformMultithreading (j : Nat) (calls : PerformCalls) : IoEffect :=
  endingWith (do
    require (failedHandlesToRetry j) calls.failedHandlesToRetry
    Effect.each (fun event : PerformEvent => match event with
      | .call succeeds => Effect.guard succeeds
      | .finished i answer => do
          Effect.guard answer.removed
          release (transfer i curlEasyHandle)) calls.events)
  (do
    dispose (failedHandlesToRetry j)
    dispose (params j))

/-! ## Reading -/

/-- The results of the calls that divide a selection among the servers: `splits` when a dimension
has at least as many elements as there are servers, `parses` when the text can be taken apart. -/
structure SplitCalls where
  offset : Bool
  offsetData : Bool
  count : Bool
  countData : Bool
  inputCopy : Bool
  parseCopy : Bool
  parses : Bool
  splits : Bool
  tmp : Nat → Bool
  selectNodeEntry : Nat → Bool

/-- The results of the calls for one transfer of a read. The first checks of the second loop are one
result, as are options that are set one after the other. -/
structure ReadTransfer where
  buf : Bool
  curlEasyHandle : Bool
  nodeSize : Bool
  requestUrl : Bool
  options : Bool
  checked : Bool
  fileAll : Bool
  selected : Bool
  points : Bool
  binary : Bool
  converted : Bool
  npoints : Bool
  hostHeaders : Bool
  hostHeader : Bool
  expectHeader : Bool
  acceptHeader : Bool
  split : SplitCalls
  respBuffer : Bool
  url : Bool
  selectionRoom : Bool
  posted : Bool
  contentType : Bool
  requestOptions : Bool
  added : Bool

namespace ReadTransfer

variable (x : ReadTransfer)

/-- The transfer has a list of points in its selection. -/
def isPoints : Bool := !x.fileAll && x.points

/-- The selection stands in the URL. -/
def asks : Bool := x.binary && !x.fileAll && !x.points

end ReadTransfer

/-- The results of the calls for one of the threads. -/
structure ThreadCalls where
  params : Bool
  queued : Bool
  perform : PerformCalls

/-- A call of `RV_dataset_read`: the environment, the number of datasets, and the results of the
calls. For each URL of the endpoint it is known whether the copy of it is granted. -/
structure ReadCall where
  serverNum : Option Int
  endpoint : Option (List Bool)
  urlStringCopy : Bool
  nodeSize : Bool
  selectNode : Bool
  transferInfo : Bool
  curlMultiHandle : Nat → Bool
  count : Nat
  transfer : Nat → ReadTransfer
  thread : Nat → ThreadCalls
  perform : PerformCalls

namespace ReadCall

variable (r : ReadCall)

def serverNodeNum : Nat := (r.serverNum.getD 0).toNat

/-- There are from one to ten servers, and an endpoint. -/
def configured : Bool :=
  match r.serverNum, r.endpoint with
  | some num, some _ => decide (0 < num) && decide (num ≤ 10)
  | _, _ => false

/-- The URLs that are copied. -/
def urls : List Bool := (r.endpoint.getD []).take r.serverNodeNum

def transfers : List Nat := List.range (r.count * r.serverNodeNum)

def servers : List Nat := List.range r.serverNodeNum

/-- `flag_Node` at a transfer: a selection was divided there or before. -/
def flagNode (i : Nat) : Bool :=
  (List.range (i + 1)).any fun k =>
    decide (k % r.serverNodeNum = 0) && !(r.transfer k).fileAll && (r.transfer k).split.splits

end ReadCall

/-- The URLs of the servers are copied. What the end of the function releases is not set yet when
that goes wrong. -/
def copyUrls : Nat → List Bool → IoEffect
  | _, [] => pure ⟨⟩
  | j, granted :: urls => do
      take (urlsByMyself j) granted
      orStuck granted
      copyUrls (j + 1) urls

/-- The first loop of `RV_dataset_read` for one transfer. -/
def rvReadInit (i : Nat) (x : ReadTransfer) : IoEffect := do
  Effect.guard x.buf
  take (transfer i .curlEasyHandle) x.curlEasyHandle
  take (transfer i .nodeSize) x.nodeSize
  require (transfer i .requestUrl) x.requestUrl
  Effect.guard (x.curlEasyHandle && x.options)

/-- The part of `splitRangeAndGetInfo` for one server. -/
def splitRange (x : SplitCalls) (j : Nat) : IoEffect := do
  take tmp (x.tmp j)
  orStuck (x.tmp j)
  take (selectNodeEntry j) (x.selectNodeEntry j)
  dispose tmp

/-- A selection is divided among the servers, also when only an earlier one could be. -/
def splitSelection (r : ReadCall) (flag : Bool) (x : SplitCalls) : IoEffect := do
  take offset x.offset
  take count x.count
  Effect.guard x.offset
  take inputCopy x.inputCopy
  orStuck (x.inputCopy && x.parses)
  take parseCopy x.parseCopy
  orStuck (x.parseCopy && x.count)
  take offsetData x.offsetData
  take countData x.countData
  dispose parseCopy
  onlyIf flag do
    orStuck (x.splits && r.selectNode)
    Effect.each (splitRange x) r.servers
  dispose countData
  dispose count
  dispose offsetData
  dispose offset

/-- The list of points is wrapped in braces and posted, or the values are asked for. -/
def rvReadRequest (i : Nat) (x : ReadTransfer) : IoEffect :=
  if x.isPoints then do
    extend (transfer i .selectionBody) x.selectionRoom
    Effect.guard x.selectionRoom
    Effect.guard x.posted
    extend (transfer i .curlHeaders) x.contentType
  else Effect.guard x.posted

/-- Only the first transfer of a dataset has a buffer of its own; the others point into a buffer
of the first dataset. -/
def rvReadBuffer (r : ReadCall) (i : Nat) (x : ReadTransfer) : IoEffect :=
  if i % r.serverNodeNum = 0 then require (transfer i .respBuffer) x.respBuffer
  else
    Effect.update (share (transfer i .respBuffer)
      (transfer (i % r.serverNodeNum - 1) .respBuffer))

/-- The second loop of `RV_dataset_read` for one transfer. -/
def rvReadPrepare (r : ReadCall) (i : Nat) (x : ReadTransfer) : IoEffect := do
  Effect.guard x.checked
  onlyIf (!x.fileAll) do
    Effect.guard x.selected
    require (transfer i .selectionBody) x.converted
  Effect.guard x.npoints
  require (transfer i .hostHeaders) x.hostHeaders
  extend (transfer i .curlHeaders) x.hostHeader
  extend (transfer i .curlHeaders) x.expectHeader
  extend (transfer i .curlHeaders) x.acceptHeader
  onlyIf (decide (i % r.serverNodeNum = 0) && !x.fileAll)
    (splitSelection r (r.flagNode i) x.split)
  orStuck (decide (r.serverNodeNum = 1) || decide (i < r.urls.length))
  rvReadBuffer r i x
  orStuck (!(decide (1 < r.serverNodeNum) && x.asks) || r.flagNode i)
  Effect.guard x.url
  rvReadRequest i x
  Effect.guard x.requestOptions
  Effect.guard (r.curlMultiHandle (i % r.serverNodeNum) && x.added)

/-- Everything before the requests. -/
def rvReadSetUp (r : ReadCall) : IoEffect := do
  copyUrls 0 r.urls
  take nodeSize r.nodeSize
  orStuck r.nodeSize
  take selectNode r.selectNode
  require transferInfo r.transferInfo
  Effect.each (fun j => take (curlMultiHandle j) (r.curlMultiHandle j)) r.servers
  Effect.each (fun i => rvReadInit i (r.transfer i)) r.transfers
  Effect.each (fun i => rvReadPrepare r i (r.transfer i)) r.transfers

/-- After the threads have come to their ends: what a transfer still holds. -/
def mergeTransfer (r : ReadCall) (i : Nat) : IoEffect := do
  Effect.update (clear (transfer i .curlEasyHandle))
  dispose (transfer i .requestUrl)
  onlyIf (decide (i % r.serverNodeNum = 0)) (dispose (transfer i .respBuffer))

/-- The text for one server and its URL are released; both may never have been set. -/
def releaseServer (r : ReadCall) (j : Nat) : IoEffect := do
  orStuck (decide (r.transfers ≠ []) && r.flagNode (r.transfers.length - 1))
  release (selectNodeEntry j)
  orStuck (decide (j < r.urls.length))
  release (urlsByMyself j)

/-- The requests to several servers. The threads work on the handles of their own transfers, so they
may come one after the other; a thread that is not started is waited for all the same. -/
def rvReadFromServers (r : ReadCall) : IoEffect := do
  Effect.each (fun j => do
    take (params j) (r.thread j).params
    orStuck (r.thread j).params) r.servers
  orStuck (r.servers.all fun j => (r.thread j).queued)
  Effect.each (fun j =>
    Effect.ignore (rvCurlMultiPerformMultithreading j (r.thread j).perform)) r.servers
  Effect.each (mergeTransfer r) r.transfers
  Effect.each (releaseServer r) r.servers
  release urlStringCopy

/-- `RV_dataset_read` up to its end. An environment or a copy that is missing leads to the end
before the variables it reads are set. -/
def rvDatasetReadBody (r : ReadCall) : IoEffect := do
  orStuck r.configured
  take urlStringCopy r.urlStringCopy
  orStuck r.urlStringCopy
  rvReadSetUp r
  if 1 < r.serverNodeNum then rvReadFromServers r else rvCurlMultiPerform true r.perform

/-- The end of `RV_dataset_read`. The cURL multi handles are not released: their array is given to
`curl_multi_cleanup` in their place. -/
def rvDatasetReadDone (r : ReadCall) : IoEffect := do
  Effect.each (fun i => do
    onlyIf r.transferInfo do
      dispose (transfer i .curlHeaders)
      release (transfer i .selectionBody)
    orStuck r.transferInfo
    release (transfer i .curlEasyHandle)
    release (transfer i .requestUrl)
    release (transfer i .nodeSize)
    release (transfer i .hostHeaders)) r.transfers
  release selectNode
  release nodeSize
  release transferInfo

/-- `RV_dataset_read`. -/
def rvDatasetRead (r : ReadCall) : IoEffect :=
  endingWith (rvDatasetReadBody r) (rvDatasetReadDone r)

/-! ## Writing -/

/-- What `RV_tconv_init` comes to: nothing for no elements, no buffer that was asked for, or a
buffer, which may have a background buffer beside it. -/
inductive TconvInit
  | nothing
  | failed
  | buffers (bkg : Bool)

/-- The results of the calls that convert the values. -/
structure TconvCalls where
  sizes : Bool
  init : TconvInit
  converted : Bool

/-- The results of the calls that make the body of the request: the values stand together in memory,
they are gathered, they are object references, or the body is left out. -/
inductive BodyCalls
  | contiguous (succeeds : Bool)
  | gathered (checked writeBody gathers : Bool)
  | references (converted : Bool)
  | other

/-- The results of the calls that put a list of points and the values into one body. The values are
`empty` when they have no length. -/
structure PointCalls where
  base64EncodedValues : Bool
  given : Bool
  empty : Bool
  again : Bool
  grows : Bool
  writeBody : Bool
  printed : Bool
  contentType : Bool

/-- The results of the calls for one transfer of a write. -/
structure WriteTransfer where
  checked : Bool
  curlEasyHandle : Bool
  requestUrl : Bool
  writeFunction : Bool
  respBuffer : Bool
  options : Bool
  typed : Bool
  fileAll : Bool
  selected : Bool
  points : Bool
  converted : Bool
  npoints : Bool
  tconv : Option TconvCalls
  body : BodyCalls
  hostHeaders : Bool
  hostHeader : Bool
  expectHeader : Bool
  contentType : Bool
  url : Bool
  pointCalls : PointCalls
  requestOptions : Bool
  nonEmpty : Bool
  added : Bool

/-- `sel_type` after a transfer: it keeps its value where the file space is `H5S_ALL`. -/
def WriteTransfer.pointsAfter (x : WriteTransfer) (points : Bool) : Bool :=
  if x.fileAll then points else x.points

/-- A call of `RV_dataset_write`. -/
structure WriteCall where
  transferInfo : Bool
  curlMultiHandle : Bool
  transfers : List WriteTransfer
  connections : Bool
  perform : PerformCalls

/-- The first loop of `RV_dataset_write` for one transfer. -/
def rvWriteInit (i : Nat) (x : WriteTransfer) : IoEffect := do
  Effect.guard x.checked
  take (transfer i .curlEasyHandle) x.curlEasyHandle
  require (transfer i .requestUrl) x.requestUrl
  Effect.guard (x.curlEasyHandle && x.writeFunction)
  require (transfer i .respBuffer) x.respBuffer
  Effect.guard x.options

/-- A selection other than `H5S_ALL` is converted to a string. -/
def rvWriteSelect (x : WriteTransfer) : IoEffect :=
  if x.fileAll then pure ⟨⟩
  else do
    Effect.guard x.selected
    require selectionBody x.converted

/-- `RV_tconv_init`, whose result is not looked at: without a buffer the code writes through a null
pointer. -/
def rvTconvInit (i : Nat) : TconvInit → IoEffect
  | .nothing => pure ⟨⟩
  | .failed => orStuck false
  | .buffers bkg => do
      take (transfer i tconvBuf) true
      take (transfer i bkgBuf) bkg

/-- The values are converted. -/
def rvWriteConvert (i : Nat) : Option TconvCalls → IoEffect
  | none => pure ⟨⟩
  | some calls => do
      Effect.guard calls.sizes
      rvTconvInit i calls.init
      Effect.guard calls.converted

def rvWriteBody (i : Nat) : BodyCalls → IoEffect
  | .contiguous succeeds => Effect.guard succeeds
  | .gathered checked granted gathers => do
      Effect.guard checked
      require (transfer i writeBody) granted
      Effect.guard gathers
  | .references converted => require (transfer i writeBody) converted
  | .other => pure ⟨⟩

def rvWriteHeaders (i : Nat) (x : WriteTransfer) : IoEffect := do
  require (transfer i .hostHeaders) x.hostHeaders
  extend (transfer i .curlHeaders) x.hostHeader
  extend (transfer i .curlHeaders) x.expectHeader
  extend (transfer i .curlHeaders) x.contentType

/-- `RV_base64_encode`, which allocates a buffer for empty values whether or not it is given one,
and releases the buffer when it cannot be made larger. -/
def rvBase64Encode (i : Nat) (x : PointCalls) : IoEffect := do
  Effect.guard x.given
  onlyIf x.empty (require (transfer i .base64EncodedValues) x.again)
  onlyIf (!x.grows) do
    dispose (transfer i .base64EncodedValues)
    Effect.fail

def rvWritePoints (i : Nat) (x : PointCalls) : IoEffect := do
  require (transfer i .base64EncodedValues) x.base64EncodedValues
  rvBase64Encode i x
  dispose (transfer i .writeBody)
  require (transfer i .writeBody) x.writeBody
  Effect.guard x.printed
  extend (transfer i .curlHeaders) x.contentType

/-- The second loop of `RV_dataset_write` for one transfer after its selection is converted. -/
def rvWriteSetUp (i : Nat) (points : Bool) (x : WriteTransfer) : IoEffect := do
  Effect.guard x.npoints
  rvWriteConvert i x.tconv
  rvWriteBody i x.body
  rvWriteHeaders i x
  Effect.guard x.url
  onlyIf points (rvWritePoints i x.pointCalls)
  Effect.guard x.requestOptions
  Effect.guard (!x.nonEmpty || x.added)
  dispose selectionBody

/-- The second loop of `RV_dataset_write` for one transfer. -/
def rvWritePrepare (i : Nat) (points : Bool) (x : WriteTransfer) : IoEffect := do
  Effect.guard x.typed
  rvWriteSelect x
  rvWriteSetUp i points x

def rvWriteInits : Nat → List WriteTransfer → IoEffect
  | _, [] => pure ⟨⟩
  | i, x :: xs => do
      rvWriteInit i x
      rvWriteInits (i + 1) xs

def rvWritePrepares : Nat → Bool → List WriteTransfer → IoEffect
  | _, _, [] => pure ⟨⟩
  | i, points, x :: xs => do
      rvWritePrepare i (x.pointsAfter points) x
      rvWritePrepares (i + 1) (x.pointsAfter points) xs

/-- `RV_dataset_write` up to its end. -/
def rvDatasetWriteBody (w : WriteCall) : IoEffect := do
  require transferInfo w.transferInfo
  take (curlMultiHandle 0) w.curlMultiHandle
  rvWriteInits 0 w.transfers
  rvWritePrepares 0 false w.transfers
  Effect.guard (w.curlMultiHandle && w.connections)
  rvCurlMultiPerform false w.perform

/-- The fields that the end of `RV_dataset_write` releases, after the headers. -/
def writeFields : List TransferField :=
  [curlEasyHandle, writeBody, requestUrl, base64EncodedValues, respBuffer, tconvBuf, bkgBuf,
    hostHeaders]

/-- The end of `RV_dataset_write`, which reads the array of transfers and forgets the selection. -/
def rvDatasetWriteDone (w : WriteCall) : IoEffect := do
  Effect.each (fun i => do
    orStuck w.transferInfo
    dispose (transfer i curlHeaders)
    Effect.each (fun field => release (transfer i field)) writeFields)
    (List.range w.transfers.length)
  release (curlMultiHandle 0)
  release transferInfo

/-- `RV_dataset_write`. -/
def rvDatasetWrite (w : WriteCall) : IoEffect :=
  endingWith (rvDatasetWriteBody w) (rvDatasetWriteDone w)

end XHDF5.Client.Transfers
