/-
# The intake of a request

`ProcessReq` looks three headers up, cuts the query into parameters and the resource into parts, and
asks the server for as many bytes of the body as a header says. Only then does a handler run. A look-up
that finds nothing, a number that is none and a variable that is not set are used all the same.
-/

import XHDF5.Plugin.Process
import XHDF5.Plugin.Status

namespace XHDF5.Plugin.Intake

open XHDF5.Math XHDF5.Plugin.Status Effect

/-! ## Requests -/

/-- A request as `ProcessReq` meets it: the headers that can be found, what `is_hdf5_file` says of a
path, the bytes of the body and what lies behind them, the environment of the process, and what becomes
of the calls of the handlers. -/
structure ExtReq where
  headers : Text → Option Text
  verb : Text
  resource : Text
  isHdf5File : Text → Bool
  body : Memory UInt8
  getenv : Text → Option Text
  outcomes : Outcomes

/-- The values of `COMPRESSION` that stand for a codec. -/
def codecOf (compression : Text) : Option Codec :=
  if compression = lit "ZSTD" then some .zstd
  else if compression = lit "ZLIB" then some .zlib
  else if compression = lit "LZ4" then some .lz4
  else none

/-- The outcomes of the calls, those of `std::getenv` taken from the environment. -/
def ExtReq.calls (req : ExtReq) : Outcomes where
  result
    | .getenvCompression => (req.getenv (lit "COMPRESSION")).map fun _ => 0
    | .getenvLevel => ((req.getenv (lit "COMPRESSION_LEVEL")).bind stoi).map fun _ => 0
    | c => req.outcomes.result c
  writes := req.outcomes.writes
  reads := req.outcomes.reads
  size := req.outcomes.size
  codec := (req.getenv (lit "COMPRESSION")).bind codecOf

/-- A request that has been handled: how many bytes of the body were handed out, where in them the
plugin stored something, and how many responses it sent. -/
structure Handled where
  handedOut : Nat
  stores : List Nat
  responses : Nat
deriving DecidableEq

/-! ## The handlers -/

/-- The responses of a handler; nothing when it does what is not defined. -/
def responses (m : Handling) : Option Nat := (m start).1.map fun status => status.toList.length

/-- `GET /`. -/
def rootInfo (o : Outcomes) : Handling := do
  let stat ← call o.result .stat
  if stat.isNone then pure (some 400) else pure (some 200)

/-- `GET` of a whole value. Behind the branch the child goes on with a pointer that nothing was stored
in, and its parent with one into the child's memory. -/
def readValue (o : Outcomes) : Handling := do
  let pipe ← call o.result .pipe
  if pipe.isNone then pure (some 400)
  else do
    let pid ← call o.result .fork
    if pid.isNone then pure (some 400) else fail

/-- A handler that asks for no body. -/
def withoutBody (m : Handling) : Option Handled :=
  (responses m).map fun count => ⟨0, [], count⟩

/-- `BuffgetData` with the number that the header holds. `std::stoi` throws where it holds none, and no
buffer has a negative length. -/
def buffgetData (contextSize : Text) : Option Nat :=
  (stoi contextSize).bind fun blen => if 0 ≤ blen then some blen.toNat else none

/-- A handler that asks for the body; a terminator is stored behind it, or not. -/
def withBody (contextSize : Text) (terminated : Bool) (m : Nat → Handling) : Option Handled :=
  (buffgetData contextSize).bind fun blen =>
    (responses (m blen)).map fun count => ⟨blen, if terminated then [blen] else [], count⟩

/-- The handler at an end of the cascade. -/
def dispatch (req : ExtReq) (contextSize select : Text) : Route → Option Handled
  | .notHdf5 => withoutBody (pure (some 404))
  | .createFile => withBody contextSize false fun _ => Status.createFile req.calls
  | .writeValue => withBody contextSize true fun _ => Status.writeValue req.calls
  | .deleteFile => withoutBody (Status.deleteFile req.calls)
  | .createDataset =>
      withBody contextSize true fun blen =>
        Status.createDataset req.calls (bodyText blen (req.body.write blen [0]))
  | .rootInfo => withoutBody (rootInfo req.calls)
  | .datasetInfo => withoutBody (datasetInfo req.calls)
  | .readValue => withoutBody (readValue req.calls)
  | .readSelection => withoutBody (readSelection req.calls select)
  | .parameterError => withoutBody (pure (some 400))

/-- `ProcessReq`; nothing when a header that is not there is used. -/
def processReq (req : ExtReq) : Option Handled := do
  let domain ← req.headers (lit "X-Hdf-domain")
  let contextSize ← req.headers (lit "Content-Length")
  let query ← req.headers (lit "xrd-http-query")
  let (h5path, select) := parseQuery query
  dispatch req contextSize select (route (req.isHdf5File domain) req.verb req.resource h5path select)

/-! ## Total intake -/

/-- Stores inside the bytes that were handed out, and one response. -/
def Total (result : Option Handled) : Prop :=
  ∃ handled, result = some handled ∧ (∀ address ∈ handled.stores, address < handled.handedOut) ∧
    handled.responses = 1

/-- Everything that is used was there, the stores keep inside the body, and one response is sent. -/
def IsTotal (req : ExtReq) : Prop := Total (processReq req)

/-- The child of a query gets as far as the shared memory, which has the bytes of the description. -/
def Describes (o : Outcomes) : Prop :=
  (¬ Granted o.result .stat ∨ Granted o.result .h5sgetSimpleExtentNdims) ∧ Granted o.result .ftruncate

instance (o : Outcomes) : Decidable (Describes o) := inferInstanceAs (Decidable ((_ ∨ _) ∧ _))

/-- The length that the child of a query leaves in the shared memory. -/
def sharedSize (o : Outcomes) : Nat := if Granted o.result .mmapChild then o.size else 0

/-- The child of a selection gets as far as the size. -/
def Sizes (o : Outcomes) (select : Text) : Prop :=
  readsSelect select = true ∧ Granted o.result .h5sgetSimpleExtentNdims ∧
    spans select (o.result .h5sgetSimpleExtentNdims) = true ∧ Granted o.result .writeSize

instance (o : Outcomes) (select : Text) : Decidable (Sizes o select) :=
  inferInstanceAs (Decidable (_ ∧ _ ∧ _ ∧ _))

/-- What each end of the cascade needs. A body with a terminator behind it is one byte too long. -/
def Suffices (req : ExtReq) (contextSize select : Text) : Route → Prop
  | .notHdf5 | .deleteFile | .rootInfo | .parameterError => True
  | .createFile => ∃ blen, stoi contextSize = some blen ∧ 0 ≤ blen
  | .writeValue | .createDataset => False
  | .datasetInfo =>
      ¬ Granted req.outcomes.result .shmOpen ∨ ¬ Granted req.outcomes.result .fork ∨
        (Describes req.outcomes ∧ Granted req.outcomes.result .mmapSize ∧
          Granted req.outcomes.result .mmapData ∧
          (Granted req.outcomes.result .malloc ∨ sharedSize req.outcomes = 0))
  | .readValue => ¬ Granted req.outcomes.result .pipe ∨ ¬ Granted req.outcomes.result .fork
  | .readSelection =>
      Granted req.outcomes.result .pipe ∧ Granted req.outcomes.result .fork ∧
        Granted req.outcomes.result .readSize ∧ Granted req.outcomes.result .malloc ∧
        Drains req.outcomes.reads (if Sizes req.outcomes select then req.outcomes.size else 0) ∧
        ∃ compression, req.getenv (lit "COMPRESSION") = some compression ∧
          (∃ level, req.getenv (lit "COMPRESSION_LEVEL") = some level ∧ (stoi level).isSome = true) ∧
          (codecOf compression = none ∨ Granted req.outcomes.result .compress)

/-- The three headers are there, and the end of the cascade has what it needs. -/
def Meets (req : ExtReq) : Prop :=
  ∃ domain contextSize query, req.headers (lit "X-Hdf-domain") = some domain ∧
    req.headers (lit "Content-Length") = some contextSize ∧
    req.headers (lit "xrd-http-query") = some query ∧
    Suffices req contextSize (parseQuery query).2
      (route (req.isHdf5File domain) req.verb req.resource (parseQuery query).1 (parseQuery query).2)

/-! ## Responses -/

/-- A handler comes to a response. -/
def Responds (m : Handling) (j : Journal Call (Option Nat)) : Prop :=
  ∃ status, (m j).1 = some (some status)

section Rules

variable {o : Outcomes} {j : Journal Call (Option Nat)}

theorem responds_pure (status : Nat) : Responds (pure (some status)) j := ⟨status, rfl⟩

theorem not_responds_silent : ¬ Responds (pure none) j := by
  rintro ⟨_, h⟩
  cases h

theorem responds_bind_of_some {α : Type} {m : Status.Code α} {f : α → Handling} {value : α}
    (h : (m j).1 = some value) : Responds (m >>= f) j ↔ Responds (f value) (m j).2 := by
  rw [Responds, bind_of_some h]
  rfl

theorem not_responds_bind_of_none {α : Type} {m : Status.Code α} {f : α → Handling}
    (h : (m j).1 = none) : ¬ Responds (m >>= f) j := by
  rw [Responds, bind_of_none h]
  rintro ⟨_, hvalue⟩
  cases hvalue

theorem responds_performs_bind {cs : List Call} {f : PUnit → Handling} :
    Responds (performs o.result cs >>= f) j ↔ Responds (f ⟨⟩) (performs o.result cs j).2 :=
  responds_bind_of_some (by rw [performs_apply])

/-- A failure that is answered. -/
theorem responds_tested {c : Call} {m : Handling} :
    Responds (call o.result c >>= fun value => if value.isNone then pure (some 400) else m) j ↔
      ¬ Granted o.result c ∨ Responds m (j.note c (o.result c).isSome) := by
  rw [responds_bind_of_some rfl, Granted]
  cases hc : o.result c with
  | none => exact iff_of_true (responds_pure 400) (.inl (by rintro ⟨⟩))
  | some value => simp [call, outcome, hc]

/-- A failure that is not answered. -/
theorem responds_silent {c : Call} {m : Handling} :
    Responds (call o.result c >>= fun value => if value.isNone then pure none else m) j ↔
      Granted o.result c ∧ Responds m (j.note c (o.result c).isSome) := by
  rw [responds_bind_of_some rfl, Granted]
  cases hc : o.result c with
  | none => exact iff_of_false not_responds_silent (by rintro ⟨⟨⟩, -⟩)
  | some value => simp [call, outcome, hc]

/-- Either way there is a response. -/
theorem responds_either {α : Type} {m : Status.Code α} {p : α → Prop} [DecidablePred p]
    {first second : Nat} (h : (m j).1.isSome = true) :
    Responds (m >>= fun value => if p value then pure (some first) else pure (some second)) j := by
  obtain ⟨value, hvalue⟩ := Option.isSome_iff_exists.mp h
  rw [responds_bind_of_some hvalue]
  split
  · exact responds_pure first
  · exact responds_pure second

end Rules

/-! ## The handlers without a body -/

section Handlers

variable (o : Outcomes)

theorem responds_createFile (j : Journal Call (Option Nat)) : Responds (Status.createFile o) j := by
  apply responds_either
  rw [xrdCreateFile, performs_bind, call_bind]
  split
  · rfl
  · rw [performs_bind]
    rfl

theorem responds_deleteFile (j : Journal Call (Option Nat)) : Responds (Status.deleteFile o) j :=
  responds_either rfl

theorem responds_rootInfo (j : Journal Call (Option Nat)) : Responds (rootInfo o) j :=
  responds_either rfl

theorem responds_readValue_iff (j : Journal Call (Option Nat)) :
    Responds (readValue o) j ↔ ¬ Granted o.result .pipe ∨ ¬ Granted o.result .fork := by
  have hfails (j : Journal Call (Option Nat)) : ¬ Responds fail j := by
    rintro ⟨_, h⟩
    cases h
  rw [readValue, responds_tested, responds_tested, or_iff_left (hfails _)]

/-! ## The query for a dataset -/

theorem openForInfo_run (j : Journal Call (Option Nat)) :
    ((openForInfo o j).1.isSome = true ↔ Granted o.result .h5sgetSimpleExtentNdims) ∧
      (openForInfo o j).2.memory = j.memory := by
  rw [openForInfo, performs_bind, call_bind, performs_bind, performs_bind, call_bind, Effect.guard,
    Granted]
  split
  · next h => exact ⟨iff_of_true rfl h, by simp [pure, Journal.note, performs_apply]⟩
  · next h => exact ⟨iff_of_false (by rintro ⟨⟩) h, by simp [fail, Journal.note, performs_apply]⟩

theorem xrdGetDatasetInfo_run (j : Journal Call (Option Nat)) :
    ((Status.xrdGetDatasetInfo o j).1.isSome = true ↔
        ¬ Granted o.result .stat ∨ Granted o.result .h5sgetSimpleExtentNdims) ∧
      (Status.xrdGetDatasetInfo o j).2.memory = j.memory := by
  rw [Status.xrdGetDatasetInfo, call_bind]
  by_cases hstat : Granted o.result .stat
  · have hopen := openForInfo_run o (j.note .stat (o.result .stat).isSome)
    rw [if_neg (by simpa [Granted, Option.isSome_iff_ne_none] using hstat),
      or_iff_right (not_not.mpr hstat)]
    cases hvalue : (openForInfo o (j.note .stat (o.result .stat).isSome)).1 with
    | none =>
        rw [bind_of_none hvalue]
        rw [hvalue] at hopen
        exact ⟨hopen.1, hopen.2⟩
    | some value =>
        rw [bind_of_some hvalue]
        rw [hvalue] at hopen
        simp only [layout_eq, Status.h5basetypeToString, compareTypes_eq, Effect.bind_assoc,
          performs_bind, performs_apply]
        exact ⟨iff_of_true rfl (hopen.1.mp rfl), hopen.2⟩
  · rw [if_pos (by simpa [Granted] using hstat)]
    exact ⟨iff_of_true rfl (.inl hstat), rfl⟩

/-- What the child of a query stores. -/
theorem memory_sharing (j : Journal Call (Option Nat)) (hempty : j.memory = none) :
    (shareInfo o j).2.memory = if Granted o.result .ftruncate then some (sharedSize o) else none := by
  rw [shareInfo, call_bind]
  by_cases htruncate : Granted o.result .ftruncate
  · rw [if_neg (by simpa [Granted, Option.isSome_iff_ne_none] using htruncate), if_pos htruncate,
      sharedSize, store_bind, call_bind]
    by_cases hmap : Granted o.result .mmapChild
    · rw [if_neg (by simpa [Granted, Option.isSome_iff_ne_none] using hmap), if_pos hmap]
      exact memory_performs _ _ _
    · rw [if_pos (by simpa [Granted] using hmap), if_neg hmap]
      exact memory_performs _ _ _
  · rw [if_pos (by simpa [Granted] using htruncate), if_neg htruncate]
    exact (memory_performs _ _ _).trans hempty

/-- What the child of a query leaves behind. -/
theorem memory_child (j : Journal Call (Option Nat)) (hempty : j.memory = none) :
    (isolated .childEnds (infoChild o) j).2.memory =
      if Describes o then some (sharedSize o) else none := by
  have hdescription := xrdGetDatasetInfo_run o j
  rw [memory_isolated, infoChild]
  cases hvalue : (Status.xrdGetDatasetInfo o j).1 with
  | none =>
      rw [hvalue] at hdescription
      rw [bind_of_none hvalue, if_neg fun h => nomatch hdescription.1.mpr h.1]
      exact hdescription.2.trans hempty
  | some value =>
      rw [hvalue] at hdescription
      rw [bind_of_some hvalue, memory_sharing o _ (hdescription.2.trans hempty)]
      simp only [Describes, and_iff_right (hdescription.1.mp rfl)]

/-- The parent of a query answers with what it finds in the shared memory. -/
theorem responds_receiveInfo_iff (j : Journal Call (Option Nat)) :
    Responds (receiveInfo o >>= fun _ => pure (some 200)) j ↔
      ∃ size, j.memory = some size ∧ Granted o.result .mmapSize ∧ Granted o.result .mmapData ∧
        (Granted o.result .malloc ∨ size = 0) := by
  simp only [Responds, receiveInfo, bind_apply, performs_apply, call, outcome, load, Effect.guard, Granted,
    Journal.note]
  cases j.memory with
  | none => simp [fail]
  | some size =>
      cases o.result .mmapSize <;> cases o.result .mmapData <;> cases o.result .malloc <;>
        by_cases hsize : size = 0 <;> simp [fail, pure, hsize]

theorem responds_datasetInfo_iff :
    Responds (datasetInfo o) start ↔
      ¬ Granted o.result .shmOpen ∨ ¬ Granted o.result .fork ∨
        (Describes o ∧ Granted o.result .mmapSize ∧ Granted o.result .mmapData ∧
          (Granted o.result .malloc ∨ sharedSize o = 0)) := by
  rw [datasetInfo, responds_tested, responds_tested, responds_bind_of_some rfl,
    responds_receiveInfo_iff, memory_child o _ rfl]
  by_cases hdescribes : Describes o
  · simp [hdescribes]
  · simp [hdescribes]

/-! ## The query for a selection -/

/-- A loop over the pipe that brings everything through. -/
theorem transfer_eq_true_iff (c : Call) (results : List (Option Nat)) (left : Nat)
    (j : Journal Call (Option Nat)) :
    ((transfer c results left j).1 = some true ↔ Drains results left) ∧
      (transfer c results left j).2.memory = j.memory := by
  induction results generalizing left j with
  | nil =>
      cases left with
      | zero => exact ⟨iff_of_true rfl trivial, rfl⟩
      | succ left => exact ⟨iff_of_false nofun id, rfl⟩
  | cons moved results ih =>
      cases left with
      | zero => exact ⟨iff_of_true rfl trivial, rfl⟩
      | succ left =>
          cases moved with
          | none => exact ⟨iff_of_false nofun id, rfl⟩
          | some count => exact ih (left + 1 - count) (j.note c true)

theorem openForRead_run (j : Journal Call (Option Nat)) :
    (openForRead o j).1 = (if Granted o.result .h5sgetSimpleExtentNdims then
        some (o.result .h5sgetSimpleExtentNdims) else none) ∧
      (openForRead o j).2.memory = j.memory := by
  rw [openForRead, performs_bind, call_bind, guard_bind]
  by_cases hrank : Granted o.result .h5sgetSimpleExtentNdims
  · have hsome : (o.result .h5sgetSimpleExtentNdims).isSome = true := hrank
    rw [if_pos hrank, if_pos hsome, performs_bind]
    exact ⟨rfl, (memory_performs _ _ _).trans (memory_performs _ _ _)⟩
  · have hnone : ¬ (o.result .h5sgetSimpleExtentNdims).isSome = true := hrank
    rw [if_neg hrank, if_neg hnone]
    exact ⟨rfl, memory_performs _ _ _⟩

/-- The selection is read where it can be, and the memory stays as it is. -/
theorem readsByChunked_run (select : Text) (j : Journal Call (Option Nat)) :
    ((Status.xrdReadDatasetInfoByChunked o select j).1.isSome = true ↔
        readsSelect select = true ∧ Granted o.result .h5sgetSimpleExtentNdims ∧
          spans select (o.result .h5sgetSimpleExtentNdims) = true) ∧
      (Status.xrdReadDatasetInfoByChunked o select j).2.memory = j.memory := by
  have hopen := openForRead_run o j
  rw [Status.xrdReadDatasetInfoByChunked, guard_bind]
  by_cases hreads : readsSelect select = true
  · rw [if_pos hreads, and_iff_right hreads]
    by_cases hrank : Granted o.result .h5sgetSimpleExtentNdims
    · rw [if_pos hrank] at hopen
      rw [bind_of_some hopen.1, guard_bind, and_iff_right hrank]
      by_cases hspans : spans select (o.result .h5sgetSimpleExtentNdims) = true
      · rw [if_pos hspans, performs_apply]
        exact ⟨iff_of_true rfl hspans, hopen.2⟩
      · rw [if_neg hspans]
        exact ⟨iff_of_false (by rintro ⟨⟩) hspans, hopen.2⟩
    · rw [if_neg hrank] at hopen
      rw [bind_of_none hopen.1]
      exact ⟨iff_of_false (by rintro ⟨⟩) fun h => hrank h.1, hopen.2⟩
  · rw [if_neg hreads]
    exact ⟨iff_of_false (by rintro ⟨⟩) fun h => hreads h.1, rfl⟩

/-- What the child of a selection stores. -/
theorem memory_sendSelection (j : Journal Call (Option Nat)) (hempty : j.memory = none) :
    (sendSelection o j).2.memory = if Granted o.result .writeSize then some o.size else none := by
  rw [sendSelection, call_bind]
  by_cases hwrite : Granted o.result .writeSize
  · rw [if_neg (by simpa [Granted, Option.isSome_iff_ne_none] using hwrite), if_pos hwrite, store_bind]
    have hmemory (j : Journal Call (Option Nat)) := (transfer_eq_true_iff .writeData o.writes o.size j).2
    cases hvalue : (transfer .writeData o.writes o.size
        { j.note .writeSize (o.result .writeSize).isSome with memory := some o.size }).1 with
    | none =>
        rw [bind_of_none hvalue]
        exact hmemory _
    | some value =>
        rw [bind_of_some hvalue]
        exact (memory_performs _ _ _).trans (hmemory _)
  · rw [if_pos (by simpa [Granted] using hwrite), if_neg hwrite]
    exact (memory_performs _ _ _).trans hempty

/-- What the child of a selection leaves behind. -/
theorem memory_selectionChild (select : Text) (j : Journal Call (Option Nat))
    (hempty : j.memory = none) :
    (isolated .childEnds (selectionChild o select) j).2.memory =
      if Sizes o select then some o.size else none := by
  rw [memory_isolated, selectionChild, performs_bind]
  have hreads := readsByChunked_run o select (performs o.result [.closeChildEnd] j).2
  have hfirst := hreads.2.trans ((memory_performs _ _ _).trans hempty)
  cases hvalue : (Status.xrdReadDatasetInfoByChunked o select
      (performs o.result [.closeChildEnd] j).2).1 with
  | none =>
      rw [hvalue] at hreads
      rw [bind_of_none hvalue, if_neg fun h => nomatch hreads.1.mpr ⟨h.1, h.2.1, h.2.2.1⟩]
      exact hfirst
  | some value =>
      rw [hvalue] at hreads
      rw [bind_of_some hvalue, memory_sendSelection o _ hfirst]
      obtain ⟨hselect, hrank, hspans⟩ := hreads.1.mp rfl
      simp only [Sizes, hselect, hrank, hspans, true_and]

/-- The parent of a selection has the bytes. -/
theorem receiveSelection_eq_true_iff (j : Journal Call (Option Nat)) :
    (receiveSelection o j).1 = some true ↔
      Granted o.result .readSize ∧ Granted o.result .malloc ∧ Drains o.reads (j.memory.getD 0) := by
  rw [receiveSelection, performs_bind, call_bind]
  by_cases hsize : Granted o.result .readSize
  · rw [if_neg (by simpa [Granted, Option.isSome_iff_ne_none] using hsize), load_bind, call_bind,
      and_iff_right hsize]
    by_cases hmalloc : Granted o.result .malloc
    · rw [if_neg (by simpa [Granted, Option.isSome_iff_ne_none] using hmalloc), and_iff_right hmalloc]
      have hmemory : (Journal.note .readSize (o.result .readSize).isSome
          (performs o.result [.close] j).2).memory = j.memory := memory_performs _ _ _
      rw [hmemory]
      generalize Journal.note Call.malloc _ _ = j'
      rw [← (transfer_eq_true_iff .readData o.reads (j.memory.getD 0) j').1]
      cases hvalue : (transfer .readData o.reads (j.memory.getD 0) j').1 with
      | none => rw [bind_of_none hvalue]
      | some whole =>
          rw [bind_of_some hvalue]
          cases whole with
          | true => exact iff_of_true (by rw [if_pos rfl, performs_bind]; rfl) rfl
          | false => exact iff_of_false (by rw [if_neg (by rintro ⟨⟩), performs_bind]; rintro ⟨⟩) (by rintro ⟨⟩)
    · rw [if_pos (by simpa [Granted] using hmalloc), performs_bind]
      exact iff_of_false (by rintro ⟨⟩) fun h => hmalloc h.1
  · rw [if_pos (by simpa [Granted] using hsize), performs_bind]
    exact iff_of_false (by rintro ⟨⟩) fun h => hsize h.1

theorem encode_eq_true_iff (j : Journal Call (Option Nat)) :
    (encode o j).1 = some true ↔
      Granted o.result .getenvCompression ∧ Granted o.result .getenvLevel ∧
        (o.codec = none ∨ Granted o.result .compress) := by
  rw [encode, call_bind, call_bind, guard_bind]
  by_cases hset : ((o.result .getenvCompression).isSome && (o.result .getenvLevel).isSome) = true
  · rw [if_pos hset]
    obtain ⟨hcompression, hlevel⟩ := Bool.and_eq_true_iff.mp hset
    rw [and_iff_right (show Granted o.result .getenvCompression from hcompression),
      and_iff_right (show Granted o.result .getenvLevel from hlevel)]
    cases o.codec with
    | none => exact iff_of_true rfl (.inl rfl)
    | some codec =>
        rw [or_iff_right (by rintro ⟨⟩)]
        cases codec with
        | zstd =>
            simp only [performs_bind, call_bind, guard_bind, Granted]
            split
            · next h => exact iff_of_true rfl h
            · next h => exact iff_of_false (by rintro ⟨⟩) h
        | zlib | lz4 =>
            simp only [performs_bind]
            rw [call_bind]
            exact Option.some_inj
  · rw [if_neg hset]
    exact iff_of_false (by rintro ⟨⟩) fun h => hset (Bool.and_eq_true_iff.mpr ⟨h.1, h.2.1⟩)

theorem responds_readSelection_iff (select : Text) :
    Responds (readSelection o select) start ↔
      Granted o.result .pipe ∧ Granted o.result .fork ∧
        Granted o.result .readSize ∧ Granted o.result .malloc ∧
        Drains o.reads (if Sizes o select then o.size else 0) ∧
        Granted o.result .getenvCompression ∧ Granted o.result .getenvLevel ∧
          (o.codec = none ∨ Granted o.result .compress) := by
  have hlast (m : Status.Code Bool) (j : Journal Call (Option Nat)) :
      Responds (m >>= fun ready => if ready then pure (some 200) else pure none) j ↔
        (m j).1 = some true := by
    cases hvalue : (m j).1 with
    | none => exact iff_of_false (not_responds_bind_of_none hvalue) (by rintro ⟨⟩)
    | some ready =>
        rw [responds_bind_of_some hvalue]
        cases ready with
        | true => exact iff_of_true (responds_pure 200) rfl
        | false => exact iff_of_false not_responds_silent (by rintro ⟨⟩)
  rw [readSelection, responds_silent, responds_performs_bind, responds_silent, hlast, transferSelection,
    bind_of_some rfl]
  refine and_congr_right fun _ => and_congr_right fun _ => ?_
  have hshared := memory_selectionChild o select (Journal.note .fork (o.result .fork).isSome
    (performs o.result [.fcntl] (Journal.note .pipe (o.result .pipe).isSome start)).2) rfl
  generalize (isolated .childEnds (selectionChild o select) _).2 = j at hshared
  have hreceives := receiveSelection_eq_true_iff o j
  rw [hshared, apply_ite (Option.getD · 0), Option.getD_some, Option.getD_none] at hreceives
  cases hreceived : (receiveSelection o j).1 with
  | none =>
      rw [bind_of_none hreceived]
      rw [hreceived] at hreceives
      exact iff_of_false (by rintro ⟨⟩) fun h => by cases hreceives.mpr ⟨h.1, h.2.1, h.2.2.1⟩
  | some received =>
      rw [bind_of_some hreceived]
      rw [hreceived] at hreceives
      cases received with
      | true =>
          obtain ⟨hsize, hmalloc, hdrains⟩ := hreceives.mp rfl
          rw [if_pos rfl, encode_eq_true_iff, and_iff_right hsize, and_iff_right hmalloc,
            and_iff_right hdrains]
      | false =>
          exact iff_of_false (by rintro ⟨⟩) fun h => by cases hreceives.mpr ⟨h.1, h.2.1, h.2.2.1⟩

end Handlers

/-! ## The whole intake -/

theorem responses_eq_one_iff (m : Handling) : responses m = some 1 ↔ Responds m start := by
  rw [responses, Responds, Option.map_eq_some_iff]
  constructor
  · rintro ⟨status, hstatus, hcount⟩
    cases status with
    | none => cases hcount
    | some status => exact ⟨status, hstatus⟩
  · rintro ⟨status, hstatus⟩
    exact ⟨some status, hstatus, rfl⟩

theorem total_withoutBody_iff (m : Handling) : Total (withoutBody m) ↔ Responds m start := by
  rw [← responses_eq_one_iff, withoutBody]
  cases responses m with
  | none => exact iff_of_false (fun ⟨_, h, _⟩ => nomatch h) nofun
  | some count =>
      constructor
      · rintro ⟨handled, hresult, -, hone⟩
        cases hresult
        exact congrArg some hone
      · rintro hone
        cases hone
        exact ⟨_, rfl, nofun, rfl⟩

/-- Without a terminator the number alone matters. -/
theorem total_withBody_iff (contextSize : Text) (m : Handling) (hresponds : Responds m start) :
    Total (withBody contextSize false fun _ => m) ↔ ∃ blen, stoi contextSize = some blen ∧ 0 ≤ blen := by
  rw [withBody, (responses_eq_one_iff m).mpr hresponds, buffgetData]
  cases hblen : stoi contextSize with
  | none => exact iff_of_false (fun ⟨_, h, _⟩ => nomatch h) fun ⟨_, h, _⟩ => nomatch h
  | some blen =>
      by_cases hnonneg : 0 ≤ blen
      · refine iff_of_true ?_ ⟨blen, rfl, hnonneg⟩
        rw [Option.bind_some, if_pos hnonneg]
        exact ⟨_, rfl, nofun, rfl⟩
      · rw [Option.bind_some, if_neg hnonneg]
        refine iff_of_false (fun ⟨_, h, _⟩ => nomatch h) ?_
        rintro ⟨value, hvalue, hle⟩
        cases hvalue
        exact hnonneg hle

/-- A terminator is stored behind the bytes that were handed out. -/
theorem not_total_terminated (contextSize : Text) (m : Nat → Handling) :
    ¬ Total (withBody contextSize true m) := by
  rintro ⟨handled, hresult, hstores, -⟩
  obtain ⟨blen, -, hhandled⟩ := Option.bind_eq_some_iff.mp hresult
  obtain ⟨count, -, rfl⟩ := Option.map_eq_some_iff.mp hhandled
  exact absurd (hstores blen (List.mem_singleton_self blen)) (lt_irrefl blen)

theorem granted_getenvCompression_iff (req : ExtReq) :
    Granted req.calls.result .getenvCompression ↔
      ∃ compression, req.getenv (lit "COMPRESSION") = some compression := by
  rw [Granted, ExtReq.calls, Option.isSome_map, Option.isSome_iff_exists]

theorem granted_getenvLevel_iff (req : ExtReq) :
    Granted req.calls.result .getenvLevel ↔
      ∃ level, req.getenv (lit "COMPRESSION_LEVEL") = some level ∧ (stoi level).isSome = true := by
  rw [Granted, ExtReq.calls, Option.isSome_map, Option.isSome_iff_exists]
  simp only [Option.bind_eq_some_iff, Option.isSome_iff_exists]
  constructor
  · rintro ⟨value, level, hlevel, hvalue⟩
    exact ⟨level, hlevel, value, hvalue⟩
  · rintro ⟨level, hlevel, value, hvalue⟩
    exact ⟨value, level, hlevel, hvalue⟩

/-- An end of the cascade. -/
theorem total_dispatch_iff (req : ExtReq) (contextSize select : Text) (end_ : Route) :
    Total (dispatch req contextSize select end_) ↔ Suffices req contextSize select end_ := by
  cases end_ with
  | notHdf5 => exact (total_withoutBody_iff _).trans (iff_of_true (responds_pure 404) trivial)
  | parameterError => exact (total_withoutBody_iff _).trans (iff_of_true (responds_pure 400) trivial)
  | createFile => exact total_withBody_iff contextSize _ (responds_createFile req.calls start)
  | writeValue | createDataset => exact iff_of_false (not_total_terminated contextSize _) id
  | deleteFile =>
      exact (total_withoutBody_iff _).trans (iff_of_true (responds_deleteFile req.calls start) trivial)
  | rootInfo =>
      exact (total_withoutBody_iff _).trans (iff_of_true (responds_rootInfo req.calls start) trivial)
  | datasetInfo => exact (total_withoutBody_iff _).trans (responds_datasetInfo_iff req.calls)
  | readValue => exact (total_withoutBody_iff _).trans (responds_readValue_iff req.calls start)
  | readSelection =>
      rw [dispatch, total_withoutBody_iff, responds_readSelection_iff, granted_getenvCompression_iff,
        granted_getenvLevel_iff]
      refine and_congr_right fun _ => and_congr_right fun _ => and_congr_right fun _ =>
        and_congr_right fun _ => and_congr_right fun _ => ?_
      constructor
      · rintro ⟨⟨compression, hcompression⟩, hlevel, hcodec⟩
        refine ⟨compression, hcompression, hlevel, ?_⟩
        rwa [ExtReq.calls, hcompression] at hcodec
      · rintro ⟨compression, hcompression, hlevel, hcodec⟩
        refine ⟨⟨compression, hcompression⟩, hlevel, ?_⟩
        rwa [ExtReq.calls, hcompression]

/-- The intake of a request is total exactly when the three headers are there and the end of the cascade
has what it needs. -/
theorem isTotal_iff (req : ExtReq) : IsTotal req ↔ Meets req := by
  rw [IsTotal, processReq, Meets]
  cases hdomain : req.headers (lit "X-Hdf-domain") with
  | none => exact iff_of_false (fun ⟨_, h, _⟩ => nomatch h) fun ⟨_, _, _, h, _⟩ => nomatch h
  | some domain =>
      cases hsize : req.headers (lit "Content-Length") with
      | none => exact iff_of_false (fun ⟨_, h, _⟩ => nomatch h) fun ⟨_, _, _, _, h, _⟩ => nomatch h
      | some contextSize =>
          cases hquery : req.headers (lit "xrd-http-query") with
          | none => exact iff_of_false (fun ⟨_, h, _⟩ => nomatch h) fun ⟨_, _, _, _, _, h, _⟩ => nomatch h
          | some query =>
              refine (total_dispatch_iff req contextSize (parseQuery query).2 _).trans ?_
              constructor
              · exact fun h => ⟨domain, contextSize, query, rfl, rfl, rfl, h⟩
              · rintro ⟨domain', contextSize', query', hdomain', hsize', hquery', h⟩
                cases hdomain'
                cases hsize'
                cases hquery'
                exact h

/-- A request for a file, with its name and an empty query alone. -/
def bareGet : ExtReq where
  headers name :=
    if name = lit "X-Hdf-domain" then some (lit "/f.h5")
    else if name = lit "xrd-http-query" then some []
    else none
  verb := lit "GET"
  resource := lit "/"
  isHdf5File _ := true
  body _ := 0
  getenv _ := none
  outcomes := { result := fun _ => some 0, writes := [], reads := [], size := 0, codec := none }

/-- A `GET` has no body, and need not say how long none is. -/
theorem not_isTotal_bareGet : ¬ IsTotal bareGet := by
  rintro ⟨handled, hresult, -⟩
  have hsize : bareGet.headers (lit "Content-Length") = none := by
    unfold bareGet
    repeat rw [lit_ofList]
    rfl
  obtain ⟨domain, -, hrest⟩ := Option.bind_eq_some_iff.mp hresult
  obtain ⟨contextSize, hfound, -⟩ := Option.bind_eq_some_iff.mp hrest
  rw [hsize] at hfound
  cases hfound

end XHDF5.Plugin.Intake
