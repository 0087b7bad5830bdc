/-
# What the plugin's status says

The handlers of `ProcessReq` chain calls of the HDF5 library and of the operating system. What
becomes of each of them is given; most results are handed on to the next call unseen, and two of the
reads make their calls in a process of its own. The status of the answer is compared with what
became of the calls.
-/

import XHDF5.Math.Calls
import XHDF5.Plugin.Create
import XHDF5.Plugin.Select

namespace XHDF5.Plugin.Status

open XHDF5.Math XHDF5.Client Effect

/-! ## The calls -/

/-- The calls of the handlers. Those that a handler makes more than once have a name for each place,
and `childEnds` stands for the end of a process on the way. -/
inductive Call
  | h5fcreate
  | h5fopen
  | h5fcloseEarly
  | h5fclose
  | h5dcreate2
  | h5dopen
  | h5dclose
  | h5dgetType
  | h5dgetSpace
  | h5dgetCreatePlist
  | h5dread
  | h5dwrite
  | h5screateSimple
  | h5sgetSimpleExtentNdims
  | h5sgetSimpleExtentDims
  | h5sgetSimpleExtentType
  | h5sselectHyperslab
  | h5sclose
  | h5tgetSize
  | h5tgetClass
  | h5tgetNativeType
  | h5tequal (k : Nat)
  | h5tcloseBase
  | h5tclose
  | h5pgetLayout
  | h5pgetChunk
  | h5pclose
  | stat
  | remove
  | shmOpen
  | shmUnlink
  | pipe
  | fcntl
  | fork
  | wait
  | ftruncate
  | mmapChild
  | munmapChild
  | closeChild
  | closeChildEnd
  | mmapSize
  | mmapData
  | munmap
  | close
  | closeAgain
  | closePipe
  | mallocChild
  | malloc
  | mallocCompressed
  | writePointer
  | writeSize
  | writeData
  | readPointer
  | readSize
  | readData
  | getenvCompression
  | getenvLevel
  | compress
  | childEnds
deriving DecidableEq

/-- `COMPRESSION`; every other value is none. -/
inductive Codec
  | zstd
  | zlib
  | lz4
deriving DecidableEq

/-- What becomes of the calls: nothing for a call that fails, else its value, and so for each round of
the loops over a pipe; the bytes that a read comes to; and the codec. A level that is no number counts
as one that is not set. -/
structure Outcomes where
  result : Call → Option Nat
  writes : List (Option Nat)
  reads : List (Option Nat)
  size : Nat
  codec : Option Codec

/-- A piece of a handler. The memory is what the child has left for the parent: the length that stands
before the bytes. -/
abbrev Code (α : Type) := Effect (Journal Call (Option Nat)) α

/-- What `ProcessReq` comes to: the status of its answer, or a return without an answer. -/
abbrev Handling := Code (Option Nat)

/-- `H5D_CHUNKED`. -/
def chunked : Nat := 2

section Handlers

variable (o : Outcomes)

/-! ## Files -/

/-- `Xrd_create_file`. -/
def xrdCreateFile : Code Bool := do
  performs o.result [.h5fcreate]
  let stat ← call o.result .stat
  if stat.isNone then pure false
  else do
    performs o.result [.h5fclose]
    pure true

/-- `PUT /`. -/
def createFile : Handling := do
  let created ← xrdCreateFile o
  if created then pure (some 201) else pure (some 400)

/-- `Xrd_delete_file`. -/
def xrdDeleteFile : Code Bool := do
  let removed ← call o.result .remove
  pure removed.isSome

/-- `DELETE /`. -/
def deleteFile : Handling := do
  let status ← xrdDeleteFile o
  if status then pure (some 200) else pure (some 400)

/-! ## Writes -/

/-- `Xrd_write_to_dataset`. -/
def xrdWriteToDataset : Code Bool := do
  performs o.result [.h5fopen, .h5dopen, .h5dgetType, .h5dwrite, .h5tclose, .h5dclose, .h5fclose]
  pure true

/-- `PUT` of a value. -/
def writeValue : Handling := do
  let status ← xrdWriteToDataset o
  if status then pure (some 200) else pure (some 400)

/-- The layout, and the chunks of a chunked dataset. -/
def layout : Code PUnit := do
  let layout ← call o.result .h5pgetLayout
  performs o.result (if layout = some chunked then [.h5pgetChunk] else [])

/-- The calls of `Xrd_create_dataset` before its `stat`. -/
def createCalls : Code PUnit := do
  performs o.result [.h5fopen, .h5screateSimple, .h5dcreate2, .h5dgetCreatePlist]
  layout o
  performs o.result [.h5dgetType, .h5sgetSimpleExtentType, .h5tgetClass, .h5dclose, .h5sclose,
    .h5pclose, .h5tclose, .h5fclose]

/-- `Xrd_create_dataset`: whether the record that it returns has an identifier. The record is empty
when the body names no dataset, and has none when the file is not found afterwards. -/
def xrdCreateDataset (text : Text) : Code Bool :=
  match Plugin.xrdCreateDataset text with
  | none => fail
  | some none => pure false
  | some (some _) => do
      createCalls o
      let stat ← call o.result .stat
      pure stat.isSome

/-- `POST /datasets`. -/
def createDataset (text : Text) : Handling := do
  let described ← xrdCreateDataset o text
  if described then pure (some 201) else pure (some 400)

/-! ## The description of a dataset -/

/-- The comparisons of `h5basetype_to_string`. A failed one counts as equal. -/
def compareTypes : List Nat → Code PUnit
  | [] => pure ⟨⟩
  | k :: ks => do
      let equal ← call o.result (.h5tequal k)
      if equal = some 0 then compareTypes ks else pure ⟨⟩

/-- `h5basetype_to_string`, which knows nine types. -/
def h5basetypeToString : Code PUnit := do
  performs o.result [.h5tgetNativeType]
  compareTypes o (List.range 9)
  performs o.result [.h5tcloseBase]

/-- The dataset is opened, and its dataspace has a number of dimensions. An array with a negative
number of entries is undefined. -/
def openForInfo : Code PUnit := do
  performs o.result [.h5fopen]
  let dataset ← call o.result .h5dopen
  performs o.result (if dataset.isNone then [.h5fcloseEarly] else [])
  performs o.result [.h5dgetSpace]
  let rank ← call o.result .h5sgetSimpleExtentNdims
  guard rank.isSome

/-- `Xrd_get_dataset_info`. What it returns is described in any case. -/
def xrdGetDatasetInfo : Code PUnit := do
  let stat ← call o.result .stat
  if stat.isNone then pure ⟨⟩
  else do
    openForInfo o
    performs o.result [.h5sgetSimpleExtentDims, .h5dgetType, .h5dgetCreatePlist]
    layout o
    h5basetypeToString o
    performs o.result [.h5sgetSimpleExtentType, .h5tgetClass, .h5pclose, .h5sclose, .h5tclose,
      .h5dclose, .h5fclose]

/-- The child of a query puts the text into the shared memory. This is empty, then zero, then has the text
behind its length. -/
def shareInfo : Code PUnit := do
  let truncated ← call o.result .ftruncate
  if truncated.isNone then performs o.result [.closeChild]
  else do
    store fun _ => some 0
    let shm ← call o.result .mmapChild
    if shm.isNone then performs o.result [.closeChild]
    else do
      store fun _ => some o.size
      performs o.result [.munmapChild, .closeChild]

/-- The child of a query. -/
def infoChild : Code PUnit := do
  xrdGetDatasetInfo o
  shareInfo o

/-- The parent of a query takes what is in the shared memory. A mapping that failed is used all the
same, and so are a mapping without bytes and a buffer that there is not. -/
def receiveInfo : Code PUnit := do
  performs o.result [.wait]
  let mapped ← call o.result .mmapSize
  let shared ← load
  guard (mapped.isSome && shared.isSome)
  let data ← call o.result .mmapData
  guard data.isSome
  let buffer ← call o.result .malloc
  guard (buffer.isSome || shared = some 0)
  performs o.result [.munmap, .close, .shmUnlink, .closeAgain]

/-- `GET /?h5path=`. -/
def datasetInfo : Handling := do
  let shm ← call o.result .shmOpen
  if shm.isNone then pure (some 400)
  else do
    let pid ← call o.result .fork
    if pid.isNone then pure (some 400)
    else do
      isolated .childEnds (infoChild o)
      receiveInfo o
      pure (some 200)

/-! ## The values of a dataset -/

/-- The dataset is opened, and its dataspace has a number of dimensions. -/
def openForRead : Code (Option Nat) := do
  performs o.result [.h5fopen, .h5dopen, .h5dgetSpace]
  let rank ← call o.result .h5sgetSimpleExtentNdims
  guard rank.isSome
  performs o.result [.h5sgetSimpleExtentDims]
  pure rank

/-- `Xrd_read_dataset_info`. -/
def xrdReadDatasetInfo : Code PUnit := do
  let _ ← openForRead o
  performs o.result [.h5dgetType, .h5tgetSize, .mallocChild, .h5dread, .h5tclose, .h5dclose, .h5sclose,
    .h5fclose]

/-- `GET` of a whole value. The child hands a pointer to its own memory on, and neither process looks
at what the other one's calls came to. -/
def readValue : Handling := do
  let pipe ← call o.result .pipe
  if pipe.isNone then pure (some 400)
  else do
    let pid ← call o.result .fork
    if pid.isNone then pure (some 400)
    else do
      isolated .childEnds do
        performs o.result [.closeChildEnd]
        xrdReadDatasetInfo o
        performs o.result [.writePointer, .writeSize]
      performs o.result [.close, .readPointer, .readSize, .wait]
      pure (some 200)

/-- The selection can be read: as many starts as stops, and their differences are `int`s. -/
def readsSelect (select : Text) : Bool :=
  match parseSelect select with
  | none => false
  | some (result1, result2) =>
      result1.length = result2.length &&
        ((List.zipWith (fun stop start => stop - start) result2 result1).mapM cint).isSome

/-- The selection has an entry for each of the dimensions. -/
def spans (select : Text) (rank : Option Nat) : Bool :=
  match parseSelect select, rank with
  | some (result1, _), some rank => rank ≤ result1.length
  | _, _ => false

/-- `Xrd_read_dataset_info_by_chunked`. -/
def xrdReadDatasetInfoByChunked (select : Text) : Code PUnit := do
  guard (readsSelect select)
  let rank ← openForRead o
  guard (spans select rank)
  performs o.result [.h5sselectHyperslab, .h5screateSimple, .h5dgetType, .h5tgetSize, .mallocChild,
    .h5dread, .h5tclose, .h5dclose, .h5sclose, .h5fclose]

/-- The loop of a process over a pipe: whether all bytes have gone through before a call failed. The
process has not left its loop when no more calls are given. -/
def transfer (c : Call) : List (Option Nat) → Nat → Code Bool
  | _, 0 => pure true
  | [], _ + 1 => fail
  | moved :: results, left + 1 => do
      let moved ← outcome c moved
      match moved with
      | none => pure false
      | some count => transfer c results (left + 1 - count)

/-- The child of a selection writes the size and the bytes. -/
def sendSelection : Code PUnit := do
  let written ← call o.result .writeSize
  if written.isNone then performs o.result [.closeChild]
  else do
    store fun _ => some o.size
    let _ ← transfer .writeData o.writes o.size
    performs o.result [.closeChild]

/-- The child of a selection. -/
def selectionChild (select : Text) : Code PUnit := do
  performs o.result [.closeChildEnd]
  xrdReadDatasetInfoByChunked o select
  sendSelection o

/-- The parent of a selection gets the bytes, unless one of its own calls fails. -/
def receiveSelection : Code Bool := do
  performs o.result [.close]
  let got ← call o.result .readSize
  if got.isNone then do
    performs o.result [.closePipe]
    pure false
  else do
    let shared ← load
    let readData ← call o.result .malloc
    if readData.isNone then do
      performs o.result [.closePipe]
      pure false
    else do
      let whole ← transfer .readData o.reads (shared.getD 0)
      if whole then do
        performs o.result [.closePipe, .wait]
        pure true
      else do
        performs o.result [.closePipe]
        pure false

/-- The compression. Both variables have to be set, and the error code of `ZSTD_compress` is taken for
the length of what is sent. -/
def encode : Code Bool := do
  let compressionWay ← call o.result .getenvCompression
  let compressionLevel ← call o.result .getenvLevel
  guard (compressionWay.isSome && compressionLevel.isSome)
  match o.codec with
  | none => pure true
  | some .zstd => do
      performs o.result [.mallocCompressed]
      let compressedSize ← call o.result .compress
      guard compressedSize.isSome
      pure true
  | some _ => do
      performs o.result [.mallocCompressed]
      let compressedSize ← call o.result .compress
      pure compressedSize.isSome

/-- Both processes of a selection, and the compression: whether there is something to send. -/
def transferSelection (select : Text) : Code Bool := do
  isolated .childEnds (selectionChild o select)
  let received ← receiveSelection o
  if received then encode o else pure false

/-- `GET` of a selection. Most failures return without an answer. -/
def readSelection (select : Text) : Handling := do
  let pipe ← call o.result .pipe
  if pipe.isNone then pure none
  else do
    performs o.result [.fcntl]
    let pid ← call o.result .fork
    if pid.isNone then pure none
    else do
      let ready ← transferSelection o select
      if ready then pure (some 200) else pure none

/-! ## All of them -/

/-- The requests that create, delete or write a file or a dataset, or read a value or a description. -/
inductive Handler
  | createFile
  | deleteFile
  | writeValue
  | createDataset (text : Text)
  | datasetInfo
  | readValue
  | readSelection (select : Text)

/-- The handlers. -/
def handle : Handler → Handling
  | .createFile => createFile o
  | .deleteFile => deleteFile o
  | .writeValue => writeValue o
  | .createDataset text => createDataset o text
  | .datasetInfo => datasetInfo o
  | .readValue => readValue o
  | .readSelection select => readSelection o select

end Handlers

/-- No call yet. -/
def start : Journal Call (Option Nat) := ⟨[], none⟩

/-- The status stands for a success. -/
def IsSuccess (status : Nat) : Prop := 200 ≤ status ∧ status < 300

instance (status : Nat) : Decidable (IsSuccess status) := inferInstanceAs (Decidable (_ ∧ _))

/-- An answer is sent, with a status of success only when every call succeeded, and with one of an error
otherwise. -/
def Truthful (m : Handling) (j : Journal Call (Option Nat)) : Prop :=
  ∃ status, (m j).1 = some (some status) ∧ ((IsSuccess status ∧ (m j).2.Clean) ∨ 400 ≤ status)

/-! ## When the status is true -/

/-- The calls of a layout. -/
def layoutCalls (o : Outcomes) : List Call :=
  .h5pgetLayout :: if o.result .h5pgetLayout = some chunked then [.h5pgetChunk] else []

/-- The comparisons up to the first that does not come out as different. -/
def comparisons (o : Outcomes) : List Nat → List Call
  | [] => []
  | k :: ks => .h5tequal k :: if o.result (.h5tequal k) = some 0 then comparisons o ks else []

/-- The calls of the compression. -/
def encodeCalls (o : Outcomes) : List Call :=
  [.getenvCompression, .getenvLevel] ++ if o.codec.isSome then [.mallocCompressed, .compress] else []

/-- The calls of a handler that reaches its end. -/
def calls (o : Outcomes) : Handler → List Call
  | .createFile => [.h5fcreate, .stat, .h5fclose]
  | .deleteFile => [.remove]
  | .writeValue => [.h5fopen, .h5dopen, .h5dgetType, .h5dwrite, .h5tclose, .h5dclose, .h5fclose]
  | .createDataset _ =>
      [.h5fopen, .h5screateSimple, .h5dcreate2, .h5dgetCreatePlist] ++ layoutCalls o ++
        [.h5dgetType, .h5sgetSimpleExtentType, .h5tgetClass, .h5dclose, .h5sclose, .h5pclose, .h5tclose,
          .h5fclose, .stat]
  | .datasetInfo =>
      [.shmOpen, .fork, .stat, .h5fopen, .h5dopen, .h5dgetSpace, .h5sgetSimpleExtentNdims,
        .h5sgetSimpleExtentDims, .h5dgetType, .h5dgetCreatePlist] ++ layoutCalls o ++
        [.h5tgetNativeType] ++ comparisons o (List.range 9) ++
        [.h5tcloseBase, .h5sgetSimpleExtentType, .h5tgetClass, .h5pclose, .h5sclose, .h5tclose,
          .h5dclose, .h5fclose, .ftruncate, .mmapChild, .munmapChild, .closeChild, .wait, .mmapSize,
          .mmapData, .malloc, .munmap, .close, .shmUnlink, .closeAgain]
  | .readValue =>
      [.pipe, .fork, .closeChildEnd, .h5fopen, .h5dopen, .h5dgetSpace, .h5sgetSimpleExtentNdims,
        .h5sgetSimpleExtentDims, .h5dgetType, .h5tgetSize, .mallocChild, .h5dread, .h5tclose, .h5dclose,
        .h5sclose, .h5fclose, .writePointer, .writeSize, .close, .readPointer, .readSize, .wait]
  | .readSelection _ =>
      [.pipe, .fcntl, .fork, .closeChildEnd, .h5fopen, .h5dopen, .h5dgetSpace, .h5sgetSimpleExtentNdims,
        .h5sgetSimpleExtentDims, .h5sselectHyperslab, .h5screateSimple, .h5dgetType, .h5tgetSize,
        .mallocChild, .h5dread, .h5tclose, .h5dclose, .h5sclose, .h5fclose, .writeSize, .closeChild,
        .close, .readSize, .malloc, .closePipe, .wait] ++ encodeCalls o

/-- The calls whose failure a handler answers with an error. -/
def refusals : Handler → List Call
  | .createFile | .createDataset _ => [.stat]
  | .deleteFile => [.remove]
  | .datasetInfo => [.shmOpen, .fork]
  | .readValue => [.pipe, .fork]
  | .writeValue | .readSelection _ => []

/-- The rounds of a loop bring all bytes through before one of them fails. -/
def Drains : List (Option Nat) → Nat → Prop
  | _, 0 => True
  | some count :: results, left + 1 => Drains results (left + 1 - count)
  | _, _ + 1 => False

/-- The calls go well, or the first to fail is one whose failure is answered. -/
def GoesWell (o : Outcomes) (h : Handler) : Prop :=
  (∃ c ∈ refusals h, ¬ Granted o.result c) ∨ ∀ c ∈ calls o h, Granted o.result c

/-- When the status is true. A creation needs a body that can be read, unless it names no dataset, and a
selection has to be read, to have the dataset's rank, and to come through the pipe. -/
def Meets (o : Outcomes) : Handler → Prop
  | .createDataset text =>
      match Plugin.xrdCreateDataset text with
      | none => False
      | some none => True
      | some (some _) => GoesWell o (.createDataset text)
  | .readSelection select =>
      readsSelect select = true ∧ spans select (o.result .h5sgetSimpleExtentNdims) = true ∧
        Drains o.writes o.size ∧ Drains o.reads o.size ∧ GoesWell o (.readSelection select)
  | h => GoesWell o h

/-! ## Truth and completion -/

section Rules

variable {o : Outcomes} {j : Journal Call (Option Nat)}

theorem clean_start : start.Clean := by
  intro entry h
  cases h

theorem truthful_performs_bind {cs : List Call} {f : PUnit → Handling} :
    Truthful (performs o.result cs >>= f) j ↔ Truthful (f ⟨⟩) (performs o.result cs j).2 := by
  rw [Truthful, bind_of_some (by rw [performs_apply])]
  rfl

theorem truthful_refusal : Truthful (pure (some 400)) j := ⟨400, rfl, .inr (Nat.le_refl _)⟩

theorem not_truthful_silent : ¬ Truthful (pure none) j := by
  rintro ⟨_, h, -⟩
  cases h

/-- An answer of success is true where the code before it completes. -/
theorem truthful_answer {α : Type} {m : Code α} {status : Nat} (hstatus : IsSuccess status) :
    Truthful (m >>= fun _ => pure (some status)) j ↔ Completes m j := by
  rw [Truthful, Completes]
  cases hvalue : (m j).1 with
  | none => simp [bind_of_none hvalue]
  | some value =>
      have hlow : ¬ 400 ≤ status := by
        have := hstatus.2
        omega
      rw [bind_of_some hvalue]
      simp [pure, hstatus, hlow]

/-- A failure that is answered is no lie. -/
theorem truthful_tested {c : Call} {m : Handling} :
    Truthful (call o.result c >>= fun value => if value.isNone then pure (some 400) else m) j ↔
      ¬ Granted o.result c ∨ Truthful m (j.note c true) := by
  change Truthful (if (o.result c).isNone then pure (some 400) else m) (j.note c _) ↔ _
  cases hc : o.result c with
  | none => simp [Granted, hc, truthful_refusal]
  | some value => simp [Granted, hc]

/-- The last call decides about the answer. -/
theorem truthful_decided {c : Call} {status : Nat} (hstatus : IsSuccess status) :
    Truthful (call o.result c >>= fun value =>
      if value.isSome then pure (some status) else pure (some 400)) j ↔
        ¬ Granted o.result c ∨ j.Clean := by
  have heq : (fun value : Option Nat => if value.isSome then pure (some status) else pure (some 400)) =
      fun value => if value.isNone then pure (some 400) else (pure (some status) : Handling) := by
    funext value
    cases value <;> rfl
  rw [heq, truthful_tested]
  by_cases hc : Granted o.result c
  · have hanswer := truthful_answer (m := pure PUnit.unit) (j := j.note c true) hstatus
    rw [demands_pure, Journal.clean_note] at hanswer
    change Truthful (pure (some status)) _ ↔ _ at hanswer
    rw [hanswer]
    simp
  · exact iff_of_true (.inl hc) (.inl hc)

/-- A failure that is not answered leaves no answer. -/
theorem truthful_silent {c : Call} {m : Handling} :
    Truthful (call o.result c >>= fun value => if value.isNone then pure none else m) j ↔
      Granted o.result c ∧ Truthful m (j.note c true) := by
  change Truthful (if (o.result c).isNone then pure none else m) (j.note c _) ↔ _
  cases hc : o.result c with
  | none => simp [Granted, hc, not_truthful_silent]
  | some value => simp [Granted, hc]

/-- Without the last answer there is none. -/
theorem truthful_whole {m : Code Bool} {status : Nat} (hstatus : IsSuccess status) :
    Truthful (m >>= fun ready => if ready then pure (some status) else pure none) j ↔
      Completes (m >>= fun ready => guard ready) j := by
  cases hvalue : (m j).1 with
  | none => simp [Truthful, Completes, bind_of_none hvalue]
  | some ready =>
      rw [Truthful, bind_of_some hvalue, completes_bind_of_some hvalue]
      cases ready with
      | false => exact iff_of_false not_truthful_silent fun h => by cases h.1
      | true => exact truthful_answer (m := pure PUnit.unit) (j := (m j).2) hstatus

end Rules

/-! ## What the pieces demand -/

section Pieces

variable (o : Outcomes)

theorem layout_eq : layout o = performs o.result (layoutCalls o) := rfl

theorem compareTypes_eq (ks : List Nat) : compareTypes o ks = performs o.result (comparisons o ks) := by
  induction ks with
  | nil => rfl
  | cons k ks ih =>
      funext j
      rw [compareTypes, comparisons, performs, ih]
      simp only [bind_apply, call, outcome]
      split <;> rfl

theorem createCalls_eq :
    createCalls o = performs o.result
      (([.h5fopen, .h5screateSimple, .h5dcreate2, .h5dgetCreatePlist] : List Call) ++ layoutCalls o ++
        ([.h5dgetType, .h5sgetSimpleExtentType, .h5tgetClass, .h5dclose, .h5sclose, .h5pclose, .h5tclose,
          .h5fclose] : List Call)) := by
  rw [createCalls, layout_eq, performs_append, performs_append, Effect.bind_assoc]

theorem demands_h5basetypeToString :
    Demands (h5basetypeToString o) fun _ =>
      ∀ c ∈ [.h5tgetNativeType] ++ comparisons o (List.range 9) ++ [.h5tcloseBase],
        Granted o.result c := by
  rw [h5basetypeToString, compareTypes_eq]
  refine (demands_performs_bind <| demands_performs_bind <| demands_performs _).of_iff fun _ => ?_
  rw [List.forall_mem_append, List.forall_mem_append, and_assoc]

/-- A dataset that cannot be opened has no dataspace. -/
theorem demands_openForInfo :
    Demands (openForInfo o) fun _ =>
      ∀ c ∈ [.h5fopen, .h5dopen, .h5dgetSpace, .h5sgetSimpleExtentNdims], Granted o.result c := by
  refine (demands_performs_bind <| demands_call_bind <| demands_performs_bind <| demands_performs_bind <|
    demands_call_bind <| demands_guard _).of_iff fun _ => ?_
  simp only [List.forall_mem_cons, List.not_mem_nil, false_implies, implies_true, and_true, Granted]
  refine and_congr_right fun _ => and_congr_right fun hopen => ?_
  simp [Option.isNone_eq_false_iff.mpr hopen]

/-- The calls of `Xrd_get_dataset_info`. -/
def infoCalls : List Call :=
  ([.stat, .h5fopen, .h5dopen, .h5dgetSpace, .h5sgetSimpleExtentNdims, .h5sgetSimpleExtentDims, .h5dgetType,
    .h5dgetCreatePlist] : List Call) ++ layoutCalls o ++ ([.h5tgetNativeType] : List Call) ++
    comparisons o (List.range 9) ++ ([.h5tcloseBase, .h5sgetSimpleExtentType, .h5tgetClass, .h5pclose,
      .h5sclose, .h5tclose, .h5dclose, .h5fclose] : List Call)

theorem demands_xrdGetDatasetInfo :
    Demands (xrdGetDatasetInfo o) fun _ => ∀ c ∈ infoCalls o, Granted o.result c := by
  refine (demands_tested_bind (demands_pure _) <| demands_bind (demands_openForInfo o) fun _ =>
    demands_performs_bind <| demands_bind (demands_performs (layoutCalls o)) fun _ =>
      demands_bind (demands_h5basetypeToString o) fun _ => demands_performs _).of_iff fun _ => ?_
  simp only [infoCalls, List.forall_mem_append, List.forall_mem_cons, List.not_mem_nil, false_implies,
    implies_true, and_true, and_assoc]

theorem demands_shareInfo :
    Demands (shareInfo o) fun _ =>
      ∀ c ∈ [.ftruncate, .mmapChild, .munmapChild, .closeChild], Granted o.result c := by
  refine (demands_tested_bind (demands_performs _) <| demands_store_bind <|
    demands_tested_bind (demands_performs _) <| demands_store_bind <| demands_performs _).of_iff
      fun _ => ?_
  simp only [List.forall_mem_cons, List.not_mem_nil, false_implies, implies_true, and_true]

theorem memory_shareInfo (j : Journal Call (Option Nat)) (h : Completes (shareInfo o) j) :
    (shareInfo o j).2.memory = some o.size := by
  obtain ⟨htruncate, hmap, -⟩ : Granted o.result .ftruncate ∧ Granted o.result .mmapChild ∧ _ := by
    simpa using ((demands_shareInfo o j).mp h).2
  obtain ⟨_, htruncate⟩ := Option.isSome_iff_exists.mp htruncate
  obtain ⟨_, hmap⟩ := Option.isSome_iff_exists.mp hmap
  simp [shareInfo, bind_apply, call, outcome, htruncate, hmap, store, update, performs_apply]

theorem memory_infoChild (j : Journal Call (Option Nat)) (h : Completes (infoChild o) j) :
    (infoChild o j).2.memory = some o.size :=
  memory_bind (fun _ => memory_shareInfo o) j h

theorem demands_receiveInfo :
    Demands (receiveInfo o) fun shared => shared.isSome = true ∧
      ∀ c ∈ [.wait, .mmapSize, .mmapData, .malloc, .munmap, .close, .shmUnlink, .closeAgain],
        Granted o.result c := by
  refine (demands_performs_bind <| demands_call_bind <| demands_load_bind fun _ => demands_guard_bind <|
    demands_call_bind <| demands_guard_bind <| demands_call_bind <| demands_guard_bind <|
      demands_performs _).of_iff fun shared => ?_
  simp only [List.forall_mem_cons, List.not_mem_nil, false_implies, implies_true, and_true, Granted,
    Bool.and_eq_true, Bool.or_eq_true]
  tauto

theorem demands_openForRead :
    Demands (openForRead o) fun _ =>
      ∀ c ∈ [.h5fopen, .h5dopen, .h5dgetSpace, .h5sgetSimpleExtentNdims, .h5sgetSimpleExtentDims],
        Granted o.result c := by
  refine (demands_performs_bind <| demands_call_bind <| demands_guard_bind <|
    demands_bind (demands_performs _) fun _ => demands_pure _).of_iff fun _ => ?_
  simp only [List.forall_mem_cons, List.not_mem_nil, false_implies, implies_true, and_true, Granted]
  tauto

theorem demands_xrdReadDatasetInfo :
    Demands (xrdReadDatasetInfo o) fun _ =>
      ∀ c ∈ [.h5fopen, .h5dopen, .h5dgetSpace, .h5sgetSimpleExtentNdims, .h5sgetSimpleExtentDims,
        .h5dgetType, .h5tgetSize, .mallocChild, .h5dread, .h5tclose, .h5dclose, .h5sclose, .h5fclose],
        Granted o.result c := by
  refine (demands_bind (demands_openForRead o) fun _ => demands_performs _).of_iff fun _ => ?_
  simp only [List.forall_mem_cons, List.not_mem_nil, false_implies, implies_true, and_true, and_assoc]

theorem demands_xrdReadDatasetInfoByChunked (select : Text) :
    Demands (xrdReadDatasetInfoByChunked o select) fun _ =>
      readsSelect select = true ∧ spans select (o.result .h5sgetSimpleExtentNdims) = true ∧
        ∀ c ∈ [.h5fopen, .h5dopen, .h5dgetSpace, .h5sgetSimpleExtentNdims, .h5sgetSimpleExtentDims,
          .h5sselectHyperslab, .h5screateSimple, .h5dgetType, .h5tgetSize, .mallocChild, .h5dread,
          .h5tclose, .h5dclose, .h5sclose, .h5fclose], Granted o.result c := by
  simp only [xrdReadDatasetInfoByChunked, openForRead, Effect.bind_assoc, Effect.pure_bind]
  refine (demands_guard_bind <| demands_performs_bind <| demands_call_bind <| demands_guard_bind <|
    demands_performs_bind <| demands_guard_bind <| demands_performs _).of_iff fun _ => ?_
  simp only [List.forall_mem_cons, List.not_mem_nil, false_implies, implies_true, and_true, Granted]
  tauto

/-- A loop drains what it moves, or something fails. -/
theorem demands_transfer_bind {c : Call} {β : Type} {f : Bool → Code β} {P Q : Option Nat → Prop}
    (htrue : Demands (f true) Q) (hfalse : Demands (f false) P) (moved : List (Option Nat))
    (left : Nat) : Demands (transfer c moved left >>= f) fun s => Drains moved left ∧ Q s := by
  induction moved generalizing left with
  | nil =>
      cases left with
      | zero => exact htrue.of_iff fun _ => (and_iff_right trivial).symm
      | succ left => exact demands_fail.of_iff fun _ => (iff_of_eq (false_and _)).symm
  | cons moved results ih =>
      cases left with
      | zero => exact htrue.of_iff fun _ => (and_iff_right trivial).symm
      | succ left =>
          rw [transfer, Effect.bind_assoc]
          cases moved with
          | none => exact (demands_outcome_bind hfalse).of_iff fun _ => by simp [Drains]
          | some count =>
              exact (demands_outcome_bind (ih (left + 1 - count))).of_iff fun _ => by simp [Drains]

theorem demands_sendSelection :
    Demands (sendSelection o) fun _ =>
      Drains o.writes o.size ∧ ∀ c ∈ [.writeSize, .closeChild], Granted o.result c := by
  refine (demands_tested_bind (demands_performs _) <| demands_store_bind <|
    demands_transfer_bind (demands_performs _) (demands_performs _) _ _).of_iff fun _ => ?_
  simp only [List.forall_mem_cons, List.not_mem_nil, false_implies, implies_true, and_true]
  tauto

theorem demands_receiveSelection_bind {β : Type} {f : Bool → Code β} {R : Prop}
    {P : Option Nat → Prop} (htrue : Demands (f true) fun _ => R) (hfalse : Demands (f false) P) :
    Demands (receiveSelection o >>= f) fun shared => Drains o.reads (shared.getD 0) ∧
      (∀ c ∈ [.close, .readSize, .malloc, .closePipe, .wait], Granted o.result c) ∧ R := by
  simp only [receiveSelection, Effect.bind_assoc, Effect.ite_bind, Effect.pure_bind]
  refine (demands_performs_bind <| demands_tested_bind (demands_performs_bind hfalse) <|
    demands_load_bind fun _ => demands_tested_bind (demands_performs_bind hfalse) <|
      demands_transfer_bind (demands_performs_bind htrue) (demands_performs_bind hfalse) _ _).of_iff
        fun shared => ?_
  simp only [List.forall_mem_cons, List.not_mem_nil, false_implies, implies_true, and_true]
  tauto

/-- The success of a call is handed on. -/
theorem demands_success_bind {c : Call} {β : Type} {f : Bool → Code β} {P Q : Option Nat → Prop}
    (htrue : Demands (f true) Q) (hfalse : Demands (f false) P) :
    Demands (call o.result c >>= fun value => f value.isSome) fun s => Granted o.result c ∧ Q s := by
  have heq : (fun value : Option Nat => f value.isSome) =
      fun value => if value.isNone then f false else f true := by
    funext value
    cases value <;> rfl
  rw [heq]
  exact demands_tested_bind hfalse htrue

theorem demands_encode_bind {β : Type} {f : Bool → Code β} {R : Prop}
    {P : Option Nat → Prop} (htrue : Demands (f true) fun _ => R) (hfalse : Demands (f false) P) :
    Demands (encode o >>= f) fun _ => (∀ c ∈ encodeCalls o, Granted o.result c) ∧ R := by
  simp only [encode, encodeCalls, Effect.bind_assoc]
  have hset {m : Code β} {R' : Prop} (hm : Demands m fun _ => R') :
      Demands (call o.result .getenvCompression >>= fun way =>
        call o.result .getenvLevel >>= fun level => guard (way.isSome && level.isSome) >>= fun _ => m)
        fun _ => (∀ c ∈ [.getenvCompression, .getenvLevel], Granted o.result c) ∧ R' := by
    refine (demands_call_bind <| demands_call_bind <| demands_guard_bind hm).of_iff fun _ => ?_
    simp only [List.forall_mem_cons, List.not_mem_nil, false_implies, implies_true, and_true, Granted,
      Bool.and_eq_true]
    tauto
  cases hcodec : o.codec with
  | none => exact (hset htrue).of_iff fun _ => by simp
  | some codec =>
      have hfinal : Demands (performs o.result [.mallocCompressed] >>= fun _ =>
          call o.result .compress >>= fun size => f size.isSome) fun _ =>
            (∀ c ∈ [.mallocCompressed, .compress], Granted o.result c) ∧ R := by
        refine (demands_performs_bind <| demands_success_bind o htrue hfalse).of_iff fun _ => ?_
        simp only [List.forall_mem_cons, List.not_mem_nil, false_implies, implies_true, and_true, and_assoc]
      have hzstd : Demands (performs o.result [.mallocCompressed] >>= fun _ =>
          call o.result .compress >>= fun size => guard size.isSome >>= fun _ => f true) fun _ =>
            (∀ c ∈ [.mallocCompressed, .compress], Granted o.result c) ∧ R := by
        refine (demands_performs_bind <| demands_call_bind <| demands_guard_bind htrue).of_iff
          fun _ => ?_
        simp only [List.forall_mem_cons, List.not_mem_nil, false_implies, implies_true, and_true, Granted]
        tauto
      have hsplit : (∀ c ∈ [Call.getenvCompression, .getenvLevel] ++ [.mallocCompressed, .compress],
          Granted o.result c) ∧ R ↔ (∀ c ∈ [Call.getenvCompression, .getenvLevel], Granted o.result c) ∧
            (∀ c ∈ [Call.mallocCompressed, .compress], Granted o.result c) ∧ R := by
        rw [List.forall_mem_append, and_assoc]
      cases codec with
      | zstd =>
          simp only [Effect.bind_assoc, Effect.pure_bind]
          exact (hset hzstd).of_iff fun _ => hsplit.symm
      | zlib | lz4 => exact (hset hfinal).of_iff fun _ => hsplit.symm

theorem demands_selectionChild (select : Text) :
    Demands (selectionChild o select) fun _ =>
      readsSelect select = true ∧ spans select (o.result .h5sgetSimpleExtentNdims) = true ∧
        Drains o.writes o.size ∧
          ∀ c ∈ [.closeChildEnd, .h5fopen, .h5dopen, .h5dgetSpace, .h5sgetSimpleExtentNdims,
            .h5sgetSimpleExtentDims, .h5sselectHyperslab, .h5screateSimple, .h5dgetType, .h5tgetSize,
            .mallocChild, .h5dread, .h5tclose, .h5dclose, .h5sclose, .h5fclose, .writeSize, .closeChild],
            Granted o.result c := by
  refine (demands_performs_bind <| demands_bind (demands_xrdReadDatasetInfoByChunked o select) fun _ =>
    demands_sendSelection o).of_iff fun _ => ?_
  simp only [List.forall_mem_cons, List.not_mem_nil, false_implies, implies_true, and_true]
  tauto

theorem memory_transfer (c : Call) (moved : List (Option Nat)) (left : Nat)
    (j : Journal Call (Option Nat)) : (transfer c moved left j).2.memory = j.memory := by
  induction moved generalizing left j with
  | nil => cases left <;> rfl
  | cons moved results ih =>
      cases left with
      | zero => rfl
      | succ left =>
          cases moved with
          | none => rfl
          | some count => exact ih (left + 1 - count) _

theorem memory_sendSelection (j : Journal Call (Option Nat)) (h : Completes (sendSelection o) j) :
    (sendSelection o j).2.memory = some o.size := by
  obtain ⟨_, hwritten⟩ : ∃ value, o.result .writeSize = some value := by
    have hgranted := ((demands_sendSelection o j).mp h).2.2 .writeSize List.mem_cons_self
    exact Option.isSome_iff_exists.mp hgranted
  simp only [sendSelection, bind_apply, call, outcome, hwritten, Option.isNone_some, Bool.false_eq_true,
    if_false, store, update]
  split
  · next hrun => rw [← congrArg (fun run => run.2.memory) hrun, memory_transfer]
  · next hrun =>
      rw [performs_apply]
      rw [← congrArg (fun run => run.2.memory) hrun, memory_transfer]

theorem memory_selectionChild (select : Text) (j : Journal Call (Option Nat))
    (h : Completes (selectionChild o select) j) :
    (selectionChild o select j).2.memory = some o.size :=
  memory_bind (fun _ => memory_bind fun _ => memory_sendSelection o) j h

end Pieces

/-! ## The handlers -/

section Handlers

variable (o : Outcomes)

theorem truthful_createFile : Truthful (createFile o) start ↔ Meets o .createFile := by
  simp only [createFile, xrdCreateFile, Effect.bind_assoc, Effect.ite_bind, Effect.pure_bind,
    Bool.false_eq_true, if_false, if_true]
  rw [truthful_performs_bind, truthful_tested, truthful_answer (by decide), demands_performs,
    Journal.clean_note, clean_performs]
  simp only [Meets, GoesWell, refusals, calls, List.forall_mem_cons, List.exists_mem_cons_iff,
    List.not_mem_nil, false_implies, implies_true, and_true, clean_start, true_and, false_and,
    exists_false, or_false]
  tauto

theorem truthful_deleteFile : Truthful (deleteFile o) start ↔ Meets o .deleteFile := by
  simp only [deleteFile, xrdDeleteFile, Effect.bind_assoc, Effect.pure_bind]
  rw [truthful_decided (by decide)]
  simp only [Meets, GoesWell, refusals, calls, List.mem_singleton, exists_eq_left, forall_eq,
    clean_start, or_true]
  exact iff_of_true trivial (em' _)

theorem truthful_writeValue : Truthful (writeValue o) start ↔ Meets o .writeValue := by
  simp only [writeValue, xrdWriteToDataset, Effect.bind_assoc, Effect.pure_bind, if_true]
  rw [truthful_answer (by decide), demands_performs]
  simp only [Meets, GoesWell, refusals, calls, List.not_mem_nil, false_and, exists_false, false_or,
    clean_start, true_and]

theorem truthful_createDataset (text : Text) :
    Truthful (createDataset o text) start ↔ Meets o (.createDataset text) := by
  rw [createDataset, xrdCreateDataset, Meets]
  split
  · next hbody =>
      refine iff_of_false ?_ id
      rintro ⟨_, h, -⟩
      cases h
  · exact iff_of_true truthful_refusal trivial
  · next new hbody =>
      simp only [Effect.bind_assoc, Effect.pure_bind, createCalls_eq]
      rw [truthful_performs_bind, truthful_decided (by decide), clean_performs]
      simp only [GoesWell, refusals, calls, List.forall_mem_append, List.forall_mem_cons,
        List.exists_mem_cons_iff, List.not_mem_nil, false_implies, implies_true, and_true, clean_start,
        true_and, false_and, exists_false, or_false]
      tauto

theorem truthful_datasetInfo : Truthful (datasetInfo o) start ↔ Meets o .datasetInfo := by
  have hchild : Demands (infoChild o) _ :=
    demands_bind (demands_xrdGetDatasetInfo o) fun _ => demands_shareInfo o
  have hrest : Demands (isolated .childEnds (infoChild o) >>= fun _ => receiveInfo o) _ :=
    demands_isolated_bind hchild (demands_receiveInfo o) fun j h => by rw [memory_infoChild o j h]
  rw [datasetInfo, truthful_tested, truthful_tested]
  simp only [← Effect.bind_assoc]
  rw [truthful_answer (by decide), hrest, Journal.clean_note, Journal.clean_note]
  simp only [Meets, GoesWell, refusals, calls, infoCalls, List.forall_mem_append, List.forall_mem_cons,
    List.exists_mem_cons_iff, List.not_mem_nil, false_implies, implies_true, and_true, clean_start,
    true_and, Option.isSome_some, false_and, exists_false, or_false]
  tauto

theorem truthful_readValue : Truthful (readValue o) start ↔ Meets o .readValue := by
  have hchild : Demands (performs o.result [.closeChildEnd] >>= fun _ => xrdReadDatasetInfo o >>= fun _ =>
      performs o.result [.writePointer, .writeSize]) _ :=
    demands_performs_bind <| demands_bind (demands_xrdReadDatasetInfo o) fun _ => demands_performs _
  have hrest : Demands (isolated .childEnds _ >>= fun _ =>
      performs o.result [.close, .readPointer, .readSize, .wait]) _ :=
    demands_isolated_bind hchild (demands_performs _) fun _ _ => Iff.rfl
  rw [readValue, truthful_tested, truthful_tested, ← Effect.bind_assoc]
  rw [truthful_answer (by decide), hrest, Journal.clean_note, Journal.clean_note]
  simp only [Meets, GoesWell, refusals, calls, List.forall_mem_cons, List.exists_mem_cons_iff,
    List.not_mem_nil, false_implies, implies_true, and_true, clean_start, true_and, false_and,
    exists_false, or_false]
  tauto

theorem truthful_readSelection (select : Text) :
    Truthful (readSelection o select) start ↔ Meets o (.readSelection select) := by
  have hready : Demands ((fun ready => guard ready) true : Code PUnit) fun _ => True :=
    (demands_guard true).of_iff fun _ => by simp
  have hencode : Demands (encode o >>= fun ready => guard ready) _ :=
    demands_encode_bind o hready (demands_guard false)
  have hreceive : Demands (receiveSelection o >>= fun received =>
      (if received then encode o else pure false) >>= fun ready => guard ready) _ :=
    demands_receiveSelection_bind o hencode (demands_guard false)
  have hrest : Demands (isolated .childEnds (selectionChild o select) >>= fun _ =>
      receiveSelection o >>= fun received =>
        (if received then encode o else pure false) >>= fun ready => guard ready) _ :=
    demands_isolated_bind (demands_selectionChild o select) hreceive fun j h => by
      rw [memory_selectionChild o select j h]
  rw [readSelection, truthful_silent, truthful_performs_bind, truthful_silent,
    truthful_whole (by decide), transferSelection, Effect.bind_assoc]
  simp only [Effect.bind_assoc]
  rw [hrest, Journal.clean_note, clean_performs, Journal.clean_note]
  simp only [Meets, GoesWell, refusals, calls, List.forall_mem_append, List.forall_mem_cons,
    List.not_mem_nil, false_implies, implies_true, and_true, clean_start, true_and, false_and,
    exists_false, false_or, Option.getD_some]
  tauto

end Handlers

/-- The status of an answer is true exactly under the condition above. -/
theorem truthful_handle_iff (o : Outcomes) (h : Handler) :
    Truthful (handle o h) start ↔ Meets o h := by
  cases h with
  | createFile => exact truthful_createFile o
  | deleteFile => exact truthful_deleteFile o
  | writeValue => exact truthful_writeValue o
  | createDataset text => exact truthful_createDataset o text
  | datasetInfo => exact truthful_datasetInfo o
  | readValue => exact truthful_readValue o
  | readSelection select => exact truthful_readSelection o select

/-- In a file without the dataset every call on it fails. -/
def withoutDataset : Outcomes where
  result c := if c ∈ [.h5dopen, .h5dgetType, .h5dwrite, .h5tclose, .h5dclose] then none else some 0
  writes := []
  reads := []
  size := 0
  codec := none

/-- A write to a dataset that is not there is answered with the status 200. -/
theorem not_truthful_withoutDataset : ¬ Truthful (handle withoutDataset .writeValue) start := by
  rw [handle, truthful_writeValue]
  simp [Meets, GoesWell, refusals, calls, Granted, withoutDataset]

end XHDF5.Plugin.Status
