/-
# Writes with a conversion

When the datatypes of a write differ, `RV_dataset_write` copies as many elements from the start of the
memory as are selected, converts the copy, and applies the memory selection to it. The buffer of the copy
has room for just these elements.

The model has the sizes of the memory and of this buffer, and a load or store outside has no defined
result. `H5Tconvert` and `H5Dgather` are the library's, as they are documented: the first converts packed
elements in place and leaves what is behind them open, the second loads the selected elements.
-/

import XHDF5.Client.Datatype
import XHDF5.Client.WriteList
import XHDF5.Math.Buffer

namespace XHDF5.Client.ConvertedWrite

open XHDF5.Math XHDF5.Client XHDF5.Client.WriteList

/-! ## Datatypes with a conversion -/

/-- `H5Tget_member_type` of the member that `H5Tget_member_index` finds in a compound. -/
def memberType (src : Datatype) (name : Text) : Option Datatype :=
  match src with
  | .compound _ members => (members.find? fun m => m.1 = name).map fun m => m.2.2
  | _ => none

mutual

/-- `RV_need_bkg` for a destination in memory: whether a background is needed, and `fill_bkg`. -/
def rvNeedBkg (src : Datatype) (fillBkg : Bool) : Datatype → Outcome (Bool × Bool)
  | .compound size members =>
      if size = 0 then .fail
      else (needBkgOfMembers src size 0 fillBkg members).bind fun fill => .ok (true, fill)
  | .array base dims =>
      if dims.prod * base.size = 0 then .fail
      else
        match src with
        | .array base' _ => rvNeedBkg base' fillBkg base
        -- `H5Tget_super` fails.
        | _ => .fail
  | dst => if dst.size = 0 then .fail else .ok (false, fillBkg)

/-- The loop over the members. It ends with the first that asks for the background; else the sizes of the
members may not exceed that of the compound. -/
def needBkgOfMembers (src : Datatype) (dstSize sizeUsed : Nat) (fillBkg : Bool) :
    List (Text × Nat × Datatype) → Outcome Bool
  | [] => if dstSize < sizeUsed then .undefined else .ok (fillBkg || sizeUsed != dstSize)
  | (name, _, memb) :: members =>
      match memberType src name with
      | none => .ok true
      | some srcMemb =>
          (rvNeedBkg srcMemb fillBkg memb).bind fun (_, fill) =>
            if fill then .ok true
            else needBkgOfMembers src dstSize (sizeUsed + memb.size) fill members

end

/-- `H5Tconvert` merges a compound with its background. -/
def needsBackground : Datatype → Bool
  | .compound _ _ => true
  | .array base _ => needsBackground base
  | _ => false

mutual

/-- What the library promises of a datatype: it has a size, and a compound has room for its members. -/
def WellFormed : Datatype → Prop
  | .compound size members =>
      0 < size ∧ (members.map fun m => m.2.2.size).sum ≤ size ∧ MembersWellFormed members
  | .array base dims => 0 < dims.prod * base.size ∧ WellFormed base
  | t => 0 < t.size

/-- The members of a compound. -/
def MembersWellFormed : List (Text × Nat × Datatype) → Prop
  | [] => True
  | (_, _, memb) :: members => WellFormed memb ∧ MembersWellFormed members

end

mutual

/-- What a conversion needs: only an array is converted to an array, and members are converted to those of
the same name. -/
def Convertible (src : Datatype) : Datatype → Prop
  | .compound _ members => MembersConvertible src members
  | .array base _ => ∃ base' dims', src = .array base' dims' ∧ Convertible base' base
  | _ => True

/-- The members of a compound. -/
def MembersConvertible (src : Datatype) : List (Text × Nat × Datatype) → Prop
  | [] => True
  | (name, _, memb) :: members =>
      (∀ srcMemb, memberType src name = some srcMemb → Convertible srcMemb memb) ∧
        MembersConvertible src members

end

/-- Different datatypes for the memory and the file with a conversion; `isVlen` tells variable-length
datatypes from the others that the model does not tell apart. Nothing but an object reference is converted
to one. -/
structure ConvertibleTypes where
  mem : Datatype
  file : Datatype
  isVlen : Bool
  mem_size : 0 < mem.size
  wellFormed : WellFormed file
  convertible : Convertible mem file
  file_ne : file ≠ .reference .object

/-! ## The background -/

mutual

/-- A background is made where one is needed. -/
theorem rvNeedBkg_eq {src : Datatype} (fillBkg : Bool) : {dst : Datatype} → WellFormed dst →
    Convertible src dst → ∃ fill, rvNeedBkg src fillBkg dst = .ok (needsBackground dst, fill)
  | .compound size members, hwell, hconvert => by
      rw [WellFormed] at hwell
      rw [Convertible] at hconvert
      obtain ⟨fill, hfill⟩ := @needBkgOfMembers_eq src size 0 fillBkg _
        (by rw [Nat.zero_add]; exact hwell.2.1) hwell.2.2 hconvert
      refine ⟨fill, ?_⟩
      rw [rvNeedBkg, if_neg hwell.1.ne', hfill]
      rfl
  | .array base dims, hwell, hconvert => by
      rw [WellFormed] at hwell
      rw [Convertible] at hconvert
      obtain ⟨base', dims', rfl, hbase⟩ := hconvert
      obtain ⟨fill, hfill⟩ := @rvNeedBkg_eq base' fillBkg _ hwell.2 hbase
      refine ⟨fill, ?_⟩
      rw [rvNeedBkg, if_neg hwell.1.ne']
      exact hfill
  | .integer base, hwell, _ => ⟨fillBkg, if_neg (Nat.ne_of_gt hwell)⟩
  | .float _ _, hwell, _ => ⟨fillBkg, if_neg (Nat.ne_of_gt hwell)⟩
  | .string _ _ _, hwell, _ => ⟨fillBkg, if_neg (Nat.ne_of_gt hwell)⟩
  | .enum _ _, hwell, _ => ⟨fillBkg, if_neg (Nat.ne_of_gt hwell)⟩
  | .reference _, hwell, _ => ⟨fillBkg, if_neg (Nat.ne_of_gt hwell)⟩
  | .other _, hwell, _ => ⟨fillBkg, if_neg (Nat.ne_of_gt hwell)⟩

/-- The sizes of the members add up to no more than the size of the compound. -/
theorem needBkgOfMembers_eq {src : Datatype} (dstSize sizeUsed : Nat) (fillBkg : Bool) :
    {members : List (Text × Nat × Datatype)} →
    sizeUsed + (members.map fun m => m.2.2.size).sum ≤ dstSize → MembersWellFormed members →
    MembersConvertible src members →
      ∃ fill, needBkgOfMembers src dstSize sizeUsed fillBkg members = .ok fill
  | [], hsize, _, _ => ⟨_, if_neg (by simpa using hsize)⟩
  | (name, offset, memb) :: members, hsize, hwell, hconvert => by
      rw [MembersWellFormed] at hwell
      rw [MembersConvertible] at hconvert
      rw [needBkgOfMembers]
      cases hsrc : memberType src name with
      | none => exact ⟨true, rfl⟩
      | some srcMemb =>
          obtain ⟨fill, hfill⟩ :=
            @rvNeedBkg_eq srcMemb fillBkg _ hwell.1 (hconvert.1 srcMemb hsrc)
          simp only [hfill, Outcome.ok_bind]
          cases fill with
          | true => exact ⟨true, rfl⟩
          | false =>
              refine needBkgOfMembers_eq dstSize (sizeUsed + memb.size) false ?_ hwell.2 hconvert.2
              simpa [Nat.add_assoc] using hsize

end

/-! ## The conversion -/

theorem size_pos : {t : Datatype} → WellFormed t → 0 < t.size
  | .compound _ _, h => by rw [WellFormed] at h; exact h.1
  | .array _ _, h => by rw [WellFormed] at h; exact h.1
  | .integer _, h | .float _ _, h | .string _ _ _, h | .enum _ _, h | .reference _, h | .other _, h => h

namespace ConvertibleTypes

variable (t : ConvertibleTypes)

/-- The sizes. The datatypes differ, so `RV_need_tconv` returns `TRUE`. -/
def transfer : TransferTypes where
  memSize := t.mem.size
  fileSize := t.file.size
  needsTconv := true
  memSize_pos := t.mem_size
  fileSize_pos := size_pos t.wellFormed
  same_size h := by cases h

/-- The class of the elements in the memory. -/
def kind : ElementKind :=
  match t.mem with
  | .reference _ => .reference
  | .string none _ _ => .variableLength
  | .other _ => if t.isVlen then .variableLength else .fixedLength
  | _ => .fixedLength

/-- `RV_tconv_init` for a write: the sizes of `tconv_buf` and `bkg_buf`. -/
def rvTconvInit (numElem : Nat) : Outcome (Option (Nat × Option Nat)) :=
  if numElem = 0 then .ok none
  else if t.mem.size = 0 then .fail
  else
    (rvNeedBkg t.mem false t.file).bind fun (needBkg, _) =>
      .ok (some (numElem * max t.mem.size t.file.size,
        if needBkg then some (numElem * t.file.size) else none))

variable (c : Conversion t.transfer) (behind : Memory UInt8)

/-- `H5Tconvert` of the packed elements at the start of a buffer, with a background of some size. -/
def h5Tconvert (nelmts : Nat) (buffer : Buffer UInt8) (background : Option Nat) :
    Outcome (Buffer UInt8) :=
  if buffer.Within 0 (nelmts * max t.mem.size t.file.size) ∧
      (needsBackground t.file → background.any fun size => nelmts * t.file.size ≤ size) then
    .ok ⟨behind.write 0 ((List.range nelmts).map fun k =>
      c.convert (buffer.bytes.read (k * t.mem.size) t.mem.size)).flatten, buffer.size⟩
  else .undefined

/-- `tconv_buf` after the conversion. Whether `RV_tconv_init` fails is not looked at: the elements are then
copied to a null pointer. -/
def tconvBufOf (buf : Buffer UInt8) (npoints : Nat) : Outcome (Option (Buffer UInt8)) :=
  match t.rvTconvInit npoints with
  | .undefined | .fail => .undefined
  | .ok none => .ok none
  | .ok (some (room, background)) =>
      (Buffer.store ⟨fun _ => 0, room⟩ 0 (List.replicate (t.file.size * npoints) 0)).bind fun cleared =>
        (buf.load 0 (t.mem.size * npoints)).bind fun elements =>
          (cleared.store 0 elements).bind fun copy =>
            (t.h5Tconvert c behind npoints copy background).bind fun converted => .ok (some converted)

variable {t c behind}

/-- No element beyond the memory: the copy is converted in a buffer for just these elements. -/
theorem tconvBufOf_of_le {buf : Memory UInt8} {extent npoints : Nat} (hpos : npoints ≠ 0)
    (hle : npoints ≤ extent) :
    t.tconvBufOf c behind ⟨buf, extent * t.mem.size⟩ npoints =
      .ok (some ⟨tconvBuf c buf behind npoints, npoints * max t.mem.size t.file.size⟩) := by
  obtain ⟨fill, hbkg⟩ := rvNeedBkg_eq false t.wellFormed t.convertible
  have hinit : t.rvTconvInit npoints = .ok (some (npoints * max t.mem.size t.file.size,
      if needsBackground t.file then some (npoints * t.file.size) else none)) := by
    rw [rvTconvInit, if_neg hpos, if_neg t.mem_size.ne', hbkg]
    rfl
  have hmem : t.mem.size * npoints ≤ npoints * max t.mem.size t.file.size := by
    rw [Nat.mul_comm]
    exact Nat.mul_le_mul_left _ (Nat.le_max_left _ _)
  have hfile : t.file.size * npoints ≤ npoints * max t.mem.size t.file.size := by
    rw [Nat.mul_comm]
    exact Nat.mul_le_mul_left _ (Nat.le_max_right _ _)
  rw [tconvBufOf, hinit]
  simp only
  rw [Buffer.store_of_within (Or.inr (by rw [List.length_replicate, Nat.zero_add]; exact hfile)),
    Outcome.ok_bind, Buffer.load_of_within (Or.inr (by
      rw [Nat.zero_add, Nat.mul_comm]
      exact Nat.mul_le_mul_right _ hle)),
    Outcome.ok_bind, Buffer.store_of_within (Or.inr (by
      rw [Memory.length_read, Nat.zero_add]
      exact hmem)),
    Outcome.ok_bind, h5Tconvert, if_pos]
  · -- The copied elements are those of the memory.
    rw [Outcome.ok_bind]
    have hpieces : ((List.range npoints).map fun k => c.convert
        (((Memory.write (fun _ => 0) 0 (List.replicate (t.file.size * npoints) 0)).write 0
          (buf.read 0 (t.mem.size * npoints))).read (k * t.mem.size) t.mem.size)) =
        (List.range npoints).map fun k => c.convert (buf.read (k * t.mem.size) t.mem.size) := by
      refine List.map_congr_left fun k hk => ?_
      have hlt := List.mem_range.mp hk
      rw [Memory.read_write_read (by
        rw [← Nat.succ_mul, Nat.mul_comm t.mem.size]
        exact Nat.mul_le_mul_right _ hlt)]
    rw [hpieces]
    rfl
  · refine ⟨Or.inr (Nat.le_of_eq (Nat.zero_add _)), fun hneeds => ?_⟩
    rw [if_pos hneeds]
    simp

/-- More elements than the memory has are copied from it. -/
theorem tconvBufOf_of_lt {buf : Memory UInt8} {extent npoints : Nat} (hlt : extent < npoints) :
    t.tconvBufOf c behind ⟨buf, extent * t.mem.size⟩ npoints = .undefined := by
  have hpos : npoints ≠ 0 := Nat.ne_of_gt (Nat.zero_lt_of_lt hlt)
  obtain ⟨fill, hbkg⟩ := rvNeedBkg_eq false t.wellFormed t.convertible
  rw [tconvBufOf, rvTconvInit, if_neg hpos, if_neg t.mem_size.ne', hbkg]
  simp only [Outcome.ok_bind]
  rw [Buffer.store_of_within (Or.inr (by
      rw [List.length_replicate, Nat.zero_add, Nat.mul_comm]
      exact Nat.mul_le_mul_left _ (Nat.le_max_right _ _))),
    Outcome.ok_bind, Buffer.load_of_not_within]
  · rfl
  · rintro (hzero | hle)
    · exact (Nat.mul_pos t.mem_size (Nat.pos_of_ne_zero hpos)).ne' hzero
    · rw [Nat.zero_add, Nat.mul_comm extent] at hle
      exact absurd (Nat.le_of_mul_le_mul_left hle t.mem_size) (Nat.not_le_of_lt hlt)

theorem tconvBufOf_zero (buf : Buffer UInt8) : t.tconvBufOf c behind buf 0 = .ok none := rfl

end ConvertibleTypes

/-! ## The call -/

/-- A write of elements whose datatypes differ, to a dataset of the given extent; `none` is `H5S_ALL`. -/
structure ConvertedCall where
  types : ConvertibleTypes
  uri : Text
  datasetName : Text
  dims : List Nat
  memSpace : Option Space
  fileSpace : Option { selection : Selection // selection.Inside dims }

namespace ConvertedCall

variable (w : ConvertedCall)

/-- The dataspaces and the sizes. -/
def call : WriteCall := ⟨w.types.transfer, w.dims, w.memSpace, w.fileSpace⟩

/-- The call as an entry of a list of writes. -/
def entry (c : Conversion w.types.transfer) (buf behind : Memory UInt8) : WriteEntry where
  uri := w.uri
  datasetName := w.datasetName
  call := w.call
  kind := w.types.kind
  conversion := c
  converts := true
  fillsBackground := (rvNeedBkg w.types.mem false w.types.file) = .ok (true, true)
  buf := buf
  behind := behind

/-- The selection in the URL and the text of the selection. -/
def selectionBody : Option (Option Text × Text) :=
  match w.fileSpace with
  | none => requestSelection w.types.kind.isBinary w.dims.length none
  | some selection =>
      match selection.1 with
      | .regular selection =>
          requestSelection w.types.kind.isBinary w.dims.length (some selection)
      -- `H5Sget_regular_hyperslab` fails.
      | .irregular _ => none

variable (c : Conversion w.types.transfer) (behind : Memory UInt8)

/-- The branches on the class of the elements: the buffer that `buf_to_write` then points into and where,
and `write_body_len`. -/
def selectFrom (source : Buffer UInt8) : Outcome (Buffer UInt8 × Nat × Nat) :=
  match w.types.kind with
  | .fixedLength =>
      let dtypeSize := w.types.file.size
      let writeBodyLen := w.call.file.npoints * dtypeSize
      if rvDataspaceSelectionIsContiguous w.call.mem then
        match rvConvertStartToOffset w.call.mem with
        | none => .fail
        | some offset => .ok (source, offset * dtypeSize, writeBodyLen)
      else
        (source.gather dtypeSize w.call.mem.offsets).bind fun values =>
          (Buffer.store ⟨fun _ => 0, writeBodyLen⟩ 0 values).bind fun writeBody =>
            .ok (writeBody, 0, writeBodyLen)
  | _ => .ok (source, 0, 0)

/-- `buf_to_write` and `write_body_len`, with the conversion before. -/
def bufToWriteOf (buf : Buffer UInt8) : Outcome (Buffer UInt8 × Nat × Nat) :=
  (w.types.tconvBufOf c behind buf w.call.mem.npoints).bind fun tconv =>
    w.selectFrom (tconv.getD buf)

/-- The request with the bytes at `buf_to_write`. -/
def requestOf (selection url : Text) (values : List UInt8) (len : Nat) : Outcome WriteRequest :=
  let e := w.entry c (fun _ => 0) behind
  (bodyOf fresh e selection values len).bind fun (body, bodyLength) =>
    let isTransferBinary := e.kind.isBinary && !(w.fileSpace.isSome && w.call.isPoints)
    .ok ⟨url,
      contentType isTransferBinary ::
        if selIsPoints fresh e then [lit "Content-Type: application/json"] else [],
      body, bodyLength⟩

/-- The round of `RV_dataset_write` for the call, in memory with bounds. The bytes of the body are loaded
when they are encoded or sent. -/
def rvDatasetWriteRound (baseURL : Text) (buf : Buffer UInt8) : Outcome WriteRequest :=
  match w.selectionBody with
  | none => .fail
  | some (select, selection) =>
      if w.call.mem.npoints ≠ w.call.file.npoints then .fail
      else
        (w.bufToWriteOf c behind buf).bind fun (source, start, len) =>
          match rvDatasetWriteUrl baseURL w.uri w.datasetName select with
          | none => .fail
          | some url =>
              (source.load start len).bind fun values =>
                w.requestOf c behind selection url values len

/-- The memory that the application hands over: room for its extent. -/
def memory (buf : Memory UInt8) : Buffer UInt8 := ⟨buf, w.call.mem.dims.prod * w.types.mem.size⟩

/-- The body for the selected elements, each converted, in the order of the selection. -/
def expectedBody (buf : Memory UInt8) (selection : Text) : List UInt8 :=
  let values := w.call.mem.offsets.flatMap (writtenValue c buf)
  if w.call.isPoints then pointBody selection values else values

end ConvertedCall

/-- cURL is told to send these bytes. -/
def Sends (request : WriteRequest) (body : List UInt8) : Prop :=
  request.bodyLength = body.length ∧ (body ≠ [] → request.body = some body)

/-- Whatever the memory holds and the conversion makes of it, what is sent are the selected elements, each
converted, and no byte outside a buffer is loaded or stored. -/
def Converts (baseURL : Text) (w : ConvertedCall) : Prop :=
  ∀ (c : Conversion w.types.transfer) (buf behind : Memory UInt8),
    w.rvDatasetWriteRound c behind baseURL (w.memory buf) ≠ .undefined ∧
      ∀ request select selection, w.selectionBody = some (select, selection) →
        w.rvDatasetWriteRound c behind baseURL (w.memory buf) = .ok request →
          Sends request (w.expectedBody c buf selection)

/-! ## What it needs -/

/-- The call is refused before an element is looked at. -/
def Refused (w : ConvertedCall) : Prop :=
  w.selectionBody = none ∨ w.call.mem.npoints ≠ w.call.file.npoints

/-- The URL has room for the selection. -/
def UrlFits (baseURL : Text) (w : ConvertedCall) : Prop :=
  ∃ select selection, w.selectionBody = some (select, selection) ∧
    (rvDatasetWriteUrl baseURL w.uri w.datasetName select).isSome

/-- The selected elements are the first of the memory, in some order. -/
def Packed (mem : Space) : Prop := ∀ offset ∈ mem.offsets, offset < mem.npoints

/-- The elements that are gathered lie in the buffer of the copy. -/
def GatherWithin (w : ConvertedCall) : Prop :=
  rvDataspaceSelectionIsContiguous w.call.mem = true ∨
    ∀ offset ∈ w.call.mem.offsets, offset * w.types.file.size + w.types.file.size ≤
      w.call.mem.npoints * max w.types.mem.size w.types.file.size

/-- The call is refused, nothing is selected, or there are no more elements selected than the memory has,
and: elements of a fixed length are those at its start, one point is refused, and what is refused for its
URL loads no element behind the copy. -/
def PrefixSelected (baseURL : Text) (w : ConvertedCall) : Prop :=
  Refused w ∨ w.call.mem.npoints = 0 ∨
    (w.call.mem.npoints ≤ w.call.mem.dims.prod ∧
      if w.types.kind.isSized then
        IsSinglePoint w.call.mem ∨
          (UrlFits baseURL w → Packed w.call.mem) ∧ (¬ UrlFits baseURL w → GatherWithin w)
      else ¬ UrlFits baseURL w)

section Bodies

/-- Different values make different bodies. -/
theorem pointBody_injective (selection : Text) : Function.Injective (pointBody selection) := by
  intro values values' heq
  have htext (values : List UInt8) : pointBody selection values =
      (('\x7b' :: selection ++ lit ",\"value_base64\": \"").map fun c => c.toNat.toUInt8) ++
        ((base64Text values).map fun c => c.toNat.toUInt8) ++
          (lit "\"\x7d").map fun c => c.toNat.toUInt8 := by
    rw [pointBody, (rvBase64Encode_spec values _).2, List.dropLast_concat, ← List.map_append,
      ← List.map_append]
  rw [htext, htext] at heq
  exact (isBase64_base64Text values).inj (isBase64_base64Text values')
    (List.append_cancel_left (List.append_cancel_right heq))

end Bodies

section Rounds

variable {baseURL : Text} {w : ConvertedCall} {c : Conversion w.types.transfer}
  {buf behind : Memory UInt8} {select : Option Text} {selection url : Text}

/-- Past the refusals. -/
theorem round_eq {source : Buffer UInt8} (hbody : w.selectionBody = some (select, selection))
    (hnpoints : w.call.mem.npoints = w.call.file.npoints) :
    w.rvDatasetWriteRound c behind baseURL source =
      (w.bufToWriteOf c behind source).bind fun p =>
        match rvDatasetWriteUrl baseURL w.uri w.datasetName select with
        | none => .fail
        | some url => (p.1.load p.2.1 p.2.2).bind fun values =>
            w.requestOf c behind selection url values p.2.2 := by
  unfold ConvertedCall.rvDatasetWriteRound
  simp only [hbody]
  rw [if_neg (not_not.mpr hnpoints)]

/-- The bytes of the request. -/
def sentBytes (w : ConvertedCall) (selection : Text) (values : List UInt8) : List UInt8 :=
  if w.call.isPoints then pointBody selection values else values

theorem length_pointBody (selection : Text) (values : List UInt8) :
    (pointBody selection values).length = fmtLen + selection.length + (base64Text values).length := by
  have hwritten := (rvBase64Encode_spec values (4 * values.length / 3)).2
  unfold pointBody
  rw [hwritten, List.dropLast_concat]
  simp only [List.length_map, List.length_cons, List.length_append]
  have hfmt : fmtLen = 1 + (lit ",\"value_base64\": \"").length + (lit "\"\x7d").length := by
    unfold fmtLen
    repeat rw [lit_ofList]
    rfl
  omega

theorem isSome_of_isPoints (hpoints : w.call.isPoints = true) : w.fileSpace.isSome = true := by
  unfold WriteCall.isPoints at hpoints
  split at hpoints
  · next heq => exact Option.isSome_of_eq_some heq
  · cases hpoints

/-- The body that is made of the values. -/
theorem bodyOf_eq (values : List UInt8) :
    bodyOf fresh (w.entry c buf behind) selection values values.length =
      .ok (if w.call.isPoints ∨ w.types.kind.isBinary then some (sentBytes w selection values) else none,
        (sentBytes w selection values).length) := by
  have hselPoints : selIsPoints fresh (w.entry c buf behind) = w.call.isPoints := by
    cases hpoints : w.call.isPoints with
    | true => exact (if_pos (isSome_of_isPoints hpoints)).trans hpoints
    | false =>
        unfold selIsPoints
        split
        · exact hpoints
        · rfl
  unfold bodyOf sentBytes
  rw [hselPoints]
  by_cases hpoints : w.call.isPoints = true
  · have hsome := isSome_of_isPoints hpoints
    have hnone : (w.entry c buf behind).call.fileSpace.isNone = false :=
      Option.isNone_eq_false_iff.mpr hsome
    have hlen : selectionBodyLen fresh (w.entry c buf behind) selection = selection.length := if_pos hsome
    have hwritten := (rvBase64Encode_spec values (4 * values.length / 3)).2
    rw [if_pos hpoints, if_neg (Bool.not_eq_true _ ▸ hnone), if_pos hpoints,
      if_pos (Or.inl hpoints), hlen, hwritten,
      length_pointBody, List.length_append, List.length_singleton, Nat.add_sub_cancel]
  · rw [if_neg hpoints, if_neg hpoints]
    by_cases hbinary : w.types.kind.isBinary = true
    · rw [if_pos (Or.inr hbinary)]
      exact congrArg (fun body => Outcome.ok (body, values.length)) (if_pos hbinary)
    · rw [if_neg (not_or.mpr ⟨hpoints, hbinary⟩)]
      exact congrArg (fun body => Outcome.ok (body, values.length)) (if_neg hbinary)

/-- The request that is made for values of its length. -/
theorem requestOf_eq (values : List UInt8) : ∃ request,
    w.requestOf c behind selection url values values.length = .ok request ∧
      request.bodyLength = (sentBytes w selection values).length ∧
        (w.types.kind.isBinary = true → request.body = some (sentBytes w selection values)) := by
  unfold ConvertedCall.requestOf
  simp only [bodyOf_eq, Outcome.ok_bind]
  exact ⟨_, rfl, rfl, fun hbinary => if_pos (Or.inr hbinary)⟩

theorem kind_eq (hsized : w.types.kind.isSized = true) : w.types.kind = .fixedLength := by
  unfold ConvertibleTypes.kind at hsized ⊢
  split at hsized
  · cases hsized
  · cases hsized
  · split at hsized
    · cases hsized
    · next hvlen => exact if_neg hvlen
  · rfl

theorem selectFrom_of_unsized {source : Buffer UInt8} (hsized : ¬ w.types.kind.isSized = true) :
    w.selectFrom source = .ok (source, 0, 0) := by
  unfold ConvertedCall.selectFrom
  split
  · next heq => exact absurd (by rw [heq]; rfl) hsized
  · rfl

/-- The copy for elements of the memory. -/
theorem bufToWriteOf_of_le (hpos : w.call.mem.npoints ≠ 0)
    (hle : w.call.mem.npoints ≤ w.call.mem.dims.prod) :
    w.bufToWriteOf c behind (w.memory buf) =
      w.selectFrom ⟨bufToWrite c buf behind w.call.mem.npoints,
        w.call.mem.npoints * max w.types.mem.size w.types.file.size⟩ := by
  unfold ConvertedCall.bufToWriteOf ConvertedCall.memory
  rw [ConvertibleTypes.tconvBufOf_of_le hpos hle, bufToWrite, if_pos ⟨rfl, hpos⟩]
  rfl

theorem bufToWriteOf_of_lt (hlt : w.call.mem.dims.prod < w.call.mem.npoints) :
    w.bufToWriteOf c behind (w.memory buf) = .undefined := by
  unfold ConvertedCall.bufToWriteOf ConvertedCall.memory
  rw [ConvertibleTypes.tconvBufOf_of_lt hlt]
  rfl

/-- The elements that are sent lie in the buffer of the copy. -/
def SentWithin (w : ConvertedCall) : Prop :=
  ∀ position ∈ sentPositions w.call.mem, position * w.types.file.size + w.types.file.size ≤
    w.call.mem.npoints * max w.types.mem.size w.types.file.size

/-- What is loaded from the copy. -/
theorem round_of_sized (hbody : w.selectionBody = some (select, selection))
    (hnpoints : w.call.mem.npoints = w.call.file.npoints) (hpos : w.call.mem.npoints ≠ 0)
    (hle : w.call.mem.npoints ≤ w.call.mem.dims.prod) (hsized : w.types.kind.isSized = true)
    (hsingle : ¬ IsSinglePoint w.call.mem)
    (hurl : rvDatasetWriteUrl baseURL w.uri w.datasetName select = some url) :
    ∃ values, gatheredValues c buf behind w.call.mem = some values ∧
      (SentWithin w → w.rvDatasetWriteRound c behind baseURL (w.memory buf) =
        w.requestOf c behind selection url values values.length) ∧
      (¬ SentWithin w → w.rvDatasetWriteRound c behind baseURL (w.memory buf) = .undefined) := by
  obtain ⟨values, hvalues⟩ : ∃ values, values = (sentPositions w.call.mem).flatMap fun position =>
      (bufToWrite c buf behind w.call.mem.npoints).read (position * w.types.file.size)
        w.types.file.size := ⟨_, rfl⟩
  have hgathered : gatheredValues c buf behind w.call.mem = some values := by
    rw [hvalues]
    exact gatheredValues_eq c buf behind (mt isSinglePoint_iff.mpr hsingle)
  have hlength : values.length = w.call.mem.npoints * w.types.file.size := by
    rw [hvalues]
    exact @length_gathered w.call c buf behind w.call.mem
  refine ⟨values, hgathered, ?_⟩
  rw [round_eq hbody hnpoints, bufToWriteOf_of_le hpos hle, hlength]
  simp only [hurl]
  unfold ConvertedCall.selectFrom
  simp only [kind_eq hsized, ← hnpoints]
  by_cases hcontiguous : rvDataspaceSelectionIsContiguous w.call.mem = true
  · obtain ⟨start, hstart⟩ := Option.ne_none_iff_exists'.mp fun hnone =>
      hsingle (isSinglePoint_iff.mpr ⟨hcontiguous, hnone⟩)
    have hsent : sentPositions w.call.mem = List.range' start w.call.mem.npoints := by
      rw [sentPositions, if_pos hcontiguous, hstart, Option.getD_some]
    have hwithin : SentWithin w ↔
        (⟨bufToWrite c buf behind w.call.mem.npoints,
          w.call.mem.npoints * max w.types.mem.size w.types.file.size⟩ : Buffer UInt8).Within
            (start * w.types.file.size) (w.call.mem.npoints * w.types.file.size) := by
      rw [SentWithin, hsent, Buffer.Within, ← Nat.add_mul]
      constructor
      · intro hall
        have hlast := hall (start + w.call.mem.npoints - 1) (List.mem_range'_1.mpr (by omega))
        rw [← Nat.succ_mul, show (start + w.call.mem.npoints - 1).succ = start + w.call.mem.npoints by
          omega] at hlast
        exact Or.inr hlast
      · rintro (hzero | hle) position hposition
        · exact absurd hzero (Nat.mul_ne_zero hpos (size_pos w.types.wellFormed).ne')
        · have hlt := (List.mem_range'_1.mp hposition).2
          rw [← Nat.succ_mul]
          exact (Nat.mul_le_mul_right _ hlt).trans hle
    simp only [hcontiguous, if_true, hstart, Outcome.ok_bind]
    refine ⟨fun hsentWithin => ?_, fun hoff => ?_⟩
    · rw [Buffer.load_of_within (hwithin.mp hsentWithin), Outcome.ok_bind, Memory.read_mul, hvalues,
        hsent]
    · rw [Buffer.load_of_not_within (mt hwithin.mpr hoff)]
      rfl
  · have hsent : sentPositions w.call.mem = w.call.mem.offsets := by
      rw [sentPositions, if_neg hcontiguous]
    have hpositive := (size_pos w.types.wellFormed).ne'
    have hwithin : SentWithin w ↔ ∀ position ∈ w.call.mem.offsets,
        (⟨bufToWrite c buf behind w.call.mem.npoints,
          w.call.mem.npoints * max w.types.mem.size w.types.file.size⟩ : Buffer UInt8).Within
            (position * w.types.file.size) w.types.file.size := by
      rw [SentWithin, hsent]
      exact forall₂_congr fun position _ => ⟨Or.inr, fun h => h.resolve_left hpositive⟩
    rw [hsent] at hvalues
    simp only [hcontiguous, Bool.false_eq_true, if_false]
    refine ⟨fun hsentWithin => ?_, fun hoff => ?_⟩
    · rw [Buffer.gather_of_within (hwithin.mp hsentWithin), ← hvalues, Outcome.ok_bind,
        Buffer.store_of_within (Or.inr (by rw [Nat.zero_add]; exact hlength.le)), Outcome.ok_bind,
        Outcome.ok_bind, Buffer.load_of_within (Or.inr (Nat.zero_add _).le), Outcome.ok_bind,
        ← hlength, Memory.read_write_self]
    · rw [Buffer.gather_of_not_within (mt hwithin.mpr hoff)]
      rfl

end Rounds

/-! ## Selections at the start of the memory -/

section Packed

variable {mem : Space}

theorem startsFit_of_zero {axes : List (Nat × Nat)} (h : ∀ axis ∈ axes, axis.2 = 0) (offset : Nat) :
    StartsFit offset axes := by
  induction axes generalizing offset with
  | nil => trivial
  | cons axis axes ih =>
      obtain ⟨haxis, hrest⟩ := List.forall_mem_cons.mp h
      exact ⟨Or.inl haxis, ih hrest _⟩

/-- Only the corner has the position zero. -/
theorem starts_eq_zero {dims starts : List Nat} (hlen : starts.length = dims.length)
    (hpos : ∀ dim ∈ dims, 0 < dim) (hzero : ravel dims starts = 0) : ∀ start ∈ starts, start = 0 := by
  induction dims generalizing starts with
  | nil =>
      obtain rfl := List.length_eq_zero_iff.mp hlen
      exact fun _ hmem => absurd hmem List.not_mem_nil
  | cons dim dims ih =>
      cases starts with
      | nil => cases hlen
      | cons start starts =>
          obtain ⟨-, hrest⟩ := List.forall_mem_cons.mp hpos
          rw [ravel_cons] at hzero
          obtain ⟨hfirst, hothers⟩ := Nat.add_eq_zero_iff.mp hzero
          refine List.forall_mem_cons.mpr ⟨?_, ih (Nat.succ.inj hlen) hrest hothers⟩
          exact (Nat.mul_eq_zero.mp hfirst).resolve_right (List.prod_pos_iff_forall_pos_nat.mpr hrest).ne'

/-- The first element of a contiguous selection at the start is the first of the memory. -/
theorem first_of_packed (hpacked : Packed mem) (hpos : mem.npoints ≠ 0)
    (hcontiguous : rvDataspaceSelectionIsContiguous mem = true)
    (hoffset : rvConvertStartToOffset mem ≠ none) : mem.first = 0 := by
  have hlast := hpacked (mem.first + mem.npoints - 1) (by
    rw [offsets_eq_range' hcontiguous hoffset, List.mem_range'_1]
    omega)
  omega

/-- The gather fits a selection at the start. -/
theorem gatherFits_of_packed (hpacked : Packed mem) (hpos : mem.npoints ≠ 0)
    (hsingle : ¬ IsSinglePoint mem) : GatherFits true mem := by
  refine ⟨fun hcontiguous => ?_, fun _ => hpacked⟩
  have hfirst := first_of_packed hpacked hpos hcontiguous fun hnone =>
    hsingle (isSinglePoint_iff.mpr ⟨hcontiguous, hnone⟩)
  have hinside := mem.inside
  unfold Space.first at hfirst
  unfold OffsetFits
  cases hs : mem.selection with
  | irregular list => trivial
  | regular selection =>
      cases selection with
      | all | none | points list => trivial
      | hyperslab slabs =>
          rw [hs] at hinside hfirst
          have hlen : (slabs.map Slab.start).length = mem.dims.length := by
            simpa using hinside.2.length_eq
          have hzero := starts_eq_zero hlen (dims_pos hinside.2) hfirst
          refine startsFit_of_zero (fun axis haxis => ?_) _
          exact hzero _ (List.of_mem_zip (List.mem_of_mem_tail haxis)).2

end Packed

/-! ## When the selected elements are sent -/

section Exact

variable {baseURL : Text} {w : ConvertedCall} {select : Option Text} {selection url : Text}

theorem converts_of_fail (h : ∀ (c : Conversion w.types.transfer) (buf behind : Memory UInt8),
    w.rvDatasetWriteRound c behind baseURL (w.memory buf) = .fail) : Converts baseURL w := by
  intro c buf behind
  rw [h c buf behind]
  exact ⟨nofun, nofun⟩

theorem not_converts_of_undefined
    (h : ∀ (c : Conversion w.types.transfer) (buf behind : Memory UInt8),
      w.rvDatasetWriteRound c behind baseURL (w.memory buf) = .undefined) : ¬ Converts baseURL w :=
  fun hconverts => (hconverts (markedConversion _) (fun _ => 0) fun _ => 0).1 (h _ _ _)

theorem urlFits_iff (hbody : w.selectionBody = some (select, selection)) :
    UrlFits baseURL w ↔ (rvDatasetWriteUrl baseURL w.uri w.datasetName select).isSome := by
  constructor
  · rintro ⟨select', selection', hbody', hurl⟩
    rw [hbody] at hbody'
    cases hbody'
    exact hurl
  · exact fun hurl => ⟨select, selection, hbody, hurl⟩

/-- The values that are expected are as long as the elements. -/
theorem length_expected (c : Conversion w.types.transfer) (buf : Memory UInt8) :
    (w.call.mem.offsets.flatMap (writtenValue c buf)).length =
      w.call.mem.npoints * w.types.file.size := by
  rw [List.flatMap_def, Memory.length_flatten_of_size, List.length_map]
  · rfl
  · intro piece hpiece
    obtain ⟨position, -, rfl⟩ := List.mem_map.mp hpiece
    exact length_writtenValue c buf position

/-- Without elements nothing is loaded and nothing is sent. -/
theorem converts_of_zero (hbody : w.selectionBody = some (select, selection))
    (hnpoints : w.call.mem.npoints = w.call.file.npoints) (hzero : w.call.mem.npoints = 0) :
    Converts baseURL w := by
  have hnotPoints : ¬ w.call.isPoints = true := fun hpoints => by
    have hpos := npoints_pos_of_isPoints hpoints
    omega
  intro c buf behind
  obtain ⟨start, hselect⟩ : ∃ start, w.bufToWriteOf c behind (w.memory buf) =
      .ok (w.memory buf, start, 0) := by
    rw [ConvertedCall.bufToWriteOf, hzero, ConvertibleTypes.tconvBufOf_zero, Outcome.ok_bind,
      Option.getD_none]
    by_cases hsized : w.types.kind.isSized = true
    · have hcontiguous : rvDataspaceSelectionIsContiguous w.call.mem = true := by
        rw [rvDataspaceSelectionIsContiguous, if_pos (by omega)]
      obtain ⟨start, hstart⟩ := Option.ne_none_iff_exists'.mp fun hnone => by
        obtain ⟨point, hpoint⟩ := isSinglePoint_iff.mpr ⟨hcontiguous, hnone⟩
        rw [Space.npoints, Space.offsets, hpoint] at hzero
        cases hzero
      refine ⟨start * w.types.file.size, ?_⟩
      unfold ConvertedCall.selectFrom
      simp only [kind_eq hsized, hcontiguous, if_true, hstart, ← hnpoints, hzero, Nat.zero_mul]
    · exact ⟨0, selectFrom_of_unsized hsized⟩
  cases hurl : rvDatasetWriteUrl baseURL w.uri w.datasetName select with
  | none =>
      have hround : w.rvDatasetWriteRound c behind baseURL (w.memory buf) = .fail := by
        rw [round_eq hbody hnpoints, hselect, Outcome.ok_bind]
        simp only [hurl]
      rw [hround]
      exact ⟨by simp, by simp⟩
  | some url =>
      have hround : w.rvDatasetWriteRound c behind baseURL (w.memory buf) =
          w.requestOf c behind selection url [] 0 := by
        rw [round_eq hbody hnpoints, hselect, Outcome.ok_bind]
        simp only [hurl]
        rw [Buffer.load_of_within (Or.inl rfl)]
        rfl
      obtain ⟨request, hrequest, hlength, -⟩ := @requestOf_eq w c behind selection url []
      rw [hround]
      refine ⟨fun hundefined => ?_, fun request' select' selection' _ hok => ?_⟩
      · cases hrequest.symm.trans hundefined
      · obtain rfl := Outcome.ok.inj (hrequest.symm.trans hok)
        have hexpected : w.call.mem.offsets.flatMap (writtenValue c buf) = [] := by
          rw [← List.length_eq_zero_iff, length_expected, hzero, Nat.zero_mul]
        have hnil : w.expectedBody c buf selection' = [] := by
          rw [ConvertedCall.expectedBody, hexpected]
          exact if_neg hnotPoints
        rw [hnil]
        refine ⟨?_, fun hne => absurd rfl hne⟩
        rw [hlength, sentBytes, if_neg hnotPoints]

/-- Values make the body longer. -/
theorem eq_nil_of_length_sentBytes {values : List UInt8}
    (h : (sentBytes w selection []).length = (sentBytes w selection values).length) :
    values = [] := by
  unfold sentBytes at h
  by_cases hpoints : w.call.isPoints = true
  · rw [if_pos hpoints, if_pos hpoints, length_pointBody, length_pointBody] at h
    have hnil : (base64Text []).length = 0 := rfl
    exact base64Text_eq_nil (List.length_eq_zero_iff.mp (by omega))
  · rw [if_neg hpoints, if_neg hpoints] at h
    exact List.length_eq_zero_iff.mp h.symm

/-- The body of elements that have no fixed length is empty of values. -/
theorem not_converts_of_unsized (hbody : w.selectionBody = some (select, selection))
    (hnpoints : w.call.mem.npoints = w.call.file.npoints) (hpos : w.call.mem.npoints ≠ 0)
    (hle : w.call.mem.npoints ≤ w.call.mem.dims.prod) (hsized : ¬ w.types.kind.isSized = true)
    (hurl : rvDatasetWriteUrl baseURL w.uri w.datasetName select = some url) :
    ¬ Converts baseURL w := by
  intro hconverts
  have hround := (hconverts (markedConversion _) (fun _ => 0) fun _ => 0).2
  obtain ⟨request, hrequest, hlength, -⟩ :=
    @requestOf_eq w (markedConversion _) (fun _ => 0) selection url []
  have hsends := hround request select selection hbody (by
    rw [round_eq hbody hnpoints, bufToWriteOf_of_le hpos hle, selectFrom_of_unsized hsized,
      Outcome.ok_bind]
    simp only [hurl]
    rw [Buffer.load_of_within (Or.inl rfl), Outcome.ok_bind]
    exact hrequest)
  have hexpected := length_expected (w := w) (markedConversion _) fun _ => 0
  have hmany : 0 < w.call.mem.npoints * w.types.file.size :=
    Nat.mul_pos (Nat.pos_of_ne_zero hpos) (size_pos w.types.wellFormed)
  have hnil := eq_nil_of_length_sentBytes (hlength.symm.trans hsends.1)
  rw [hnil] at hexpected
  exact hmany.ne hexpected

/-- One point is refused once it is converted. -/
theorem converts_of_single (hbody : w.selectionBody = some (select, selection))
    (hnpoints : w.call.mem.npoints = w.call.file.npoints) (hpos : w.call.mem.npoints ≠ 0)
    (hle : w.call.mem.npoints ≤ w.call.mem.dims.prod) (hsized : w.types.kind.isSized = true)
    (hsingle : IsSinglePoint w.call.mem) : Converts baseURL w := by
  obtain ⟨hcontiguous, hnone⟩ := isSinglePoint_iff.mp hsingle
  refine converts_of_fail fun c buf behind => ?_
  rw [round_eq hbody hnpoints, bufToWriteOf_of_le hpos hle, ConvertedCall.selectFrom]
  simp only [kind_eq hsized, hcontiguous, if_true, hnone, Outcome.fail_bind]

/-- A URL that does not fit is found after the gather. -/
theorem converts_iff_of_no_url (hbody : w.selectionBody = some (select, selection))
    (hnpoints : w.call.mem.npoints = w.call.file.npoints) (hpos : w.call.mem.npoints ≠ 0)
    (hle : w.call.mem.npoints ≤ w.call.mem.dims.prod) (hsized : w.types.kind.isSized = true)
    (hsingle : ¬ IsSinglePoint w.call.mem)
    (hurl : rvDatasetWriteUrl baseURL w.uri w.datasetName select = none) :
    Converts baseURL w ↔ GatherWithin w := by
  by_cases hcontiguous : rvDataspaceSelectionIsContiguous w.call.mem = true
  · refine iff_of_true (converts_of_fail fun c buf behind => ?_) (Or.inl hcontiguous)
    obtain ⟨start, hstart⟩ := Option.ne_none_iff_exists'.mp fun hnone =>
      hsingle (isSinglePoint_iff.mpr ⟨hcontiguous, hnone⟩)
    rw [round_eq hbody hnpoints, bufToWriteOf_of_le hpos hle, ConvertedCall.selectFrom]
    simp only [kind_eq hsized, hcontiguous, if_true, hstart, Outcome.ok_bind, hurl]
  · have hpositive := (size_pos w.types.wellFormed).ne'
    by_cases hgather : ∀ offset ∈ w.call.mem.offsets,
        offset * w.types.file.size + w.types.file.size ≤
          w.call.mem.npoints * max w.types.mem.size w.types.file.size
    · refine iff_of_true (converts_of_fail fun c buf behind => ?_) (Or.inr hgather)
      have hlength := @length_gathered w.call c buf behind w.call.mem
      rw [sentPositions, if_neg hcontiguous] at hlength
      rw [round_eq hbody hnpoints, bufToWriteOf_of_le hpos hle, ConvertedCall.selectFrom]
      simp only [kind_eq hsized, hcontiguous, Bool.false_eq_true, if_false]
      rw [Buffer.gather_of_within fun position hposition => Or.inr (hgather position hposition),
        Outcome.ok_bind, Buffer.store_of_within (Or.inr (by
          rw [Nat.zero_add, ← hnpoints]
          exact hlength.le)), Outcome.ok_bind, Outcome.ok_bind]
      simp only [hurl]
    · refine iff_of_false (not_converts_of_undefined fun c buf behind => ?_) fun hwithin =>
        hwithin.elim hcontiguous hgather
      rw [round_eq hbody hnpoints, bufToWriteOf_of_le hpos hle, ConvertedCall.selectFrom]
      simp only [kind_eq hsized, hcontiguous, Bool.false_eq_true, if_false]
      rw [Buffer.gather_of_not_within fun hall => hgather fun offset hoffset =>
        (hall offset hoffset).resolve_left hpositive]
      rfl

/-- A selection at the start is sent from the copy. -/
theorem converts_of_packed (hbody : w.selectionBody = some (select, selection))
    (hnpoints : w.call.mem.npoints = w.call.file.npoints) (hpos : w.call.mem.npoints ≠ 0)
    (hle : w.call.mem.npoints ≤ w.call.mem.dims.prod) (hsized : w.types.kind.isSized = true)
    (hsingle : ¬ IsSinglePoint w.call.mem) (hpacked : Packed w.call.mem)
    (hurl : rvDatasetWriteUrl baseURL w.uri w.datasetName select = some url) :
    Converts baseURL w := by
  have hfits := gatherFits_of_packed hpacked hpos hsingle
  have hwithin : SentWithin w := by
    have hsent : ∀ position ∈ sentPositions w.call.mem, position < w.call.mem.npoints := by
      intro position hposition
      by_cases hcontiguous : rvDataspaceSelectionIsContiguous w.call.mem = true
      · have hoffset : rvConvertStartToOffset w.call.mem ≠ none := fun hnone =>
          hsingle (isSinglePoint_iff.mpr ⟨hcontiguous, hnone⟩)
        rw [sentPositions, if_pos hcontiguous,
          (rvConvertStartToOffset_eq_iff hcontiguous hoffset).mpr (hfits.1 hcontiguous),
          Option.getD_some, first_of_packed hpacked hpos hcontiguous hoffset,
          List.mem_range'_1] at hposition
        omega
      · rw [sentPositions, if_neg hcontiguous] at hposition
        exact hpacked position hposition
    intro position hposition
    rw [← Nat.succ_mul]
    exact Nat.mul_le_mul (hsent position hposition) (Nat.le_max_right _ _)
  intro c buf behind
  obtain ⟨values, hvalues, hround, -⟩ := @round_of_sized baseURL w c buf behind select selection url
    hbody hnpoints hpos hle hsized hsingle hurl
  obtain ⟨request, hrequest, hlength, hrequestBody⟩ :=
    @requestOf_eq w c behind selection url values
  rw [hround hwithin, hrequest]
  refine ⟨(by rintro ⟨⟩), fun request' select' selection' hbody' hok => ?_⟩
  obtain rfl := Outcome.ok.inj hok
  obtain rfl : selection = selection' := by
    rw [hbody] at hbody'
    exact congrArg Prod.snd (Option.some.inj hbody')
  have hexpected : w.expectedBody c buf selection = sentBytes w selection values := by
    rw [gatheredValues_of_fits c buf behind hfits hvalues]
    rfl
  have hbinary : w.types.kind.isBinary = true := by
    rw [kind_eq hsized]
    rfl
  rw [hexpected]
  exact ⟨hlength, fun _ => hrequestBody hbinary⟩

/-- Other selections show it for some memory. -/
theorem not_converts_of_not_packed (hbody : w.selectionBody = some (select, selection))
    (hnpoints : w.call.mem.npoints = w.call.file.npoints) (hpos : w.call.mem.npoints ≠ 0)
    (hle : w.call.mem.npoints ≤ w.call.mem.dims.prod) (hsized : w.types.kind.isSized = true)
    (hsingle : ¬ IsSinglePoint w.call.mem) (hpacked : ¬ Packed w.call.mem)
    (hurl : rvDatasetWriteUrl baseURL w.uri w.datasetName select = some url) :
    ¬ Converts baseURL w := by
  by_cases hwithin : SentWithin w
  · intro hconverts
    have hsome := mt isSinglePoint_iff.mpr hsingle
    obtain ⟨c, buf, behind, k, sent, position, hsent, hposition, hwrong⟩ :=
      @exists_wrong_value w.types.transfer w.call.mem (Nat.pos_of_ne_zero hpos) hsome
        fun hfits => hpacked (hfits.2 rfl)
    obtain ⟨values, hvalues, hround, -⟩ := @round_of_sized baseURL w c buf behind select selection
      url hbody hnpoints hpos hle hsized hsingle hurl
    obtain ⟨request, hrequest, hlength, hrequestBody⟩ :=
      @requestOf_eq w c behind selection url values
    obtain ⟨hlen, hbodyEq⟩ := (hconverts c buf behind).2 request select selection hbody
      ((hround hwithin).trans hrequest)
    -- The bodies agree, so the values do, and with them each element.
    have hsame : sentBytes w selection values = w.expectedBody c buf selection := by
      by_cases hnil : w.expectedBody c buf selection = []
      · rw [hnil, ← List.length_eq_zero_iff, ← hlength, hlen, hnil]
        rfl
      · have hbinary : w.types.kind.isBinary = true := by
          rw [kind_eq hsized]
          rfl
        exact Option.some.inj ((hrequestBody hbinary).symm.trans (hbodyEq hnil))
    have hflat : values = w.call.mem.offsets.flatMap (writtenValue c buf) := by
      unfold sentBytes ConvertedCall.expectedBody at hsame
      by_cases hpoints : w.call.isPoints = true
      · rw [if_pos hpoints] at hsame
        exact pointBody_injective selection (hsame.trans (if_pos hpoints))
      · rw [if_neg hpoints] at hsame
        exact hsame.trans (if_neg hpoints)
    rw [gatheredValues_eq c buf behind hsome] at hvalues
    rw [← Option.some.inj hvalues, List.flatMap_def, List.flatMap_def] at hflat
    have hpieces := @Memory.eq_of_flatten_eq _ _ _ w.types.file.size
      (List.forall_mem_map.mpr fun position _ => Memory.length_read _)
      (List.forall_mem_map.mpr fun position _ => length_writtenValue c buf position)
      (by rw [List.length_map, List.length_map, length_sentPositions]; rfl) hflat
    have hpiece := congrArg (fun pieces => pieces[k]?) hpieces
    simp only [List.getElem?_map, hsent, hposition, Option.map_some] at hpiece
    exact hwrong (Option.some.inj hpiece)
  · refine not_converts_of_undefined fun c buf behind => ?_
    obtain ⟨-, -, -, hundefined⟩ := @round_of_sized baseURL w c buf behind select selection url
      hbody hnpoints hpos hle hsized hsingle hurl
    exact hundefined hwithin

/-- The selected elements are sent, each converted, exactly when they are a prefix of the memory. -/
theorem converts_iff (baseURL : Text) (w : ConvertedCall) :
    Converts baseURL w ↔ PrefixSelected baseURL w := by
  cases hbody : w.selectionBody with
  | none =>
      refine iff_of_true (converts_of_fail fun c buf behind => ?_) (Or.inl (Or.inl hbody))
      rw [ConvertedCall.rvDatasetWriteRound]
      simp only [hbody]
  | some body =>
      obtain ⟨select, selection⟩ := body
      by_cases hnpoints : w.call.mem.npoints = w.call.file.npoints
      · have hrefused : ¬ Refused w := by
          rintro (hnone | hne)
          · rw [hbody] at hnone
            cases hnone
          · exact hne hnpoints
        rw [PrefixSelected, or_iff_right hrefused, urlFits_iff hbody]
        by_cases hpos : w.call.mem.npoints = 0
        · exact iff_of_true (converts_of_zero hbody hnpoints hpos) (Or.inl hpos)
        rw [or_iff_right hpos]
        by_cases hle : w.call.mem.npoints ≤ w.call.mem.dims.prod
        · rw [and_iff_right hle]
          by_cases hsized : w.types.kind.isSized = true
          · rw [if_pos hsized]
            by_cases hsingle : IsSinglePoint w.call.mem
            · exact iff_of_true (converts_of_single hbody hnpoints hpos hle hsized hsingle)
                (Or.inl hsingle)
            rw [or_iff_right hsingle]
            cases hurl : rvDatasetWriteUrl baseURL w.uri w.datasetName select with
            | none =>
                rw [converts_iff_of_no_url hbody hnpoints hpos hle hsized hsingle hurl]
                simp
            | some url =>
                have hiff : Converts baseURL w ↔ Packed w.call.mem := by
                  by_cases hpacked : Packed w.call.mem
                  · exact iff_of_true
                      (converts_of_packed hbody hnpoints hpos hle hsized hsingle hpacked hurl) hpacked
                  · exact iff_of_false (not_converts_of_not_packed hbody hnpoints hpos hle hsized
                      hsingle hpacked hurl) hpacked
                rw [hiff]
                simp
          · rw [if_neg hsized]
            cases hurl : rvDatasetWriteUrl baseURL w.uri w.datasetName select with
            | none =>
                refine iff_of_true (converts_of_fail fun c buf behind => ?_) (by simp)
                rw [round_eq hbody hnpoints, bufToWriteOf_of_le hpos hle,
                  selectFrom_of_unsized hsized, Outcome.ok_bind]
                simp only [hurl]
            | some url =>
                exact iff_of_false
                  (not_converts_of_unsized hbody hnpoints hpos hle hsized hurl) (by simp)
        · refine iff_of_false (not_converts_of_undefined fun c buf behind => ?_) fun h => hle h.1
          rw [round_eq hbody hnpoints, bufToWriteOf_of_lt (Nat.lt_of_not_le hle)]
          rfl
      · refine iff_of_true (converts_of_fail fun c buf behind => ?_) (Or.inl (Or.inr hnpoints))
        rw [ConvertedCall.rvDatasetWriteRound]
        simp only [hbody]
        exact if_pos hnpoints

end Exact

/-! ## The second half of a vector -/

/-- Integers of two bytes in memory, of four in the file. -/
def widening : ConvertibleTypes where
  mem := .integer ⟨2, .little, true⟩
  file := .integer ⟨4, .little, true⟩
  isVlen := false
  mem_size := by decide
  wellFormed := by
    unfold WellFormed
    decide
  convertible := trivial
  file_ne := nofun

/-- The last two of four elements, written to a dataset of two. -/
def secondHalf : ConvertedCall where
  types := widening
  uri := ['d']
  datasetName := ['/', 'd']
  dims := [2]
  memSpace := some ⟨[4], .regular (.hyperslab [Slab.range 2 4 (by decide)]), by
    simp [Selection.Inside, Slab.Inside, Slab.range]⟩
  fileSpace := none

theorem not_converts_secondHalf : ¬ Converts ['h'] secondHalf := by
  obtain ⟨url, hurl⟩ : ∃ url, rvDatasetWriteUrl ['h'] ['d'] ['/', 'd'] none = some url :=
    Option.isSome_iff_exists.mp (by decide +kernel)
  refine @not_converts_of_not_packed ['h'] secondHalf none [] url rfl ?_ ?_ ?_ ?_ ?_ ?_ hurl
  · decide
  · decide
  · decide
  · rfl
  · rintro ⟨point, hpoint⟩
    cases hpoint
  · intro hpacked
    have hlt := hpacked 2 (by decide)
    revert hlt
    decide

end XHDF5.Client.ConvertedWrite
