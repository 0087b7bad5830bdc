/-
# The request of a write

`RV_dataset_write` converts the memory it was given, takes the selected elements from the result
and sends them in one PUT request. Only the first elements of the memory are converted, whatever
is selected, and the selection is then applied to the converted elements.

The elements have a fixed length and are not references; for elements of variable length the
client sends nothing. `H5Tconvert` and `H5Dgather` are the library's: the first converts one
element after the other, the second copies the selected ones in the order of the selection.
-/

import XHDF5.Client.Base64
import XHDF5.Client.Dataspace
import XHDF5.Client.Url
import XHDF5.Math.Region
import XHDF5.Math.Run

namespace XHDF5.Client

open XHDF5.Math

/-! ## The body for points -/

/-- The JSON body of a write to points. The buffer for the encoded values has four thirds of their
size, and the text ends before its terminator. -/
def pointBody (selection : Text) (values : List UInt8) : List UInt8 :=
  let encoded := (rvBase64Encode values (4 * values.length / 3)).written.dropLast
  ('\x7b' :: selection ++ lit ",\"value_base64\": \"" ++ encoded ++ lit "\"\x7d").map
    fun c => c.toNat.toUInt8

/-! ## The values -/

/-- The datatypes of a write. Equal types need no conversion. -/
structure TransferTypes where
  memSize : Nat
  fileSize : Nat
  needsTconv : Bool
  memSize_pos : 0 < memSize
  fileSize_pos : 0 < fileSize
  same_size : needsTconv = false → memSize = fileSize

/-- `H5Tconvert` of one element. -/
structure Conversion (t : TransferTypes) where
  convert : List UInt8 → List UInt8
  length_convert : ∀ element, (convert element).length = t.fileSize

section Values

variable {t : TransferTypes} (c : Conversion t) (buf leftover : Memory UInt8)

/-- `tconv_buf` after the conversion. Behind the converted elements it holds something else. -/
def tconvBuf (npoints : Nat) : Memory UInt8 :=
  leftover.write 0
    ((List.range npoints).map fun k => c.convert (buf.read (k * t.memSize) t.memSize)).flatten

/-- `buf_to_write`. No buffer is allocated for no elements. -/
def bufToWrite (npoints : Nat) : Memory UInt8 :=
  if t.needsTconv ∧ npoints ≠ 0 then tconvBuf c buf leftover npoints else buf

/-- The element of the memory at a position, as the file is to hold it. -/
def writtenValue (position : Nat) : List UInt8 :=
  let element := buf.read (position * t.memSize) t.memSize
  if t.needsTconv then c.convert element else element

/-- The bytes that are taken from the memory: from the first element on if the selection is
contiguous, and by `H5Dgather` otherwise. -/
def gatheredValues (mem : Space) : Option (List UInt8) :=
  let source := bufToWrite c buf leftover mem.npoints
  if rvDataspaceSelectionIsContiguous mem then
    (rvConvertStartToOffset mem).map fun offset =>
      source.read (offset * t.fileSize) (mem.npoints * t.fileSize)
  else some (mem.offsets.flatMap fun offset => source.read (offset * t.fileSize) t.fileSize)

end Values

/-! ## The request -/

/-- The dataspaces and datatypes of a write to a dataset of the given extent; `none` is `H5S_ALL`. -/
structure WriteCall where
  types : TransferTypes
  dims : List Nat
  memSpace : Option Space
  fileSpace : Option { selection : Selection // selection.Inside dims }

namespace WriteCall

variable (call : WriteCall)

/-- The file dataspace after the semantics of `H5S_ALL`. -/
def file : Space :=
  match call.fileSpace with
  | none => Space.whole call.dims
  | some selection => ⟨call.dims, selection.1, selection.2⟩

/-- The memory dataspace after the semantics of `H5S_ALL`: without one, the selection of the file
dataspace is used for the memory also. -/
def mem : Space := call.memSpace.getD call.file

/-- The selection in the URL and the text of the selection. -/
def selectionBody : Option (Option Text × Text) :=
  match call.fileSpace with
  | none => requestSelection true call.dims.length none
  | some selection =>
      match selection.1 with
      | .regular selection => requestSelection true call.dims.length (some selection)
      -- `H5Sget_regular_hyperslab` fails.
      | .irregular _ => none

/-- The comparison of `sel_type` with `H5S_SEL_POINTS`. -/
def isPoints : Bool :=
  match call.fileSpace with
  | some ⟨.regular (.points _), _⟩ => true
  | _ => false

end WriteCall

/-- A PUT request. -/
structure PutRequest where
  url : Text
  body : List UInt8

/-- `RV_dataset_write` for one dataset. A handle with nothing to send is not added. -/
def rvDatasetWrite (baseURL uri datasetName : Text) (call : WriteCall) (c : Conversion call.types)
    (buf leftover : Memory UInt8) : Outcome (Option PutRequest) :=
  match call.selectionBody with
  | none => .fail
  | some (select, selection) =>
      if call.mem.npoints ≠ call.file.npoints then .fail
      else
        match gatheredValues c buf leftover call.mem with
        | none => .fail
        | some values =>
            match rvDatasetWriteUrl baseURL uri datasetName select with
            | none => .fail
            | some url =>
                let body := if call.isPoints then pointBody selection values else values
                .ok (if body = [] then none else some ⟨url, body⟩)

/-! ## What is taken from the memory -/

/-- The positions whose converted elements are sent. -/
def sentPositions (mem : Space) : List Nat :=
  if rvDataspaceSelectionIsContiguous mem then
    List.range' ((rvConvertStartToOffset mem).getD 0) mem.npoints
  else mem.offsets

/-- The elements that are sent are the selected ones: the first of them is found, and all of them
are converted. -/
def GatherFits (needsTconv : Bool) (mem : Space) : Prop :=
  (rvDataspaceSelectionIsContiguous mem = true → OffsetFits mem) ∧
    (needsTconv = true → ∀ offset ∈ mem.offsets, offset < mem.npoints)

instance (needsTconv : Bool) (mem : Space) : Decidable (GatherFits needsTconv mem) :=
  inferInstanceAs (Decidable (_ ∧ _))

section Gather

variable {t : TransferTypes} (c : Conversion t) (buf leftover : Memory UInt8) {mem : Space}

@[simp]
theorem length_sentPositions : (sentPositions mem).length = mem.npoints := by
  unfold sentPositions
  split
  · exact List.length_range'
  · rfl

theorem gatheredValues_eq (h : ¬ (rvDataspaceSelectionIsContiguous mem = true ∧
      rvConvertStartToOffset mem = none)) :
    gatheredValues c buf leftover mem = some ((sentPositions mem).flatMap fun position =>
      (bufToWrite c buf leftover mem.npoints).read (position * t.fileSize) t.fileSize) := by
  unfold gatheredValues sentPositions
  by_cases hcontiguous : rvDataspaceSelectionIsContiguous mem = true
  · obtain ⟨offset, hoffset⟩ := Option.ne_none_iff_exists'.mp fun hnone => h ⟨hcontiguous, hnone⟩
    simp only [hcontiguous, hoffset, if_true, Option.map_some, Option.getD_some, Memory.read_mul]
  · simp only [hcontiguous, Bool.false_eq_true, if_false]

theorem gatheredValues_eq_none_iff : gatheredValues c buf leftover mem = none ↔
    rvDataspaceSelectionIsContiguous mem = true ∧ rvConvertStartToOffset mem = none := by
  by_cases h : rvDataspaceSelectionIsContiguous mem = true ∧ rvConvertStartToOffset mem = none
  · apply iff_of_true _ h
    simp [gatheredValues, h.1, h.2]
  · apply iff_of_false _ h
    rw [gatheredValues_eq c buf leftover h]
    exact Option.some_ne_none _

/-- One element of `buf_to_write` is the converted element of the memory. -/
theorem read_bufToWrite {position npoints : Nat} (h : t.needsTconv = true → position < npoints) :
    (bufToWrite c buf leftover npoints).read (position * t.fileSize) t.fileSize =
      writtenValue c buf position := by
  unfold bufToWrite writtenValue
  by_cases htconv : t.needsTconv = true
  · have hlt := h htconv
    rw [if_pos ⟨htconv, by omega⟩, if_pos htconv, tconvBuf, Memory.read_write_flatten _ (by simpa)]
    · simp
    · intro piece hpiece
      obtain ⟨k, -, rfl⟩ := List.mem_map.mp hpiece
      exact c.length_convert _
  · rw [if_neg fun hboth => htconv hboth.1, if_neg htconv,
      t.same_size (Bool.eq_false_of_not_eq_true htconv)]

/-- Behind the converted elements `tconv_buf` holds something else. -/
theorem read_bufToWrite_of_le {position npoints : Nat} (htconv : t.needsTconv = true)
    (hpos : npoints ≠ 0) (h : npoints ≤ position) :
    (bufToWrite c buf leftover npoints).read (position * t.fileSize) t.fileSize =
      leftover.read (position * t.fileSize) t.fileSize := by
  rw [bufToWrite, if_pos ⟨htconv, hpos⟩, tconvBuf, Memory.read_write_of_ge]
  have hsize : ∀ piece ∈ (List.range npoints).map fun k =>
      c.convert (buf.read (k * t.memSize) t.memSize), piece.length = t.fileSize := by
    intro piece hpiece
    obtain ⟨k, -, rfl⟩ := List.mem_map.mp hpiece
    exact c.length_convert _
  rw [Memory.length_flatten_of_size hsize, List.length_map, List.length_range, Nat.zero_add]
  exact Nat.mul_le_mul_right _ h

theorem length_writtenValue (position : Nat) :
    (writtenValue c buf position).length = t.fileSize := by
  unfold writtenValue
  by_cases htconv : t.needsTconv = true
  · rw [if_pos htconv, c.length_convert]
  · rw [if_neg htconv, Memory.length_read, t.same_size (Bool.eq_false_of_not_eq_true htconv)]

/-- If the gather fits, the elements that are sent are the selected ones. -/
theorem gatheredValues_of_fits (hfits : GatherFits t.needsTconv mem) {values : List UInt8}
    (h : gatheredValues c buf leftover mem = some values) :
    values = mem.offsets.flatMap (writtenValue c buf) := by
  have hsome : ¬ (rvDataspaceSelectionIsContiguous mem = true ∧
      rvConvertStartToOffset mem = none) := fun hnone => by
    rw [(gatheredValues_eq_none_iff c buf leftover).mpr hnone] at h
    cases h
  rw [gatheredValues_eq c buf leftover hsome] at h
  have hpositions : sentPositions mem = mem.offsets := by
    unfold sentPositions
    by_cases hcontiguous : rvDataspaceSelectionIsContiguous mem = true
    · have hoffset : rvConvertStartToOffset mem ≠ none := fun hnone => hsome ⟨hcontiguous, hnone⟩
      rw [if_pos hcontiguous, offsets_eq_range' hcontiguous hoffset,
        (rvConvertStartToOffset_eq_iff hcontiguous hoffset).mpr (hfits.1 hcontiguous)]
      rfl
    · rw [if_neg hcontiguous]
  rw [← Option.some.inj h, hpositions]
  refine List.flatMap_congr fun position hposition => ?_
  exact read_bufToWrite c buf leftover fun htconv => hfits.2 htconv position hposition

end Gather

/-! ## A memory that shows what is wrong -/

/-- The element at one position is zero, all others are not. -/
def markedMemory (size position : Nat) : Memory UInt8 := fun address =>
  if address / size = position then 0 else 1

/-- A conversion that keeps zero and what is not zero apart. -/
def markedConversion (t : TransferTypes) : Conversion t where
  convert element := List.replicate t.fileSize (if element = List.replicate t.memSize 0 then 0 else 1)
  length_convert _ := List.length_replicate

theorem read_markedMemory (size position k : Nat) :
    (markedMemory size position).read (k * size) size =
      List.replicate size (if k = position then 0 else 1) := by
  rw [List.eq_replicate_iff]
  refine ⟨Memory.length_read _, fun byte hbyte => ?_⟩
  obtain ⟨address, haddress, rfl⟩ := List.mem_map.mp hbyte
  obtain ⟨hle, hlt⟩ := List.mem_range'_1.mp haddress
  have hdiv : address / size = k := Nat.div_eq_of_lt_le hle (by rw [Nat.succ_mul]; exact hlt)
  rw [markedMemory, hdiv]

theorem replicate_ne {size : Nat} (hsize : 0 < size) {first second : UInt8} (h : first ≠ second) :
    List.replicate size first ≠ List.replicate size second := fun heq =>
  h (List.replicate_right_injective hsize.ne' heq)

section Marked

variable {t : TransferTypes} {mem : Space}

theorem writtenValue_marked (position k : Nat) :
    writtenValue (markedConversion t) (markedMemory t.memSize position) k =
      List.replicate t.fileSize (if k = position then 0 else 1) := by
  have hne := replicate_ne t.memSize_pos (show (1 : UInt8) ≠ 0 by decide)
  unfold writtenValue
  rw [read_markedMemory]
  by_cases htconv : t.needsTconv = true
  · rw [if_pos htconv]
    by_cases hk : k = position
    · simp [markedConversion, hk]
    · simp [markedConversion, hk, hne]
  · rw [if_neg htconv, t.same_size (Bool.eq_false_of_not_eq_true htconv)]

/-- If the gather does not fit, some memory shows it. -/
theorem exists_wrong_value (hpos : 0 < mem.npoints)
    (hsome : ¬ (rvDataspaceSelectionIsContiguous mem = true ∧ rvConvertStartToOffset mem = none))
    (hfits : ¬ GatherFits t.needsTconv mem) :
    ∃ (c : Conversion t) (buf leftover : Memory UInt8) (k sent position : Nat),
      (sentPositions mem)[k]? = some sent ∧ mem.offsets[k]? = some position ∧
        (bufToWrite c buf leftover mem.npoints).read (sent * t.fileSize) t.fileSize ≠
          writtenValue c buf position := by
  -- An element is sent from another position, or was never converted.
  obtain ⟨k, sent, position, hsent, hposition, hwrong⟩ : ∃ k sent position,
      (sentPositions mem)[k]? = some sent ∧ mem.offsets[k]? = some position ∧
        (sent ≠ position ∨ t.needsTconv = true ∧ mem.npoints ≤ position) := by
    by_cases hcontiguous : rvDataspaceSelectionIsContiguous mem = true → OffsetFits mem
    · obtain ⟨htconv, position, hmem, hle⟩ : t.needsTconv = true ∧
          ∃ position ∈ mem.offsets, mem.npoints ≤ position := by
        by_contra hnone
        apply hfits
        refine ⟨hcontiguous, fun htconv position hmem => ?_⟩
        by_contra hle
        exact hnone ⟨htconv, position, hmem, Nat.le_of_not_lt hle⟩
      obtain ⟨k, hk, rfl⟩ := List.getElem_of_mem hmem
      exact ⟨k, _, _, List.getElem?_eq_getElem (by rw [length_sentPositions]; exact hk),
        List.getElem?_eq_getElem hk, Or.inr ⟨htconv, hle⟩⟩
    · obtain ⟨hcontiguous, hoffset⟩ := Classical.not_imp.mp hcontiguous
      have hsome : rvConvertStartToOffset mem ≠ none := fun hnone => hsome ⟨hcontiguous, hnone⟩
      obtain ⟨start, hstart⟩ := Option.ne_none_iff_exists'.mp hsome
      have hne : start ≠ mem.first := fun heq =>
        hoffset ((rvConvertStartToOffset_eq_iff hcontiguous hsome).mp (heq ▸ hstart))
      refine ⟨0, start, mem.first, ?_, ?_, Or.inl hne⟩
      · simp [sentPositions, hcontiguous, hstart, hpos]
      · rw [offsets_eq_range' hcontiguous hsome]
        simp [hpos]
  refine ⟨markedConversion t, markedMemory t.memSize position, fun _ => 1, k, sent, position,
    hsent, hposition, ?_⟩
  rw [writtenValue_marked, if_pos rfl]
  have hones : List.replicate t.fileSize (1 : UInt8) ≠ List.replicate t.fileSize 0 :=
    replicate_ne t.fileSize_pos (by decide)
  by_cases hconverted : t.needsTconv = true → sent < mem.npoints
  · have hne : sent ≠ position := by
      rcases hwrong with hne | ⟨htconv, hle⟩
      · exact hne
      · exact fun heq => absurd (hconverted htconv) (by omega)
    rw [read_bufToWrite _ _ _ hconverted, writtenValue_marked, if_neg hne]
    exact hones
  · obtain ⟨htconv, hle⟩ := Classical.not_imp.mp hconverted
    rw [read_bufToWrite_of_le _ _ _ htconv hpos.ne' (Nat.le_of_not_lt hle), Memory.read_const]
    exact hones

end Marked

/-! ## When a request is sent -/

/-- The memory selection is a list of one point, for which the code finds no position. -/
def IsSinglePoint (mem : Space) : Prop := ∃ point, mem.selection = .regular (.points [point])

theorem isSinglePoint_iff {mem : Space} : IsSinglePoint mem ↔
    rvDataspaceSelectionIsContiguous mem = true ∧ rvConvertStartToOffset mem = none := by
  have hinside := mem.inside
  constructor
  · rintro ⟨point, hpoint⟩
    have hnpoints : mem.npoints < 2 := by
      rw [Space.npoints, Space.offsets, hpoint]
      simp
    exact ⟨by rw [rvDataspaceSelectionIsContiguous, if_pos hnpoints],
      by rw [rvConvertStartToOffset, hpoint]⟩
  · rintro ⟨hcontiguous, hnone⟩
    unfold rvConvertStartToOffset at hnone
    cases hs : mem.selection with
    | irregular list => rw [hs] at hnone; cases hnone
    | regular selection =>
        cases selection with
        | all | none | hyperslab _ => rw [hs] at hnone; cases hnone
        | points list =>
            rw [hs] at hinside
            obtain ⟨hrank, hne, -⟩ := hinside
            have hsmall : list.length < 2 := by
              by_contra hlarge
              have hnpoints : ¬ mem.npoints < 2 := by
                rw [Space.npoints, Space.offsets, hs]
                simpa using hlarge
              rw [rvDataspaceSelectionIsContiguous, hs, if_neg hnpoints,
                if_neg (by simpa using hrank)] at hcontiguous
              cases hcontiguous
            have hpos := List.length_pos_iff.mpr hne
            obtain ⟨point, rfl⟩ := List.length_eq_one_iff.mp (show list.length = 1 by omega)
            exact ⟨point, hs⟩

/-- The elements of a dataspace lie inside its extent. -/
theorem offsets_lt {s : Space} : ∀ offset ∈ s.offsets, offset < s.dims.prod := by
  have hinside := s.inside
  have hpoints (list : List (List Nat)) (hlist : ∀ point ∈ list, List.Forall₂ (· < ·) point s.dims) :
      ∀ offset ∈ list.map (ravel s.dims), offset < s.dims.prod := by
    intro offset hoffset
    obtain ⟨point, hpoint, rfl⟩ := List.mem_map.mp hoffset
    exact ravel_lt (hlist point hpoint)
  unfold Space.offsets
  cases hs : s.selection with
  | irregular list =>
      rw [hs] at hinside
      exact hpoints list hinside.2.2
  | regular selection =>
      rw [hs] at hinside
      cases selection with
      | all => simp
      | none => simp
      | points list => exact hpoints list hinside.2.2
      | hyperslab slabs =>
          apply hpoints
          intro point hpoint
          have hindices := List.forall₂_map_right_iff.mp (mem_grid.mp hpoint)
          obtain ⟨hlen, hindex⟩ := List.forall₂_iff_get.mp hindices
          obtain ⟨hdims, hslab⟩ := List.forall₂_iff_get.mp hinside.2
          refine List.forall₂_iff_get.mpr ⟨hlen.trans hdims, fun k hpoint hdim => ?_⟩
          have hk : k < slabs.length := by omega
          exact Slab.lt_of_mem_indices (hslab k hk hdim) (hindex k hpoint hk)

/-- The client sends a request: something is selected, as much in the memory as in the file, and
neither the selection nor the URL is refused. -/
def Sends (baseURL uri datasetName : Text) (call : WriteCall) : Prop :=
  (0 < call.file.npoints ∧ call.mem.npoints = call.file.npoints ∧ ¬ IsSinglePoint call.mem) ∧
    ∃ select selection, call.selectionBody = some (select, selection) ∧
      (rvDatasetWriteUrl baseURL uri datasetName select).isSome

section Sends

variable {baseURL uri datasetName : Text} {call : WriteCall}

theorem length_gathered (c : Conversion call.types) (buf leftover : Memory UInt8) (mem : Space) :
    ((sentPositions mem).flatMap fun position =>
      (bufToWrite c buf leftover mem.npoints).read (position * call.types.fileSize)
        call.types.fileSize).length = mem.npoints * call.types.fileSize := by
  rw [List.flatMap_def, Memory.length_flatten_of_size, List.length_map, length_sentPositions]
  intro piece hpiece
  obtain ⟨k, -, rfl⟩ := List.mem_map.mp hpiece
  exact Memory.length_read _

theorem pointBody_ne_nil (selection : Text) (values : List UInt8) :
    pointBody selection values ≠ [] := by
  simp [pointBody]

theorem npoints_pos_of_isPoints (h : call.isPoints = true) : 0 < call.file.npoints := by
  unfold WriteCall.isPoints at h
  split at h
  · next list hinside heq =>
      rw [Space.npoints, Space.offsets, WriteCall.file, heq]
      simpa [List.length_pos_iff] using hinside.2.1
  · cases h

/-- The request, for whatever the memory holds. -/
theorem rvDatasetWrite_eq_some_iff (c : Conversion call.types) (buf leftover : Memory UInt8)
    (request : PutRequest) :
    rvDatasetWrite baseURL uri datasetName call c buf leftover = .ok (some request) ↔
      Sends baseURL uri datasetName call ∧ ∃ select selection values,
        call.selectionBody = some (select, selection) ∧
        gatheredValues c buf leftover call.mem = some values ∧
        rvDatasetWriteUrl baseURL uri datasetName select = some request.url ∧
        request.body = if call.isPoints then pointBody selection values else values := by
  have hlen {values : List UInt8} (h : gatheredValues c buf leftover call.mem = some values) :
      ¬ IsSinglePoint call.mem ∧ values.length = call.mem.npoints * call.types.fileSize := by
    have hsingle : ¬ (rvDataspaceSelectionIsContiguous call.mem = true ∧
        rvConvertStartToOffset call.mem = none) := fun hnone => by
      rw [(gatheredValues_eq_none_iff c buf leftover).mpr hnone] at h
      cases h
    rw [gatheredValues_eq c buf leftover hsingle] at h
    exact ⟨mt isSinglePoint_iff.mp hsingle, by rw [← Option.some.inj h, length_gathered]⟩
  constructor
  · intro h
    unfold rvDatasetWrite at h
    split at h
    · cases h
    · next select selection hbody =>
        split at h
        · cases h
        · next hnpoints =>
            split at h
            · cases h
            · next values hvalues =>
                split at h
                · cases h
                · next url hurl =>
                    obtain ⟨hsingle, hlength⟩ := hlen hvalues
                    have hnpoints := not_not.mp hnpoints
                    by_cases hempty : (if call.isPoints then pointBody selection values
                        else values) = []
                    · simp only [hempty, if_true] at h
                      cases h
                    · simp only [hempty, if_false] at h
                      obtain rfl := Option.some.inj (Outcome.ok.inj h)
                      refine ⟨⟨⟨?_, hnpoints, hsingle⟩, select, selection, hbody,
                        Option.isSome_iff_exists.mpr ⟨url, hurl⟩⟩, select, selection, values,
                        hbody, hvalues, hurl, rfl⟩
                      -- Without elements there would be nothing to send, and no points.
                      by_contra hzero
                      have hnone : call.file.npoints = 0 := by omega
                      have hvalues : values = [] := by
                        rw [← List.length_eq_zero_iff, hlength, hnpoints, hnone, Nat.zero_mul]
                      have hpoints : call.isPoints = true := by
                        by_contra hpoints
                        exact hempty (by rw [if_neg hpoints, hvalues])
                      exact hnone.not_gt (npoints_pos_of_isPoints hpoints)
  · rintro ⟨⟨⟨hpos, hnpoints, -⟩, -⟩, select, selection, values, hbody, hvalues, hurl, hrequest⟩
    have hne : request.body ≠ [] := by
      rw [hrequest]
      split
      · exact pointBody_ne_nil _ _
      · rw [← List.length_pos_iff, (hlen hvalues).2, hnpoints]
        exact Nat.mul_pos hpos call.types.fileSize_pos
    unfold rvDatasetWrite
    simp only [hbody, hnpoints, hvalues, hurl, ← hrequest, ne_eq, not_true_eq_false, if_false, hne]

/-- A request that is sent can be sent for any memory. -/
theorem exists_request (h : Sends baseURL uri datasetName call) (c : Conversion call.types)
    (buf leftover : Memory UInt8) :
    ∃ request, rvDatasetWrite baseURL uri datasetName call c buf leftover = .ok (some request) := by
  obtain ⟨⟨-, -, hsingle⟩, select, selection, hbody, hurl⟩ := id h
  obtain ⟨url, hurl⟩ := Option.isSome_iff_exists.mp hurl
  have hvalues := gatheredValues_eq c buf leftover (mt isSinglePoint_iff.mpr hsingle)
  exact ⟨⟨url, _⟩, (rvDatasetWrite_eq_some_iff c buf leftover _).mpr
    ⟨h, select, selection, _, hbody, hvalues, hurl, rfl⟩⟩

end Sends

end XHDF5.Client
