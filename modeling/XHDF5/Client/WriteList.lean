/-
# The requests of a write to several datasets

`RV_dataset_write` prepares one PUT request after the other, and some of its variables keep what an
entry of the list left in them: the kind of the last selection that was given, the length of the last
body, and whether a conversion needed its background. An entry that does not set them finds what was
left, where it would find the initial values alone.

The entries have passed the checks of the first loop. The sizes of the types, the result of the test
for a contiguous selection and the offset are set wherever they are read.
-/

import XHDF5.Client.Write

namespace XHDF5.Client.WriteList

open XHDF5.Math XHDF5.Client

/-! ## References -/

/-- `OBJECT_REF_STRING_LEN`. -/
def objectRefStringLen : Nat := 48

/-- The types of the object behind a reference. -/
inductive RefObjType
  | file
  | group
  | datatype
  | dataset
  | other
deriving DecidableEq

/-- An entry of `prefix_table`. -/
def RefObjType.prefixText : RefObjType → Option Text
  | .file | .group => some (lit "groups")
  | .datatype => some (lit "datatypes")
  | .dataset => some (lit "datasets")
  | .other => none

/-- `rv_obj_ref_t`. -/
structure ObjRef where
  type : RefObjType
  uri : Text

/-- The string of a reference: zeros for an empty one, else what `snprintf` stores. -/
def refString (ref : ObjRef) : Option (List UInt8) :=
  if ref.uri = [] then some (List.replicate objectRefStringLen 0)
  else
    match ref.type.prefixText with
    | none => none
    | some prefixText =>
        let text := prefixText ++ '/' :: ref.uri
        if text.length ≥ objectRefStringLen + 1 then none
        else
          let stored := (text.take (objectRefStringLen - 1)).map fun c => c.toNat.toUInt8
          some (stored ++ List.replicate (objectRefStringLen - stored.length) 0)

/-- `RV_convert_obj_refs_to_buffer`. -/
def rvConvertObjRefsToBuffer (refs : List ObjRef) : Option (List UInt8) :=
  if refs = [] then none else (refs.mapM refString).map List.flatten

/-! ## Entries -/

/-- The kinds of elements: of a fixed length, references to objects in a dataset of such, other
references, and of a variable length. -/
inductive ElementKind
  | fixedLength
  | objRefs (refs : Nat → ObjRef)
  | reference
  | variableLength

/-- `(H5T_VLEN != dtype_class) && !is_variable_str`. -/
def ElementKind.isBinary : ElementKind → Bool
  | .variableLength => false
  | _ => true

/-- The branches that set the length of the body. -/
def ElementKind.isSized : ElementKind → Bool
  | .fixedLength | .objRefs _ => true
  | .reference | .variableLength => false

/-- An entry of the list: the dataset, its dataspaces and types, whether `H5Tconvert` finds a way from
the one to the other, whether `RV_need_bkg` asks for the background, and the memory. -/
structure WriteEntry where
  uri : Text
  datasetName : Text
  call : WriteCall
  kind : ElementKind
  conversion : Conversion call.types
  converts : Bool
  fillsBackground : Bool
  buf : Memory UInt8
  behind : Memory UInt8

/-- A request: its URL, the content types of its headers, its body, which is missing for a null pointer,
and the length that cURL is told. -/
structure WriteRequest where
  url : Text
  contentTypes : List Text
  body : Option (List UInt8)
  bodyLength : Nat
deriving DecidableEq

/-- What an entry leaves to the next one. -/
structure Leftover where
  selIsPoints : Bool
  writeBodyLen : Nat
  selectionBodyLen : Nat
  fillBkg : Bool

/-- The initial values. -/
def fresh : Leftover := ⟨false, 0, 0, false⟩

/-! ## The loop -/

section Loop

variable (asserts : Bool) (baseURL : Text)

/-- The selection in the URL and the text of the selection. -/
def selectionBody (e : WriteEntry) : Option (Option Text × Text) :=
  match e.call.fileSpace with
  | none => requestSelection e.kind.isBinary e.call.dims.length none
  | some selection =>
      match selection.1 with
      | .regular selection => requestSelection e.kind.isBinary e.call.dims.length (some selection)
      -- `H5Sget_regular_hyperslab` fails.
      | .irregular _ => none

/-- `buf_to_write` behind the branches of the element kinds, as the bytes that are read from it, and
`write_body_len`. -/
def valuesOf (s : Leftover) (e : WriteEntry) : Option (List UInt8 × Nat) :=
  match e.kind with
  | .fixedLength =>
      (gatheredValues e.conversion e.buf e.behind e.call.mem).map fun values =>
        (values, e.call.file.npoints * e.call.types.fileSize)
  | .objRefs refs =>
      (rvConvertObjRefsToBuffer ((List.range e.call.file.npoints).map refs)).map fun values =>
        (values, e.call.file.npoints * objectRefStringLen)
  | .reference | .variableLength =>
      some ((bufToWrite e.conversion e.buf e.behind e.call.mem.npoints).read 0 s.writeBodyLen,
        s.writeBodyLen)

/-- `sel_type` of an entry. -/
def selIsPoints (s : Leftover) (e : WriteEntry) : Bool :=
  if e.call.fileSpace.isSome then e.call.isPoints else s.selIsPoints

/-- `selection_body_len` of an entry. -/
def selectionBodyLen (s : Leftover) (e : WriteEntry) (selection : Text) : Nat :=
  if e.call.fileSpace.isSome then selection.length else s.selectionBodyLen

/-- `fill_bkg` behind an entry. No buffers are made for no elements. -/
def fillBkg (s : Leftover) (e : WriteEntry) : Bool :=
  s.fillBkg || (e.call.types.needsTconv && e.fillsBackground && decide (e.call.file.npoints ≠ 0))

/-- The content type of the transfer. -/
def contentType (isTransferBinary : Bool) : Text :=
  if isTransferBinary then lit "Content-Type: application/octet-stream"
  else lit "Content-Type: application/json"

/-- `strlen(fmt_string) - 4`. -/
def fmtLen : Nat := (lit "\x7b%s,\"value_base64\": \"%s\"\x7d").length - 4

/-- The body and its length: for points the selection and the encoded values. Without a text of the
selection the argument of `snprintf` is null. -/
def bodyOf (s : Leftover) (e : WriteEntry) (selection : Text) (values : List UInt8) (len : Nat) :
    Outcome (Option (List UInt8) × Nat) :=
  if selIsPoints s e then
    if e.call.fileSpace.isNone then .undefined
    else
      let valueBodyLen := (rvBase64Encode values (4 * len / 3)).written.length - 1
      .ok (some (pointBody selection values), fmtLen + selectionBodyLen s e selection + valueBodyLen)
  else .ok (if e.kind.isBinary then some values else none, len)

/-- One round of the loop of `RV_dataset_write`: the request, and what it leaves. -/
def rvDatasetWriteRound (s : Leftover) (e : WriteEntry) : Outcome (WriteRequest × Leftover) :=
  match selectionBody e with
  | none => .fail
  | some (select, selection) =>
      if e.call.mem.npoints ≠ e.call.file.npoints then .fail
      else if e.call.types.needsTconv ∧ asserts ∧ s.fillBkg then .undefined
      else if e.call.types.needsTconv ∧ ¬ e.converts then .fail
      else
        match valuesOf s e with
        | none => .fail
        | some (values, len) =>
            match rvDatasetWriteUrl baseURL e.uri e.datasetName select with
            | none => .fail
            | some url =>
                (bodyOf s e selection values len).bind fun (body, bodyLength) =>
                  let isTransferBinary := e.kind.isBinary && !(e.call.fileSpace.isSome && e.call.isPoints)
                  .ok (⟨url,
                      contentType isTransferBinary ::
                        if selIsPoints s e then [lit "Content-Type: application/json"] else [],
                      body, bodyLength⟩,
                    ⟨selIsPoints s e, bodyLength, selectionBodyLen s e selection, fillBkg s e⟩)

/-- The request of one round. -/
def requestOf (s : Leftover) (e : WriteEntry) : Outcome WriteRequest :=
  (rvDatasetWriteRound asserts baseURL s e).bind fun round => .ok round.1

/-- What one round leaves, when it comes to its end. -/
def leave (s : Leftover) (e : WriteEntry) : Option Leftover :=
  match rvDatasetWriteRound asserts baseURL s e with
  | .ok round => some round.2
  | _ => none

/-- The loop of `RV_dataset_write`: what becomes of the requests, up to the first that is not made. -/
def prepare : Leftover → List WriteEntry → List (Outcome WriteRequest)
  | _, [] => []
  | s, e :: es =>
      match rvDatasetWriteRound asserts baseURL s e with
      | .ok (request, s') => .ok request :: prepare s' es
      | .fail => [.fail]
      | .undefined => [.undefined]

/-- What becomes of the requests of `RV_dataset_write` for a list. -/
def rvDatasetWrite (es : List WriteEntry) : List (Outcome WriteRequest) :=
  prepare asserts baseURL fresh es

/-- The same with a call for each entry. -/
def oneByOne : List WriteEntry → List (Outcome WriteRequest)
  | [] => []
  | e :: es =>
      match rvDatasetWrite asserts baseURL [e] with
      | [.ok request] => .ok request :: oneByOne es
      | requests => requests

end Loop

/-! ## When a list is written like its entries -/

/-- An entry is refused before the types are looked at. -/
def RefusedAtOnce (e : WriteEntry) : Prop :=
  selectionBody e = none ∨ e.call.mem.npoints ≠ e.call.file.npoints

/-- An entry is refused for its values or its URL. -/
def RefusedLater (baseURL : Text) (e : WriteEntry) : Prop :=
  (e.call.types.needsTconv ∧ ¬ e.converts) ∨ valuesOf fresh e = none ∨
    ∃ select selection, selectionBody e = some (select, selection) ∧
      rvDatasetWriteUrl baseURL e.uri e.datasetName select = none

/-- What the earlier entries left does not matter: without a selection of its own the last one was not of
points, and without a length of its own the last body was empty. -/
def Unmixed (s : Leftover) (e : WriteEntry) : Prop :=
  (e.call.fileSpace = none → s.selIsPoints = false) ∧ (e.kind.isSized = false → s.writeBodyLen = 0)

/-- When an entry finds the request that it would get alone. -/
def Matches (asserts : Bool) (baseURL : Text) (s : Leftover) (e : WriteEntry) : Prop :=
  RefusedAtOnce e ∨
    (¬ (e.call.types.needsTconv ∧ asserts ∧ s.fillBkg) ∧ (RefusedLater baseURL e ∨ Unmixed s e))

section Rounds

variable {asserts : Bool} {baseURL : Text} {s : Leftover} {e : WriteEntry}

theorem requestOf_of_refusedAtOnce (h : RefusedAtOnce e) :
    requestOf asserts baseURL s e = .fail := by
  rw [requestOf, rvDatasetWriteRound]
  rcases h with hnone | hnpoints
  · rw [hnone]
    rfl
  · split
    · rfl
    · rw [if_pos hnpoints]
      rfl

theorem requestOf_of_assert (hearly : ¬ RefusedAtOnce e)
    (h : e.call.types.needsTconv ∧ asserts ∧ s.fillBkg) :
    requestOf asserts baseURL s e = .undefined := by
  obtain ⟨hbody, hnpoints⟩ := not_or.mp hearly
  rw [requestOf, rvDatasetWriteRound]
  split
  · next hnone => exact absurd hnone hbody
  · rw [if_neg hnpoints, if_pos h]
    rfl

theorem valuesOf_eq_none_iff : valuesOf s e = none ↔ valuesOf fresh e = none := by
  unfold valuesOf
  split <;> simp

theorem valuesOf_of_isSized (h : e.kind.isSized = true) : valuesOf s e = valuesOf fresh e := by
  cases hkind : e.kind with
  | fixedLength | objRefs refs => simp only [valuesOf, hkind]
  | reference | variableLength => rw [hkind] at h; cases h

/-- Where nothing sets the length, it is the one that was left. -/
theorem valuesOf_of_not_isSized (h : e.kind.isSized = false) :
    valuesOf s e =
      some ((bufToWrite e.conversion e.buf e.behind e.call.mem.npoints).read 0 s.writeBodyLen,
        s.writeBodyLen) := by
  cases hkind : e.kind with
  | fixedLength | objRefs refs => rw [hkind] at h; cases h
  | reference | variableLength => simp only [valuesOf, hkind]

theorem requestOf_of_refusedLater (hearly : ¬ RefusedAtOnce e)
    (hassert : ¬ (e.call.types.needsTconv ∧ asserts ∧ s.fillBkg)) (h : RefusedLater baseURL e) :
    requestOf asserts baseURL s e = .fail := by
  obtain ⟨hbody, hnpoints⟩ := not_or.mp hearly
  rw [requestOf, rvDatasetWriteRound]
  split
  · next hnone => exact absurd hnone hbody
  · next select selection hselection =>
      rw [if_neg hnpoints, if_neg hassert]
      by_cases hconverts : e.call.types.needsTconv ∧ ¬ e.converts
      · rw [if_pos hconverts]
        rfl
      · rw [if_neg hconverts]
        split
        · rfl
        · next values len hvalues =>
            rcases h with h | h | ⟨select', selection', hselection', hurl⟩
            · exact absurd h hconverts
            · rw [valuesOf_eq_none_iff.mpr h] at hvalues
              cases hvalues
            · rw [hselection] at hselection'
              cases hselection'
              rw [hurl]
              rfl

/-- The request of an entry that is not refused. -/
def requestWith (s : Leftover) (e : WriteEntry) (url selection : Text) (values : List UInt8)
    (len : Nat) : Outcome WriteRequest :=
  (bodyOf s e selection values len).bind fun body =>
    .ok ⟨url, contentType (e.kind.isBinary && !(e.call.fileSpace.isSome && e.call.isPoints)) ::
      if selIsPoints s e then [lit "Content-Type: application/json"] else [], body.1, body.2⟩

/-- An entry that is not refused has the same URL and selection, whatever was left. -/
theorem requestOf_of_accepted (hearly : ¬ RefusedAtOnce e) (hlate : ¬ RefusedLater baseURL e) :
    ∃ url selection, ∀ s, ¬ (e.call.types.needsTconv ∧ asserts ∧ s.fillBkg) →
      ∃ values len, valuesOf s e = some (values, len) ∧
        requestOf asserts baseURL s e = requestWith s e url selection values len := by
  obtain ⟨hbody, hnpoints⟩ := not_or.mp hearly
  obtain ⟨hconverts, hvalues, hurl⟩ := not_or.mp hlate |>.imp_right not_or.mp
  obtain ⟨⟨select, selection⟩, hselection⟩ := Option.ne_none_iff_exists'.mp hbody
  obtain ⟨url, hurl⟩ := Option.ne_none_iff_exists'.mp fun hnone =>
    hurl ⟨select, selection, hselection, hnone⟩
  refine ⟨url, selection, fun s hassert => ?_⟩
  obtain ⟨⟨values, len⟩, hsome⟩ := Option.ne_none_iff_exists'.mp (mt valuesOf_eq_none_iff.mp hvalues)
  refine ⟨values, len, hsome, ?_⟩
  simp only [requestOf, rvDatasetWriteRound, hselection, if_neg hnpoints, if_neg hassert,
    if_neg hconverts, hsome, hurl, requestWith]
  cases bodyOf s e selection values len <;> rfl

/-- Points need a text of the selection. -/
theorem requestWith_of_leftPoints (hall : e.call.fileSpace = none) (hpoints : s.selIsPoints = true)
    (url selection : Text) (values : List UInt8) (len : Nat) :
    requestWith s e url selection values len = .undefined := by
  simp [requestWith, bodyOf, selIsPoints, hall, hpoints, Outcome.bind]

/-- Alone there is always a text of the selection where points need it. -/
theorem requestWith_fresh_ne_undefined (url selection : Text) (values : List UInt8) (len : Nat) :
    requestWith fresh e url selection values len ≠ .undefined := by
  cases hspace : e.call.fileSpace <;> cases hpoints : e.call.isPoints <;>
    simp [requestWith, bodyOf, selIsPoints, hspace, hpoints, fresh, Outcome.bind]

/-- Apart from values and length a request depends on what was left only where there is no selection. -/
theorem requestWith_eq_fresh (h : e.call.fileSpace = none → s.selIsPoints = false)
    (url selection : Text) (values : List UInt8) (len : Nat) :
    requestWith s e url selection values len = requestWith fresh e url selection values len := by
  cases hspace : e.call.fileSpace with
  | none => simp [requestWith, bodyOf, selIsPoints, hspace, h hspace, fresh]
  | some space => simp [requestWith, bodyOf, selIsPoints, selectionBodyLen, hspace]

/-- The encoder makes a text of every bytes. -/
theorem length_rvBase64Encode_pos {bytes : List UInt8} (h : bytes ≠ []) (outSize : Nat) :
    0 < (rvBase64Encode bytes outSize).written.length - 1 := by
  rw [(rvBase64Encode_spec bytes outSize).2, List.length_append, List.length_singleton,
    Nat.add_sub_cancel, base64Text, List.length_append, List.length_map]
  refine Nat.add_pos_left ?_ _
  rcases bytes with _ | ⟨a, _ | ⟨b, _ | ⟨c, rest⟩⟩⟩
  · exact absurd rfl h
  all_goals simp [sextets]

theorem length_rvBase64Encode_nil (outSize : Nat) :
    (rvBase64Encode [] outSize).written.length - 1 = 0 := by
  rw [(rvBase64Encode_spec [] outSize).2]
  rfl

/-- The length of a request tells whether there are values. -/
theorem requestWith_ne_of_length {values values' : List UInt8} {len : Nat} (hvalues : values ≠ [])
    (hlen : len ≠ 0) (url selection : Text) (hnil : values' = []) :
    requestWith fresh e url selection values len ≠ requestWith fresh e url selection values' 0 := by
  subst hnil
  intro h
  have hzero := length_rvBase64Encode_nil (4 * 0 / 3)
  have hpos := length_rvBase64Encode_pos hvalues (4 * len / 3)
  cases hspace : e.call.fileSpace <;> cases hpoints : e.call.isPoints <;>
    simp [requestWith, bodyOf, selIsPoints, hspace, hpoints, fresh, Outcome.bind] at h
  · omega
  · omega
  · omega
  · have := h.2
    simp only [Nat.mul_zero, Nat.zero_div] at hzero
    omega

theorem requestOf_eq_iff :
    requestOf asserts baseURL s e = requestOf asserts baseURL fresh e ↔ Matches asserts baseURL s e := by
  by_cases hearly : RefusedAtOnce e
  · rw [requestOf_of_refusedAtOnce hearly, requestOf_of_refusedAtOnce hearly]
    exact iff_of_true rfl (.inl hearly)
  have hfresh : ¬ (e.call.types.needsTconv ∧ asserts ∧ fresh.fillBkg) := by simp [fresh]
  by_cases hlate : RefusedLater baseURL e
  · rw [requestOf_of_refusedLater hearly hfresh hlate]
    by_cases hassert : e.call.types.needsTconv ∧ asserts ∧ s.fillBkg
    · rw [requestOf_of_assert hearly hassert]
      refine iff_of_false nofun ?_
      rintro (h | h)
      · exact hearly h
      · exact h.1 hassert
    · rw [requestOf_of_refusedLater hearly hassert hlate]
      exact iff_of_true rfl (.inr ⟨hassert, .inl hlate⟩)
  obtain ⟨url, selection, hrequest⟩ := @requestOf_of_accepted asserts _ _ hearly hlate
  obtain ⟨values', len', hvalues', halone⟩ := hrequest fresh hfresh
  rw [halone]
  by_cases hassert : e.call.types.needsTconv ∧ asserts ∧ s.fillBkg
  · rw [requestOf_of_assert hearly hassert]
    refine iff_of_false (fun h => requestWith_fresh_ne_undefined _ _ _ _ h.symm) ?_
    rintro (h | h)
    · exact hearly h
    · exact h.1 hassert
  have hmatches : Matches asserts baseURL s e ↔ Unmixed s e := by simp [Matches, hearly, hassert, hlate]
  obtain ⟨values, len, hvalues, hleft⟩ := hrequest s hassert
  rw [hmatches, hleft]
  by_cases hpoints : e.call.fileSpace = none → s.selIsPoints = false
  · rw [requestWith_eq_fresh hpoints, Unmixed, and_iff_right hpoints]
    by_cases hsized : e.kind.isSized = true
    · rw [valuesOf_of_isSized hsized, hvalues'] at hvalues
      obtain ⟨rfl, rfl⟩ := Prod.ext_iff.mp (Option.some.inj hvalues)
      exact iff_of_true rfl fun h => by rw [hsized] at h; cases h
    · have hsized : e.kind.isSized = false := Bool.eq_false_of_not_eq_true hsized
      rw [valuesOf_of_not_isSized hsized] at hvalues hvalues'
      obtain ⟨rfl, rfl⟩ := Prod.ext_iff.mp (Option.some.inj hvalues)
      obtain ⟨rfl, rfl⟩ := Prod.ext_iff.mp (Option.some.inj hvalues')
      rw [imp_iff_right hsized]
      by_cases hlen : s.writeBodyLen = 0
      · rw [hlen]
        exact iff_of_true rfl rfl
      · refine iff_of_false (requestWith_ne_of_length (fun hnil => hlen ?_) hlen _ _ rfl) hlen
        simpa using congrArg List.length hnil
  · obtain ⟨hall, hleftPoints⟩ := Classical.not_imp.mp hpoints
    rw [requestWith_of_leftPoints hall (Bool.eq_true_of_not_eq_false hleftPoints)]
    exact iff_of_false (fun h => requestWith_fresh_ne_undefined _ _ _ _ h.symm) fun h => hpoints h.1

end Rounds

/-! ## Lists -/

section Lists

variable (asserts : Bool) (baseURL : Text)

/-- What the list gets at a round is what the entry gets alone. -/
def SameAsAlone (s : Leftover) (e : WriteEntry) : Prop :=
  requestOf asserts baseURL s e = requestOf asserts baseURL fresh e

theorem rvDatasetWrite_single (e : WriteEntry) :
    rvDatasetWrite asserts baseURL [e] = [requestOf asserts baseURL fresh e] := by
  rw [rvDatasetWrite, prepare, requestOf]
  cases rvDatasetWriteRound asserts baseURL fresh e <;> rfl

/-- The lists agree when all of their rounds do. -/
theorem prepare_eq_iff (es : List WriteEntry) (s : Leftover) :
    prepare asserts baseURL s es = oneByOne asserts baseURL es ↔
      Along (leave asserts baseURL) (SameAsAlone asserts baseURL) es s := by
  induction es generalizing s with
  | nil => exact iff_of_true rfl trivial
  | cons e es ih =>
      rw [oneByOne, rvDatasetWrite_single, Along, SameAsAlone, prepare]
      cases hround : rvDatasetWriteRound asserts baseURL s e with
      | undefined =>
          have hstops : leave asserts baseURL s e = none := by rw [leave, hround]
          have hleft : requestOf asserts baseURL s e = .undefined := by rw [requestOf, hround]; rfl
          cases halone : requestOf asserts baseURL fresh e <;> simp [hleft, hstops]
      | fail =>
          have hstops : leave asserts baseURL s e = none := by rw [leave, hround]
          have hleft : requestOf asserts baseURL s e = .fail := by rw [requestOf, hround]; rfl
          cases halone : requestOf asserts baseURL fresh e <;> simp [hleft, hstops]
      | ok round =>
          have hgoes : leave asserts baseURL s e = some round.2 := by rw [leave, hround]
          have hleft : requestOf asserts baseURL s e = .ok round.1 := by rw [requestOf, hround]; rfl
          cases halone : requestOf asserts baseURL fresh e with
          | undefined | fail => simp [hleft]
          | ok request => simp [hleft, hgoes, ih]

end Lists

/-- Bytes that need no conversion. -/
def byteTypes : TransferTypes := ⟨1, 1, false, Nat.one_pos, Nat.one_pos, fun _ => rfl⟩

/-- A write of bytes to a dataset of four. -/
def byteEntry (memSpace : Option Space)
    (fileSpace : Option { selection : Selection // selection.Inside [4] }) : WriteEntry where
  uri := lit "d"
  datasetName := lit "x"
  call := ⟨byteTypes, [4], memSpace, fileSpace⟩
  kind := .fixedLength
  conversion := ⟨fun _ => [0], fun _ => rfl⟩
  converts := true
  fillsBackground := false
  buf _ := 7
  behind _ := 0

/-- A write to the element at the position 1. -/
def pointEntry : WriteEntry :=
  byteEntry (some (Space.whole [1])) (some ⟨.regular (.points [[1]]), by simp [Selection.Inside]⟩)

/-- A write to all elements. -/
def wholeEntry : WriteEntry := byteEntry none none

end XHDF5.Client.WriteList
