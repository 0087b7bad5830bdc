/-
# Resizing a dataset

`H5Dset_extent` prints the new extent into a buffer whose size comes from a digit count for each number,
sends it, and then changes the dataspace of the handle. Other handles of the dataset see the new extent
only when they have that dataspace. A scalar dataspace gets a buffer of no bytes.

How `floor(log10((double) e))` rounds is a parameter that is not too small at the powers of ten.
-/

import Mathlib.Data.Nat.Log
import XHDF5.Exchange.Sharing
import XHDF5.Math.JsonGrammar

namespace XHDF5.Exchange.Resize

open XHDF5.Math XHDF5.Client XHDF5.Plugin

/-! ## The request body -/

/-- `floor(log10((double) e))` loses no digit. -/
def FloorsLog10 (floorLog10 : Nat → Nat) : Prop := ∀ k e, 10 ^ k ≤ e → k ≤ floorLog10 e

section Body

variable (floorLog10 : Nat → Nat)

/-- `request_body_shape_size`. -/
def shapeSize (newExtent : List Nat) : Nat :=
  (newExtent.map fun e => (if e = 0 then 1 else floorLog10 e) + 1 + 2).sum

/-- `strcat` at the end of a text in a buffer of some size; nothing when it stores outside. -/
def strcat (size : Nat) (written text : Text) : Option Text :=
  if (written ++ text).length + 1 ≤ size then some (written ++ text) else none

/-- The loop over the dimensions. -/
def appendDims (size : Nat) : List Nat → Text → Option Text
  | [], written => some written
  | [e], written => strcat size written (decimal e)
  | e :: es, written => do
      let number ← strcat size written (decimal e)
      let separated ← strcat size number (lit ", ")
      appendDims size es separated

/-- `fmt_string`. -/
def fmtString : Text := '{' :: (lit "\"shape\": [%s]" ++ ['}'])

/-- The request body; nothing when a buffer is too small. -/
def requestBody (newExtent : List Nat) : Option Text :=
  let size := shapeSize floorLog10 newExtent
  if size = 0 then none
  else (appendDims size newExtent []).map fun shape =>
    ('{' :: (lit "\"shape\": [" ++ (shape ++ [']', '}']))).take (size + fmtString.length)

end Body

/-! ## The call -/

/-- The storage layouts of `H5D_layout_t`. -/
inductive StorageLayout
  | compact
  | contiguous
  | chunked
  | virtual
deriving DecidableEq

/-- A call of `H5Dset_extent`: the handle, the array of the new dimensions if there is one, the layout in
the creation properties, and what becomes of the allocations, of cURL's options, of the request and of
`H5Sset_extent_simple`. -/
structure SetExtentCall where
  handle : Addr
  writeIntent : Bool
  size : Option (List Nat)
  layout : Option StorageLayout
  baseURL : Text
  allocated : Bool
  prepared : Bool
  served : Bool
  stored : Bool

/-- What a call leaves: the body it sent, the dataspaces, and whether it succeeds. -/
structure Resized where
  body : Option Text
  spaces : List Dataspace
  succeeds : Bool

/-- The dimensions of a dataspace with their maxima. -/
def extentOf : Dataspace → List (Nat × Nat)
  | .null | .scalar => []
  | .simple extent => extent

/-- The comparison with the maximum dimensions, which stops at the first that is exceeded; nothing when
it reads behind the array. -/
def exceeds : List Nat → List Nat → Option Bool
  | _, [] => some false
  | [], _ :: _ => none
  | e :: newExtent, max :: maxdims => if max < e then some true else exceeds newExtent maxdims

section Call

variable (floorLog10 : Nat → Nat) (s : SharingState) (call : SetExtentCall)

/-- The call fails, with or without a request. -/
def failed (body : Option Text) : Option Resized := some ⟨body, s.spaces, false⟩

/-- The part of `RV_dataset_specific` that resizes; nothing when it does what is not defined. -/
def rvDatasetSetExtent : Option Resized := do
  let h ← s.handles call.handle
  if call.writeIntent = false then failed s none
  else match call.size, s.spaces[h.space]? with
    | some newExtent, some space => do
        let maxdims := (extentOf space).map Prod.snd
        let tooLarge ← exceeds newExtent maxdims
        if tooLarge ∨ call.layout ≠ some .chunked ∨ call.allocated = false then failed s none
        else do
          let newExtent := newExtent.take maxdims.length
          let body ← requestBody floorLog10 newExtent
          if call.prepared = false ∨
              checkUrl (call.baseURL ++ lit "/datasets/" ++ h.uri ++ lit "/shape") = none then
            failed s none
          else if call.served = false ∨ call.stored = false then failed s (some body)
          else some ⟨some body, s.spaces.set h.space (.simple (newExtent.zip maxdims)), true⟩
    | _, _ => failed s none

/-- A JSON text whose member `shape` lists the numbers. -/
def Lists (body : Text) (newExtent : List Nat) : Prop :=
  JsonText body ∧ ((Doc.readDocument body).bind (Doc.member (lit "shape"))).bind Doc.items? =
    some (newExtent.map fun e => .word (decimal e))

/-- A dataspace has the new extent with the maximum dimensions of the old one. -/
def Resizes (newExtent : List Nat) (old new : Option Dataspace) : Prop :=
  ∃ before after, old = some before ∧ new = some after ∧ (extentOf after).map Prod.fst = newExtent ∧
    (extentOf after).map Prod.snd = (extentOf before).map Prod.snd

/-- A call that succeeds has sent the new extent, and every handle of the dataset has it; one that fails
has changed no dataspace. -/
def Consistent : Prop :=
  ∃ resized, rvDatasetSetExtent floorLog10 s call = some resized ∧
    if resized.succeeds then
      ∃ h newExtent body, s.handles call.handle = some h ∧ call.size = some newExtent ∧
        resized.body = some body ∧ Lists body newExtent ∧
          ∀ q k, s.handles q = some k → k.dataset = h.dataset →
            Resizes newExtent s.spaces[k.space]? resized.spaces[k.space]?
    else ∀ q k, s.handles q = some k → resized.spaces[k.space]? = s.spaces[k.space]?

/-! ## What it needs -/

/-- The call gets as far as the dataspace. -/
def GetsToDataspace (h : DatasetHandle) : Prop :=
  call.prepared = true ∧
    (checkUrl (call.baseURL ++ lit "/datasets/" ++ h.uri ++ lit "/shape")).isSome = true ∧
      call.served = true ∧ call.stored = true

/-- There are as many numbers as dimensions at least. A call that gets as far as the buffers is one for a
dataspace with dimensions; for one that gets as far as the dataspace there are exactly as many numbers,
and every other handle of the dataset has the same dataspace, or has the new extent already. -/
def Suffices (h : DatasetHandle) (newExtent : List Nat) (space : Dataspace) : Prop :=
  (extentOf space).length ≤ newExtent.length ∧
    (call.layout = some .chunked → call.allocated = true → extentOf space ≠ [] ∧
      (GetsToDataspace call h → newExtent.length = (extentOf space).length ∧
        ∀ q k, s.handles q = some k → k.dataset = h.dataset → k.space = h.space ∨
          ∃ other, s.spaces[k.space]? = some other ∧ (extentOf other).map Prod.fst = newExtent))

/-- The handle is open, and a call that fails neither for its intent, its array and its dataspace nor for
a dimension that is too large has what it needs. -/
def Meets : Prop :=
  ∃ h, s.handles call.handle = some h ∧ ∀ newExtent space,
    call.writeIntent = true → call.size = some newExtent → s.spaces[h.space]? = some space →
      exceeds newExtent ((extentOf space).map Prod.snd) ≠ some true →
        Suffices s call h newExtent space

end Call

/-! ## The text -/

section Text

variable {floorLog10 : Nat → Nat}

theorem length_decimal_le (hlog : FloorsLog10 floorLog10) (e : Nat) :
    (decimal e).length ≤ (if e = 0 then 1 else floorLog10 e) + 1 := by
  by_contra hlong
  have hpower := (length_decimal_le_iff (Nat.succ_pos _)).not.mp hlong
  have hle := hlog _ e (Nat.le_of_not_lt hpower)
  split at hle
  · next hzero =>
      rw [hzero] at hpower
      exact hpower (by simp)
  · omega

theorem strcat_of_fits {size : Nat} {written text : Text} (h : written.length + text.length + 1 ≤ size) :
    strcat size written text = some (written ++ text) :=
  if_pos (by rwa [List.length_append])

/-- The buffer has room for every number and what stands between them. -/
theorem appendDims_eq (hlog : FloorsLog10 floorLog10) {size : Nat} {newExtent : List Nat} {written : Text}
    (hne : newExtent ≠ []) (hsize : written.length + shapeSize floorLog10 newExtent ≤ size) :
    appendDims size newExtent written =
      some (written ++ (lit ", ").intercalate (newExtent.map decimal)) ∧
        (written ++ (lit ", ").intercalate (newExtent.map decimal)).length + 1 ≤ size := by
  have hcomma : (lit ", ").length = 2 := by
    rw [show ", " = String.ofList [',', ' '] from rfl, lit_ofList]
    rfl
  induction newExtent generalizing written with
  | nil => exact absurd rfl hne
  | cons e es ih =>
      have hdigits := length_decimal_le hlog e
      rw [shapeSize, List.map_cons, List.sum_cons, ← shapeSize] at hsize
      cases es with
      | nil =>
          have hroom : written.length + (decimal e).length + 1 ≤ size := by omega
          rw [appendDims, strcat_of_fits hroom]
          simpa using hroom
      | cons e' es =>
          have hnumber : strcat size written (decimal e) = some (written ++ decimal e) :=
            strcat_of_fits (by omega)
          have hpositive : 3 ≤ shapeSize floorLog10 (e' :: es) := by
            rw [shapeSize, List.map_cons, List.sum_cons]
            omega
          have hseparated : strcat size (written ++ decimal e) (lit ", ") =
              some (written ++ decimal e ++ lit ", ") :=
            strcat_of_fits (by rw [List.length_append, hcomma]; omega)
          have hrest := @ih (written ++ decimal e ++ lit ", ") (List.cons_ne_nil _ _)
            (by rw [List.length_append, List.length_append, hcomma]; omega)
          have htext : written ++ (lit ", ").intercalate ((e :: e' :: es).map decimal) =
              written ++ decimal e ++ lit ", " ++ (lit ", ").intercalate ((e' :: es).map decimal) := by
            simp [List.intercalate_cons_cons]
          rw [htext]
          refine ⟨?_, hrest.2⟩
          rw [appendDims, hnumber, Option.bind_eq_bind, Option.bind_some, hseparated]
          · exact hrest.1
          · exact nofun

/-- The document of an extent. -/
def extentDoc (newExtent : List Nat) : Doc :=
  .object [([], lit "shape", lit " ", dimsDoc newExtent)] []

/-- What is printed for some numbers is the document of them. -/
theorem requestBody_eq (hlog : FloorsLog10 floorLog10) {newExtent : List Nat} (hne : newExtent ≠ []) :
    requestBody floorLog10 newExtent = some (extentDoc newExtent).render := by
  have hpositive : shapeSize floorLog10 newExtent ≠ 0 := by
    obtain ⟨e, es, rfl⟩ := List.exists_cons_of_ne_nil hne
    rw [shapeSize, List.map_cons, List.sum_cons]
    omega
  obtain ⟨hshape, hfits⟩ := @appendDims_eq _ hlog _ _ [] hne (Nat.zero_add _).le
  rw [List.nil_append] at hshape hfits
  have hformat : fmtString.length = (lit "\"shape\": [").length + 5 := by
    unfold fmtString
    repeat rw [lit_ofList]
    rfl
  rw [requestBody, if_neg hpositive, hshape, Option.map_some, List.take_of_length_le]
  · simp only [extentDoc, Doc.render, Doc.renderMembers, dimsDoc, renderItems_spaced, List.nil_append,
      List.append_nil]
    repeat rw [lit_ofList]
    simp
  · simp only [List.length_cons, List.length_append, List.length_nil, hformat]
    omega

theorem requestBody_nil : requestBody floorLog10 [] = none := by
  rw [requestBody, shapeSize, List.map_nil, List.sum_nil, if_pos rfl]

theorem plain_extentDoc (newExtent : List Nat) : (extentDoc newExtent).Plain := by
  rw [extentDoc, Doc.Plain, Doc.PlainMembers]
  exact ⟨Json.blank_nil, Json.blank_nil, by unfold lit; decide, blank_lit, plain_dimsDoc newExtent,
    trivial⟩

/-- The document of an extent lists its numbers and no others. -/
theorem lists_extentDoc_iff (sent newExtent : List Nat) :
    Lists (extentDoc sent).render newExtent ↔ sent = newExtent := by
  have hread : ((Doc.readDocument (extentDoc sent).render).bind (Doc.member (lit "shape"))).bind
      Doc.items? = some (sent.map fun e => .word (decimal e)) := by
    rw [Doc.readsDocuments_readDocument _ (plain_extentDoc sent), Option.bind_some, Doc.member_bare]
    have hmember : (extentDoc sent).member (lit "shape") = some (dimsDoc sent) := by
      rw [extentDoc, Doc.member, List.find?_cons_of_pos (by simp)]
      rfl
    rw [hmember, Option.map_some, Option.bind_some, dimsDoc, Doc.items?_bare]
    cases sent with
    | nil => rfl
    | cons e es =>
        rw [List.map_cons, spaced, List.map_cons, List.map_map, List.map_map]
        rfl
  rw [Lists, hread, and_iff_right (plain_extentDoc sent).jsonText, Option.some.injEq]
  refine ⟨fun h => ?_, fun h => by rw [h]⟩
  have hinjective : Function.Injective fun e : Nat => Doc.word (decimal e) := by
    intro e e' heq
    exact decimal_injective (Doc.word.inj heq)
  exact List.map_injective_iff.mpr hinjective h

end Text

/-! ## The call -/

theorem exceeds_none {newExtent maxdims : List Nat} (h : exceeds newExtent maxdims = none) :
    newExtent.length < maxdims.length := by
  induction maxdims generalizing newExtent with
  | nil => cases newExtent <;> cases h
  | cons max maxdims ih =>
      cases newExtent with
      | nil => exact Nat.succ_pos _
      | cons e newExtent =>
          rw [exceeds] at h
          split at h
          · cases h
          · exact Nat.succ_lt_succ (ih h)

theorem exceeds_false {newExtent maxdims : List Nat} (h : exceeds newExtent maxdims = some false) :
    maxdims.length ≤ newExtent.length := by
  induction maxdims generalizing newExtent with
  | nil => exact Nat.zero_le _
  | cons max maxdims ih =>
      cases newExtent with
      | nil => cases h
      | cons e newExtent =>
          rw [exceeds] at h
          split at h
          · cases h
          · exact Nat.succ_le_succ (ih h)

section Result

variable {floorLog10 : Nat → Nat} {s : SharingState} {call : SetExtentCall} {h : DatasetHandle}
  {newExtent : List Nat} {space : Dataspace}

/-- A call that fails leaves the dataspaces as they are. -/
theorem consistent_of_failed {body : Option Text}
    (hcall : rvDatasetSetExtent floorLog10 s call = failed s body) :
    Consistent floorLog10 s call :=
  ⟨_, hcall, by rw [if_neg nofun]; exact fun _ _ _ => rfl⟩

/-- A call that succeeds is consistent when it sends all numbers, and every handle of the dataset gets
them or has them. -/
theorem consistent_iff_of_succeeds (hh : s.handles call.handle = some h)
    (hsize : call.size = some newExtent) (hspace : s.spaces[h.space]? = some space)
    (hle : (extentOf space).length ≤ newExtent.length)
    (hcall : rvDatasetSetExtent floorLog10 s call =
      some ⟨some (extentDoc (newExtent.take (extentOf space).length)).render,
        s.spaces.set h.space (.simple ((newExtent.take (extentOf space).length).zip
          ((extentOf space).map Prod.snd))), true⟩) :
    Consistent floorLog10 s call ↔ newExtent.length = (extentOf space).length ∧
      ∀ q k, s.handles q = some k → k.dataset = h.dataset → k.space = h.space ∨
        ∃ other, s.spaces[k.space]? = some other ∧ (extentOf other).map Prod.fst = newExtent := by
  have hall : newExtent.take (extentOf space).length = newExtent ↔
      newExtent.length = (extentOf space).length := by
    rw [List.take_eq_self_iff]
    exact ⟨fun hge => Nat.le_antisymm hge hle, Nat.le_of_eq⟩
  have hlt : h.space < s.spaces.length := (List.getElem?_eq_some_iff.mp hspace).1
  constructor
  · rintro ⟨resized, hresized, hif⟩
    rw [hcall] at hresized
    cases hresized
    rw [if_pos rfl] at hif
    obtain ⟨h', newExtent', body, hh', hsize', hbody, hlists, hresizes⟩ := hif
    cases hh.symm.trans hh'
    cases hsize.symm.trans hsize'
    cases hbody
    rw [lists_extentDoc_iff, hall] at hlists
    refine ⟨hlists, fun q k hk hdataset => ?_⟩
    obtain ⟨before, after, hbefore, hafter, hfirst, -⟩ := hresizes q k hk hdataset
    by_cases heq : k.space = h.space
    · exact .inl heq
    · rw [List.getElem?_set_ne (Ne.symm heq)] at hafter
      exact .inr ⟨after, hafter, hfirst⟩
  · rintro ⟨hlength, hshares⟩
    refine ⟨_, hcall, ?_⟩
    rw [if_pos rfl]
    refine ⟨h, newExtent, _, hh, hsize, rfl, (lists_extentDoc_iff _ _).mpr (hall.mpr hlength),
      fun q k hk hdataset => ?_⟩
    rw [hall.mpr hlength]
    by_cases heq : k.space = h.space
    · rw [heq, List.getElem?_set_self hlt]
      have hlengths : newExtent.length = ((extentOf space).map Prod.snd).length := by
        rw [List.length_map, hlength]
      exact ⟨space, _, hspace, rfl, List.map_fst_zip hlengths.le, List.map_snd_zip hlengths.ge⟩
    · obtain ⟨other, hother, hfirst⟩ := (hshares q k hk hdataset).resolve_left heq
      rw [List.getElem?_set_ne (Ne.symm heq)]
      exact ⟨other, other, hother, hother, hfirst, rfl⟩

/-- A call that is not refused for its arguments. -/
theorem consistent_iff_of_reads (hlog : FloorsLog10 floorLog10) (hh : s.handles call.handle = some h)
    (hintent : call.writeIntent = true) (hsize : call.size = some newExtent)
    (hspace : s.spaces[h.space]? = some space)
    (hexceeds : exceeds newExtent ((extentOf space).map Prod.snd) = some false) :
    Consistent floorLog10 s call ↔ Suffices s call h newExtent space := by
  have hle : (extentOf space).length ≤ newExtent.length := by
    have := exceeds_false hexceeds
    rwa [List.length_map] at this
  have hreads : rvDatasetSetExtent floorLog10 s call =
      if call.layout ≠ some .chunked ∨ call.allocated = false then failed s none
      else (requestBody floorLog10 (newExtent.take (extentOf space).length)).bind fun body =>
        if call.prepared = false ∨
            checkUrl (call.baseURL ++ lit "/datasets/" ++ h.uri ++ lit "/shape") = none then
          failed s none
        else if call.served = false ∨ call.stored = false then failed s (some body)
        else some ⟨some body, s.spaces.set h.space (.simple
          ((newExtent.take (extentOf space).length).zip ((extentOf space).map Prod.snd))), true⟩ := by
    rw [rvDatasetSetExtent, hh, Option.bind_eq_bind, Option.bind_some, if_neg (by simp [hintent]),
      hsize, hspace]
    simp only [hexceeds, Option.bind_eq_bind, Option.bind_some, Bool.false_eq_true, false_or,
      List.length_map]
  rw [Suffices, and_iff_right hle]
  by_cases hstops : call.layout ≠ some .chunked ∨ call.allocated = false
  · rw [if_pos hstops] at hreads
    refine iff_of_true (consistent_of_failed hreads) fun hlayout hallocated => ?_
    rcases hstops with hlayout' | hallocated'
    · exact absurd hlayout hlayout'
    · rw [hallocated] at hallocated'
      cases hallocated'
  · rw [if_neg hstops] at hreads
    push Not at hstops
    have hallocated : call.allocated = true := by simpa using hstops.2
    rw [forall_prop_of_true hstops.1, forall_prop_of_true hallocated]
    by_cases hne : extentOf space = []
    · rw [hne, List.length_nil, List.take_zero, requestBody_nil, Option.bind_none] at hreads
      refine iff_of_false ?_ fun hboth => hboth.1 hne
      rintro ⟨resized, hresized, -⟩
      rw [hreads] at hresized
      cases hresized
    · have hsent : newExtent.take (extentOf space).length ≠ [] := by
        intro hnil
        have hlength := congrArg List.length hnil
        rw [List.length_take, Nat.min_eq_left hle, List.length_nil] at hlength
        exact hne (List.eq_nil_of_length_eq_zero hlength)
      rw [requestBody_eq hlog hsent, Option.bind_some] at hreads
      rw [and_iff_right hne]
      by_cases hprepared : call.prepared = false ∨
          checkUrl (call.baseURL ++ lit "/datasets/" ++ h.uri ++ lit "/shape") = none
      · rw [if_pos hprepared] at hreads
        refine iff_of_true (consistent_of_failed hreads) fun hgets => ?_
        rcases hprepared with hprepared | hurl
        · rw [hgets.1] at hprepared
          cases hprepared
        · exact absurd hurl (Option.isSome_iff_ne_none.mp hgets.2.1)
      · rw [if_neg hprepared] at hreads
        by_cases hserved : call.served = false ∨ call.stored = false
        · rw [if_pos hserved] at hreads
          refine iff_of_true (consistent_of_failed hreads) fun hgets => ?_
          rcases hserved with hserved | hstored
          · rw [hgets.2.2.1] at hserved
            cases hserved
          · rw [hgets.2.2.2] at hstored
            cases hstored
        · rw [if_neg hserved] at hreads
          push Not at hprepared hserved
          have hgets : GetsToDataspace call h :=
            ⟨by simpa using hprepared.1, Option.isSome_iff_ne_none.mpr hprepared.2,
              by simpa using hserved.1, by simpa using hserved.2⟩
          rw [forall_prop_of_true hgets]
          exact consistent_iff_of_succeeds hh hsize hspace hle hreads

/-- Resizing is consistent exactly when the handle is open, and a call that gets as far as the buffers
has dimensions and enough numbers, and one that gets as far as the dataspace exactly as many and no
other handle of the dataset with another dataspace and another extent. -/
theorem resize_consistent_iff (hlog : FloorsLog10 floorLog10) (s : SharingState)
    (call : SetExtentCall) : Consistent floorLog10 s call ↔ Meets s call := by
  cases hh : s.handles call.handle with
  | none =>
      refine iff_of_false ?_ fun ⟨h, hsome, _⟩ => by rw [hh] at hsome; cases hsome
      rintro ⟨resized, hresized, -⟩
      rw [rvDatasetSetExtent, hh] at hresized
      cases hresized
  | some h =>
      -- Up to the array, every failure comes before anything is read or stored.
      have hfails (hstops : call.writeIntent = false ∨ call.size = none ∨
          s.spaces[h.space]? = none) : rvDatasetSetExtent floorLog10 s call = failed s none := by
        rw [rvDatasetSetExtent, hh, Option.bind_eq_bind, Option.bind_some]
        split
        · rfl
        · next hintent =>
            rcases hstops with hfalse | hnone | hnone
            · exact absurd hfalse hintent
            · rw [hnone]
            · rw [hnone]
              cases call.size <;> rfl
      have hmeets : Meets s call ↔ ∀ newExtent space, call.writeIntent = true →
          call.size = some newExtent → s.spaces[h.space]? = some space →
            exceeds newExtent ((extentOf space).map Prod.snd) ≠ some true →
              Suffices s call h newExtent space := by
        rw [Meets, hh]
        constructor
        · rintro ⟨h', heq, hrest⟩
          cases heq
          exact hrest
        · exact fun hrest => ⟨h, rfl, hrest⟩
      rw [hmeets]
      by_cases hstops : call.writeIntent = false ∨ call.size = none ∨ s.spaces[h.space]? = none
      · refine iff_of_true (consistent_of_failed (hfails hstops)) fun newExtent space hintent hsize
          hspace => ?_
        rcases hstops with hfalse | hnone | hnone
        · rw [hintent] at hfalse
          cases hfalse
        · rw [hsize] at hnone
          cases hnone
        · rw [hspace] at hnone
          cases hnone
      · push Not at hstops
        have hintent : call.writeIntent = true := by simpa using hstops.1
        obtain ⟨newExtent, hsize⟩ := Option.ne_none_iff_exists'.mp hstops.2.1
        obtain ⟨space, hspace⟩ := Option.ne_none_iff_exists'.mp hstops.2.2
        have hone : (∀ newExtent space, call.writeIntent = true → call.size = some newExtent →
            s.spaces[h.space]? = some space →
              exceeds newExtent ((extentOf space).map Prod.snd) ≠ some true →
                Suffices s call h newExtent space) ↔
            (exceeds newExtent ((extentOf space).map Prod.snd) ≠ some true →
              Suffices s call h newExtent space) := by
          refine ⟨fun hall => hall newExtent space hintent hsize hspace,
            fun hrest newExtent' space' _ hsize' hspace' => ?_⟩
          cases hsize.symm.trans hsize'
          cases hspace.symm.trans hspace'
          exact hrest
        rw [hone]
        have hcompares : rvDatasetSetExtent floorLog10 s call =
            (exceeds newExtent ((extentOf space).map Prod.snd)).bind fun tooLarge =>
              if tooLarge then failed s none else rvDatasetSetExtent floorLog10 s call := by
          cases hexceeds : exceeds newExtent ((extentOf space).map Prod.snd) with
          | none =>
              rw [rvDatasetSetExtent, hh, Option.bind_eq_bind, Option.bind_some,
                if_neg (by simp [hintent]), hsize, hspace]
              simp [hexceeds]
          | some tooLarge =>
              cases tooLarge with
              | false => rfl
              | true =>
                  rw [rvDatasetSetExtent, hh, Option.bind_eq_bind, Option.bind_some,
                    if_neg (by simp [hintent]), hsize, hspace]
                  simp [hexceeds]
        cases hexceeds : exceeds newExtent ((extentOf space).map Prod.snd) with
        | none =>
            have hshort := exceeds_none hexceeds
            rw [List.length_map] at hshort
            refine iff_of_false ?_ fun hrest => absurd (hrest nofun).1 (Nat.not_le_of_lt hshort)
            rintro ⟨resized, hresized, -⟩
            rw [hcompares, hexceeds] at hresized
            cases hresized
        | some tooLarge =>
            cases tooLarge with
            | true =>
                rw [hexceeds, Option.bind_some, if_pos rfl] at hcompares
                exact iff_of_true (consistent_of_failed hcompares) fun hne => absurd rfl hne
            | false =>
                rw [consistent_iff_of_reads hlog hh hintent hsize hspace hexceeds]
                exact ⟨fun hrest _ => hrest, fun hrest => hrest nofun⟩

end Result

/-! ## Two handles -/

/-- A vector of four elements that may have up to eight, open twice, with one dataspace or two. -/
def twoHandles (second : Nat) : SharingState where
  files _ := none
  handles := Function.update
    (Function.update (fun _ => none) 16 (some ⟨8, ⟨['f'], ['v']⟩, ['d'], 0⟩))
    32 (some ⟨8, ⟨['f'], ['v']⟩, ['d'], second⟩)
  table _ := none
  spaces := [.simple [(4, 8)], .simple [(4, 8)]]

/-- Six elements for the first handle, and every step succeeds. -/
def sixElements : SetExtentCall where
  handle := 16
  writeIntent := true
  size := some [6]
  layout := some .chunked
  baseURL := []
  allocated := true
  prepared := true
  served := true
  stored := true

theorem resize_consistent_shared : Consistent (Nat.log 10) (twoHandles 0) sixElements := by
  refine (resize_consistent_iff (fun k e => ?_) _ _).mpr ?_
  · intro hle
    exact Nat.le_log_of_pow_le (by decide) hle
  · refine ⟨⟨8, ⟨['f'], ['v']⟩, ['d'], 0⟩, rfl, fun newExtent space _ hsize hspace _ => ?_⟩
    cases hsize
    cases hspace
    refine ⟨le_rfl, fun _ _ => ⟨nofun, fun _ => ⟨rfl, fun q k hk _ => .inl ?_⟩⟩⟩
    simp only [twoHandles, Function.update_apply] at hk
    split at hk
    · cases hk
      rfl
    · split at hk <;> cases hk
      rfl

/-- The other handle keeps its four elements when it has a dataspace of its own. -/
theorem not_resize_consistent_apart : ¬ ∀ floorLog10, FloorsLog10 floorLog10 →
    Consistent floorLog10 (twoHandles 1) sixElements := by
  intro hall
  have hlog : FloorsLog10 (Nat.log 10) := fun k e hle => Nat.le_log_of_pow_le (by decide) hle
  have hsuffices := (consistent_iff_of_reads (h := ⟨8, ⟨['f'], ['v']⟩, ['d'], 0⟩) hlog rfl rfl rfl
    rfl (by decide)).mp (hall (Nat.log 10) hlog)
  have hurl : (checkUrl ([] ++ lit "/datasets/" ++ ['d'] ++ lit "/shape")).isSome = true := by
    repeat rw [lit_ofList]
    decide
  have hshares := ((hsuffices.2 rfl rfl).2 ⟨rfl, hurl, rfl, rfl⟩).2 32
    ⟨8, ⟨['f'], ['v']⟩, ['d'], 1⟩ rfl rfl
  rcases hshares with hsame | ⟨other, hother, hextent⟩
  · cases hsame
  · cases hother
    cases hextent

end XHDF5.Exchange.Resize
