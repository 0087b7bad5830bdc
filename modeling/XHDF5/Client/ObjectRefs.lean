/-
# Object references in slots

For a write the client puts each object reference into a slot of 48 characters: the collection of
the object, a slash and its URI, with NULs behind them. What it reads back is cut at the slash of
each slot, and the first letter of the URI decides about the kind of the object.

The memory that the references are read into is not initialised, so a kind that is not stored is
not there. `ref_type` is always `H5R_OBJECT` and left out.
-/

import XHDF5.Math.CString

namespace XHDF5.Client.ObjectRefs

open XHDF5.Math

/-- The types of objects that a reference can tell apart; the others of `H5I_type_t` are treated
like attributes. -/
inductive RefObjType
  | file
  | group
  | datatype
  | dataset
  | attr
  | badID
deriving DecidableEq

/-- An `rv_obj_ref_t`. -/
structure RvObjRef where
  refObjType : RefObjType
  refObjURI : Text
deriving DecidableEq

/-- `OBJECT_REF_STRING_LEN`. -/
def objectRefStringLen : Nat := 48

/-! ## Writing -/

/-- `prefix_table` at the index of a type. -/
def prefixTable : RefObjType → Option Text
  | .file | .group => some (lit "groups")
  | .datatype => some (lit "datatypes")
  | .dataset => some (lit "datasets")
  | .attr | .badID => none

/-- One slot, cleared and printed into. -/
def refSlot (r : RvObjRef) : Option Text :=
  if r.refObjURI = [] then some (List.replicate objectRefStringLen nul)
  else
    (prefixTable r.refObjType).bind fun collection =>
      let text := collection ++ '/' :: r.refObjURI
      if objectRefStringLen + 1 ≤ text.length then none
      else some (padded (text.take (objectRefStringLen - 1)) objectRefStringLen)

/-- The slots of some references. -/
def refSlots : List RvObjRef → Option Text
  | [] => some []
  | r :: refs => (refSlot r).bind fun slot => (refSlots refs).map fun slots => slot ++ slots

/-- `RV_convert_obj_refs_to_buffer`. -/
def rvConvertObjRefsToBuffer (refArray : List RvObjRef) : Option Text :=
  if refArray = [] then none else refSlots refArray

/-! ## Reading -/

/-- A reference that was read: its type, if one was stored, and its URI, if there is a NUL behind
it. -/
structure ReadRef where
  refObjType : Option RefObjType
  refObjURI : Option Text
deriving DecidableEq

/-- The type for the first letter of a URI. -/
def typeOfLetter (letter : Char) : RefObjType :=
  if letter = 'g' then .group
  else if letter = 't' then .datatype
  else if letter = 'd' then .dataset
  else .badID

/-- One reference from the memory at its slot. A read past the end of the memory is undefined. -/
def readRef (memory : Text) : Outcome ReadRef :=
  match memory.dropWhile fun c => c ≠ nul ∧ c ≠ '/' with
  | [] => .undefined
  | c :: uriStart =>
      if c = nul then .ok ⟨none, some []⟩
      else
        let copied := uriStart.take objectRefStringLen
        if nul ∉ copied ∧ copied.length < objectRefStringLen then .undefined
        else
          .ok ⟨uriStart.head?.map typeOfLetter,
            if nul ∈ copied then some (cString copied) else none⟩

/-- The references in some slots. -/
def readRefs : Nat → Text → Outcome (List ReadRef)
  | 0, _ => .ok []
  | count + 1, memory =>
      (readRef memory).bind fun r =>
        (readRefs count (memory.drop objectRefStringLen)).bind fun refs => .ok (r :: refs)

/-- `RV_convert_buffer_to_obj_refs`. -/
def rvConvertBufferToObjRefs (refBuf : Text) (refBufLen : Nat) : Outcome (List ReadRef) :=
  if refBufLen = 0 then .fail else readRefs refBufLen refBuf

/-! ## Round trips -/

/-- A reference to a group, a dataset or a committed datatype. -/
structure ObjectReference extends RvObjRef where
  isObject : refObjType ∈ [RefObjType.group, .dataset, .datatype]
  isString : nul ∉ refObjURI

/-- What should be read for a reference. -/
def ObjectReference.same (r : ObjectReference) : ReadRef where
  refObjType := some r.refObjType
  refObjURI := some r.refObjURI

/-- The references are written, and what is read is the same. -/
def RoundTrips (refs : List ObjectReference) : Prop :=
  ∃ refBuf, rvConvertObjRefsToBuffer (refs.map (·.toRvObjRef)) = some refBuf ∧
    rvConvertBufferToObjRefs refBuf refs.length = .ok (refs.map ObjectReference.same)

/-- The collection of an object. -/
def ObjectReference.collection (r : ObjectReference) : Text :=
  (prefixTable r.refObjType).getD []

/-- The collection, the slash and the URI leave a character of the slot for a NUL, and the URI
begins with the letter of the type. -/
structure ObjectReference.Keeps (r : ObjectReference) : Prop where
  named : r.refObjURI.head?.map typeOfLetter = some r.refObjType
  fits : r.collection.length + 1 + r.refObjURI.length < objectRefStringLen

namespace ObjectReference

variable (r : ObjectReference)

/-- The collection is a short word. -/
theorem prefixTable_eq : ∃ collection, prefixTable r.refObjType = some collection ∧
    r.collection = collection ∧ collection.length < 10 ∧
      ∀ c ∈ collection, c ≠ nul ∧ c ≠ '/' := by
  have hobject := r.isObject
  unfold collection
  cases htype : r.refObjType with
  | file | attr | badID => simp [htype] at hobject
  | group | datatype | dataset =>
      refine ⟨_, rfl, rfl, ?_, ?_⟩
      · rw [lit_ofList]
        decide
      · rw [lit_ofList]
        decide

/-- What is left of the URI in the slot. -/
def kept : Text := r.refObjURI.take (objectRefStringLen - 2 - r.collection.length)

/-- A slot that is printed. -/
theorem refSlot_eq {slot : Text} (hne : r.refObjURI ≠ []) (hslot : refSlot r.toRvObjRef = some slot) :
    ∃ zeros, slot = r.collection ++ '/' :: (r.kept ++ nul :: zeros) ∧ slot.length = 48 := by
  obtain ⟨collection, hprefixed, hcollection, hshort, hplain⟩ := r.prefixTable_eq
  rw [refSlot, if_neg hne, hprefixed, Option.bind_some] at hslot
  simp only at hslot
  split at hslot
  · cases hslot
  have htake : (collection ++ '/' :: r.refObjURI).take (objectRefStringLen - 1) =
      collection ++ '/' :: r.kept := by
    rw [kept, hcollection, List.take_append, List.take_of_length_le (by
      unfold objectRefStringLen; omega)]
    have hrest : objectRefStringLen - 1 - collection.length =
        objectRefStringLen - 2 - collection.length + 1 := by
      unfold objectRefStringLen
      omega
    rw [hrest, List.take_succ_cons]
  have hclean : nul ∉ collection ++ '/' :: r.kept := fun hmem => by
    rcases List.mem_append.mp hmem with hmem | hmem
    · exact (hplain nul hmem).1 rfl
    · rcases List.mem_cons.mp hmem with hmem | hmem
      · exact absurd hmem (by decide)
      · exact r.isString (List.mem_of_mem_take hmem)
  have hlength : strlen (collection ++ '/' :: r.kept) < objectRefStringLen := by
    rw [← htake]
    refine Nat.lt_of_le_of_lt (strlen_le _) ?_
    rw [List.length_take]
    unfold objectRefStringLen
    omega
  have hpadded := padded_of_lt hlength
  rw [cString_of_not_mem hclean, List.append_assoc, List.cons_append, ← htake] at hpadded
  cases hslot
  rw [hcollection]
  exact ⟨_, hpadded, length_padded ..⟩

/-- What is read from a slot that was printed. -/
theorem readRef_append {slot : Text} (hne : r.refObjURI ≠ [])
    (hslot : refSlot r.toRvObjRef = some slot) (rest : Text) :
    readRef (slot ++ rest) =
      .ok ⟨r.refObjURI.head?.map typeOfLetter, some r.kept⟩ := by
  obtain ⟨zeros, rfl, -⟩ := r.refSlot_eq hne hslot
  obtain ⟨collection, -, hcollection, hshort, hplain⟩ := r.prefixTable_eq
  have hclean : nul ∉ r.kept := fun hmem => r.isString (List.mem_of_mem_take hmem)
  have hskip : (r.collection ++ '/' :: (r.kept ++ nul :: zeros) ++ rest).dropWhile
      (fun c => decide (c ≠ nul ∧ c ≠ '/')) = '/' :: (r.kept ++ nul :: (zeros ++ rest)) := by
    rw [List.append_assoc, hcollection, List.dropWhile_append_of_pos fun c hc =>
      decide_eq_true (hplain c hc)]
    simp
  have hlength : r.kept.length < objectRefStringLen := by
    refine Nat.lt_of_le_of_lt (List.length_take_le _ _) ?_
    unfold objectRefStringLen
    omega
  have htake : (r.kept ++ nul :: (zeros ++ rest)).take objectRefStringLen = r.kept ++ nul ::
      (zeros ++ rest).take (objectRefStringLen - r.kept.length - 1) := by
    obtain ⟨m, hm⟩ := Nat.exists_eq_add_of_lt hlength
    have hm' : objectRefStringLen - r.kept.length = m + 1 := by omega
    rw [List.take_append, List.take_of_length_le (Nat.le_of_lt hlength), hm', List.take_succ_cons,
      Nat.add_sub_cancel]
  have hhead : (r.kept ++ nul :: (zeros ++ rest)).head? = r.refObjURI.head? := by
    obtain ⟨c, uri, huri⟩ := List.exists_cons_of_ne_nil hne
    have hroom : ∃ m, objectRefStringLen - 2 - r.collection.length = m + 1 := by
      refine ⟨objectRefStringLen - 3 - r.collection.length, ?_⟩
      rw [hcollection]
      unfold objectRefStringLen
      omega
    obtain ⟨m, hm⟩ := hroom
    rw [kept, hm, huri]
    rfl
  rw [readRef, hskip]
  have hnul : ('/' : Char) ≠ nul := by decide
  simp only [if_neg hnul, htake, hhead, List.mem_append, List.mem_cons, true_or, or_true,
    not_true_eq_false, false_and, if_false, if_true, cString_append_nul hclean]

/-- A reference comes back the same just when it keeps within its slot. -/
theorem readRef_iff {slot : Text} (hslot : refSlot r.toRvObjRef = some slot) (rest : Text) :
    readRef (slot ++ rest) = .ok r.same ↔ r.Keeps := by
  by_cases hne : r.refObjURI = []
  · rw [refSlot, if_pos hne] at hslot
    cases hslot
    refine iff_of_false (fun h => ?_) fun h => ?_
    · have hread : readRef (List.replicate objectRefStringLen nul ++ rest) = .ok ⟨none, some []⟩ := by
        rfl
      rw [hread] at h
      cases h
    · have hnamed := h.named
      rw [hne] at hnamed
      cases hnamed
  · rw [r.readRef_append hne hslot rest, Outcome.ok.injEq, same, ReadRef.mk.injEq, Option.some_inj,
      kept, List.take_eq_self_iff]
    have hshort : r.collection.length < 10 := by
      obtain ⟨collection, -, hcollection, hshort, -⟩ := r.prefixTable_eq
      exact hcollection ▸ hshort
    constructor
    · rintro ⟨hnamed, hfits⟩
      refine ⟨hnamed, ?_⟩
      unfold objectRefStringLen at hfits ⊢
      omega
    · intro h
      refine ⟨h.named, ?_⟩
      have hfits := h.fits
      unfold objectRefStringLen at hfits ⊢
      omega

/-- A reference that keeps within its slot gets one. -/
theorem Keeps.exists_slot {r : ObjectReference} (h : r.Keeps) :
    ∃ slot, refSlot r.toRvObjRef = some slot := by
  obtain ⟨collection, hprefixed, hcollection, -⟩ := r.prefixTable_eq
  have hne : r.refObjURI ≠ [] := fun hnil => by
    have hnamed := h.named
    rw [hnil] at hnamed
    cases hnamed
  have hfits := h.fits
  rw [hcollection] at hfits
  have hlength : ¬ objectRefStringLen + 1 ≤ (collection ++ '/' :: r.refObjURI).length := by
    rw [List.length_append, List.length_cons]
    omega
  exact ⟨_, by rw [refSlot, if_neg hne, hprefixed, Option.bind_some, if_neg hlength]⟩

theorem length_refSlot {slot : Text} (hslot : refSlot r.toRvObjRef = some slot) :
    slot.length = objectRefStringLen := by
  by_cases hne : r.refObjURI = []
  · rw [refSlot, if_pos hne] at hslot
    cases hslot
    exact List.length_replicate
  · obtain ⟨zeros, -, hlength⟩ := r.refSlot_eq hne hslot
    exact hlength

end ObjectReference

/-- The slots of some references come back the same just when each reference does. -/
theorem readRefs_iff (refs : List ObjectReference) :
    (∃ slots, refSlots (refs.map (·.toRvObjRef)) = some slots ∧
      readRefs refs.length slots = .ok (refs.map ObjectReference.same)) ↔ ∀ r ∈ refs, r.Keeps := by
  induction refs with
  | nil => exact iff_of_true ⟨[], rfl, rfl⟩ fun _ h => by cases h
  | cons r refs ih =>
      rw [List.forall_mem_cons, ← ih]
      constructor
      · rintro ⟨all, hall, hread⟩
        obtain ⟨slot, hslot, hall⟩ := Option.bind_eq_some_iff.mp hall
        obtain ⟨slots, hslots, rfl⟩ := Option.map_eq_some_iff.mp hall
        rw [List.length_cons, readRefs, List.map_cons,
          List.drop_left' (r.length_refSlot hslot)] at hread
        obtain ⟨first, hfirst, hread⟩ := Outcome.bind_eq_ok_iff.mp hread
        obtain ⟨others, hothers, hread⟩ := Outcome.bind_eq_ok_iff.mp hread
        obtain ⟨rfl, rfl⟩ := List.cons_eq_cons.mp (Outcome.ok.inj hread)
        exact ⟨(r.readRef_iff hslot slots).mp hfirst, slots, hslots, hothers⟩
      · rintro ⟨hkeeps, slots, hslots, hread⟩
        obtain ⟨slot, hslot⟩ := hkeeps.exists_slot
        refine ⟨slot ++ slots, ?_, ?_⟩
        · rw [List.map_cons, refSlots, hslot, Option.bind_some, hslots, Option.map_some]
        · rw [List.length_cons, readRefs, (r.readRef_iff hslot slots).mpr hkeeps, Outcome.ok_bind,
            List.drop_left' (r.length_refSlot hslot), hread]
          rfl

/-- References round-trip exactly when there are any and each one keeps within its slot. -/
theorem references_roundTrip_iff (refs : List ObjectReference) :
    RoundTrips refs ↔ refs ≠ [] ∧ ∀ r ∈ refs, r.Keeps := by
  rw [← readRefs_iff]
  unfold RoundTrips rvConvertObjRefsToBuffer rvConvertBufferToObjRefs
  cases refs with
  | nil => simp
  | cons r refs => simp

/-- A reference to a committed datatype with a URI as the server makes them. -/
def datatypeRef : ObjectReference where
  refObjType := .datatype
  refObjURI := lit "t-7e538c7e-d9dd-11e7-b940-0242ac110009"
  isObject := by decide
  isString := by
    rw [lit_ofList]
    decide

/-- The last digit of its URI is lost. -/
theorem not_roundTrips_datatypeRef : ¬ ∀ refs, RoundTrips refs := fun h => by
  obtain ⟨refBuf, hwrite, hread⟩ := h [datatypeRef]
  have hsame : (rvConvertObjRefsToBuffer [datatypeRef.toRvObjRef]).map
      (rvConvertBufferToObjRefs · 1) = some (.ok [datatypeRef.same]) := by
    rw [show rvConvertObjRefsToBuffer [datatypeRef.toRvObjRef] = some refBuf from hwrite]
    exact congrArg some hread
  revert hsame
  decide +kernel

end XHDF5.Client.ObjectRefs
