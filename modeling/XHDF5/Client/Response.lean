/-
# The shared response buffer

A read from several servers allocates one response buffer for a dataset and gives every node a
slice of it. curl hands each piece of a node's body to
`H5_rest_curl_write_data_callback_no_global`, which copies it to the node's cursor, advances the
cursor and puts a NUL behind it. The growth of the buffer is commented out in the source.

Pointers are offsets into the allocation. A store beyond it is kept in the memory, where no
later load of the code looks, so that the results below can say where the callback writes.
-/

import Mathlib.Data.List.Induction
import XHDF5.Math.Region

namespace XHDF5.Client

open XHDF5.Math

/-- `struct response_buffer`. -/
structure ResponseBuffer where
  buffer : Nat
  currBufPtr : Nat
  bufferSize : Nat
deriving DecidableEq

/-- What a call of the callback does: its return value, the updated structure, and its stores
in the order it makes them. -/
structure CallbackResult where
  retValue : Nat
  buffer : ResponseBuffer
  stores : List (Nat × List UInt8)

/-- `H5_rest_curl_write_data_callback_no_global`. -/
def h5RestCurlWriteDataCallbackNoGlobal (data : List UInt8) (b : ResponseBuffer) :
    CallbackResult :=
  let dataSize := data.length
  if b.currBufPtr + dataSize < b.buffer then ⟨0, b, []⟩
  else
    let currBufPtr := b.currBufPtr + dataSize
    ⟨dataSize, { b with currBufPtr }, [(b.currBufPtr, data), (currBufPtr, [0])]⟩

/-- The response buffer of a dataset and the structures of its nodes. -/
structure Assembly where
  memory : Memory UInt8
  buffers : List ResponseBuffer

/-- The structures `RV_dataset_read` sets up: each slice starts where the one before it ends. -/
def setupBuffers (typeSize : Nat) : Nat → List Nat → List ResponseBuffer
  | _, [] => []
  | buffer, size :: nodeSize =>
      { buffer, currBufPtr := buffer, bufferSize := size * typeSize } ::
        setupBuffers typeSize (buffer + size * typeSize) nodeSize

/-- A dataset before its first response; `calloc` zeroes the buffer. -/
def setup (nodeSize : List Nat) (typeSize : Nat) : Assembly :=
  ⟨fun _ => 0, setupBuffers typeSize 0 nodeSize⟩

/-- The bytes of each slice. -/
def sliceSizes (nodeSize : List Nat) (typeSize : Nat) : List Nat := nodeSize.map (· * typeSize)

/-- The stores of one delivery. -/
def storesOf (s : Assembly) (delivery : Nat × List UInt8) : List (Nat × List UInt8) :=
  match s.buffers[delivery.1]? with
  | none => []
  | some b => (h5RestCurlWriteDataCallbackNoGlobal delivery.2 b).stores

/-- curl delivers a chunk to a node. -/
def deliver (s : Assembly) (delivery : Nat × List UInt8) : Assembly :=
  match s.buffers[delivery.1]? with
  | none => s
  | some b =>
      let result := h5RestCurlWriteDataCallbackNoGlobal delivery.2 b
      ⟨result.stores.foldl (fun memory store => memory.write store.1 store.2) s.memory,
        s.buffers.set delivery.1 result.buffer⟩

/-- All deliveries of a schedule, in its order. -/
def deliverAll (s : Assembly) (schedule : List (Nat × List UInt8)) : Assembly :=
  schedule.foldl deliver s

/-- A complete transfer: every node's chunks add up to a body of its slice's length. -/
structure Transferred (nodeSize : List Nat) (typeSize : Nat) (bodies : List (List UInt8))
    (schedule : List (Nat × List UInt8)) : Prop where
  sizes : bodies.map List.length = sliceSizes nodeSize typeSize
  nodes : ∀ delivery ∈ schedule, delivery.1 < bodies.length
  received : ∀ i, (hi : i < bodies.length) → received i schedule = bodies[i]

/-- The buffer holds the bodies in node order. -/
def Assembled (nodeSize : List Nat) (typeSize : Nat) (bodies : List (List UInt8))
    (schedule : List (Nat × List UInt8)) : Prop :=
  (deliverAll (setup nodeSize typeSize) schedule).memory.read 0 (sliceSizes nodeSize typeSize).sum =
    bodies.flatten

/-- No delivery of the schedule stores outside the slice of its own node. -/
def Confined (nodeSize : List Nat) (typeSize : Nat) (schedule : List (Nat × List UInt8)) : Prop :=
  ∀ before delivery after, schedule = before ++ delivery :: after →
    ∀ store ∈ storesOf (deliverAll (setup nodeSize typeSize) before) delivery,
      ∀ k < store.2.length,
        sliceStart (sliceSizes nodeSize typeSize) delivery.1 ≤ store.1 + k ∧
          store.1 + k < sliceStart (sliceSizes nodeSize typeSize) (delivery.1 + 1)

/-- After its own first byte arrived, the slice is hit by the NUL of an earlier slice that ends
where it begins. -/
def Clobbered (sizes : List Nat) (schedule : List (Nat × List UInt8)) (i : Nat) : Prop :=
  ∃ before delivery after, schedule = before ++ delivery :: after ∧ delivery.1 < i ∧
    sliceStart sizes delivery.1 + (received delivery.1 (before ++ [delivery])).length =
      sliceStart sizes i ∧
    received i before ≠ []

/-! ## The callback -/

theorem storesOf_eq {s : Assembly} {delivery : Nat × List UInt8} {b : ResponseBuffer}
    (hb : s.buffers[delivery.1]? = some b) (hcursor : b.buffer ≤ b.currBufPtr) :
    storesOf s delivery =
      [(b.currBufPtr, delivery.2), (b.currBufPtr + delivery.2.length, [0])] := by
  rw [storesOf, hb]
  simp only [h5RestCurlWriteDataCallbackNoGlobal, if_neg (by omega : ¬ b.currBufPtr +
    delivery.2.length < b.buffer)]

theorem deliver_eq {s : Assembly} {delivery : Nat × List UInt8} {b : ResponseBuffer}
    (hb : s.buffers[delivery.1]? = some b) (hcursor : b.buffer ≤ b.currBufPtr) :
    deliver s delivery =
      ⟨s.memory.write b.currBufPtr (delivery.2 ++ [0]),
        s.buffers.set delivery.1 { b with currBufPtr := b.currBufPtr + delivery.2.length }⟩ := by
  rw [deliver, hb, Memory.write_append]
  simp only [h5RestCurlWriteDataCallbackNoGlobal, if_neg (by omega : ¬ b.currBufPtr +
    delivery.2.length < b.buffer)]
  rfl

/-! ## Setting up -/

theorem length_setupBuffers (typeSize buffer : Nat) (nodeSize : List Nat) :
    (setupBuffers typeSize buffer nodeSize).length = nodeSize.length := by
  induction nodeSize generalizing buffer with
  | nil => rfl
  | cons size nodeSize ih => simp [setupBuffers, ih]

theorem getElem_setupBuffers (typeSize buffer : Nat) (nodeSize : List Nat) (i : Nat)
    (hi : i < (setupBuffers typeSize buffer nodeSize).length) :
    (setupBuffers typeSize buffer nodeSize)[i].buffer =
        buffer + sliceStart (sliceSizes nodeSize typeSize) i ∧
      (setupBuffers typeSize buffer nodeSize)[i].currBufPtr =
        buffer + sliceStart (sliceSizes nodeSize typeSize) i := by
  induction nodeSize generalizing buffer i with
  | nil => simp [setupBuffers] at hi
  | cons size nodeSize ih =>
      cases i with
      | zero => simp [setupBuffers]
      | succ i =>
          have hi : i < (setupBuffers typeSize (buffer + size * typeSize) nodeSize).length := by
            simpa [setupBuffers] using hi
          simpa [setupBuffers, sliceSizes, Nat.add_assoc] using ih (buffer + size * typeSize) i hi

theorem getElem?_setupBuffers {nodeSize : List Nat} {i size : Nat} (hi : nodeSize[i]? = some size)
    (typeSize buffer : Nat) :
    (setupBuffers typeSize buffer nodeSize)[i]? =
      some ⟨buffer + sliceStart (sliceSizes nodeSize typeSize) i,
        buffer + sliceStart (sliceSizes nodeSize typeSize) i, size * typeSize⟩ := by
  induction nodeSize generalizing buffer i with
  | nil => cases hi
  | cons first nodeSize ih =>
      cases i with
      | zero =>
          rw [List.getElem?_cons_zero, Option.some.injEq] at hi
          simp [setupBuffers, hi]
      | succ i =>
          rw [List.getElem?_cons_succ] at hi
          simpa [setupBuffers, sliceSizes, Nat.add_assoc] using ih hi (buffer + first * typeSize)

/-! ## Deliveries -/

theorem clobbered_snoc {sizes : List Nat} {schedule : List (Nat × List UInt8)}
    {delivery : Nat × List UInt8} {i : Nat} :
    Clobbered sizes (schedule ++ [delivery]) i ↔
      Clobbered sizes schedule i ∨ (delivery.1 < i ∧
        sliceStart sizes delivery.1 + (received delivery.1 (schedule ++ [delivery])).length =
          sliceStart sizes i ∧ received i schedule ≠ []) := by
  constructor
  · rintro ⟨before, earlier, after, hsplit, hlt, hend, hfirst⟩
    rcases List.eq_nil_or_concat after with rfl | ⟨after, last, rfl⟩
    · obtain ⟨rfl, hlast⟩ := List.append_inj' hsplit rfl
      obtain rfl : delivery = earlier := (List.cons.inj hlast).1
      exact Or.inr ⟨hlt, hend, hfirst⟩
    · rw [List.concat_eq_append, ← List.cons_append, ← List.append_assoc] at hsplit
      obtain ⟨rfl, -⟩ := List.append_inj' hsplit rfl
      exact Or.inl ⟨before, earlier, after, rfl, hlt, hend, hfirst⟩
  · rintro (⟨before, earlier, after, rfl, hlt, hend, hfirst⟩ | ⟨hlt, hend, hfirst⟩)
    · exact ⟨before, earlier, after ++ [delivery], by simp, hlt, hend, hfirst⟩
    · exact ⟨schedule, delivery, [], rfl, hlt, hend, hfirst⟩

/-- What holds after a schedule that keeps within the slices: the cursors count the bytes, and
every byte is in its place unless it is a first byte that was clobbered. -/
structure Delivered (sizes : List Nat) (schedule : List (Nat × List UInt8)) (s : Assembly) :
    Prop where
  length_buffers : s.buffers.length = sizes.length
  buffer_eq : ∀ i, (hi : i < s.buffers.length) → s.buffers[i].buffer = sliceStart sizes i
  cursor_eq : ∀ i, (hi : i < s.buffers.length) →
    s.buffers[i].currBufPtr = sliceStart sizes i + (received i schedule).length
  kept : ∀ i < sizes.length, ∀ k, (hk : k < (received i schedule).length) →
    (k = 0 → ¬ Clobbered sizes schedule i) →
      s.memory (sliceStart sizes i + k) = (received i schedule)[k]
  lost : ∀ i < sizes.length, Clobbered sizes schedule i → s.memory (sliceStart sizes i) = 0

/-- No delivery brings more than its slice holds. -/
def Within (sizes : List Nat) (schedule : List (Nat × List UInt8)) : Prop :=
  (∀ delivery ∈ schedule, delivery.1 < sizes.length) ∧
    ∀ i, (hi : i < sizes.length) → (received i schedule).length ≤ sizes[i]

theorem Within.of_append {sizes : List Nat} {first second : List (Nat × List UInt8)}
    (h : Within sizes (first ++ second)) : Within sizes first :=
  ⟨fun delivery hd => h.1 delivery (List.mem_append_left _ hd),
    fun i hi => Nat.le_trans (length_received_le i first second) (h.2 i hi)⟩

theorem delivered_setup (nodeSize : List Nat) (typeSize : Nat) :
    Delivered (sliceSizes nodeSize typeSize) [] (setup nodeSize typeSize) where
  length_buffers := by simp [setup, length_setupBuffers, sliceSizes]
  buffer_eq i hi := by
    have hslice := (getElem_setupBuffers typeSize 0 nodeSize i hi).1
    rwa [Nat.zero_add] at hslice
  cursor_eq i hi := by
    have hslice := (getElem_setupBuffers typeSize 0 nodeSize i hi).2
    rwa [Nat.zero_add] at hslice
  kept i _ k hk := absurd hk (Nat.not_lt_zero k)
  lost i _ hclobbered := by
    obtain ⟨before, delivery, after, hsplit, -⟩ := hclobbered
    cases before <;> cases hsplit

section Step

variable {sizes : List Nat} {schedule : List (Nat × List UInt8)} {s : Assembly}
  {delivery : Nat × List UInt8}

theorem received_snoc_self :
    received delivery.1 (schedule ++ [delivery]) = received delivery.1 schedule ++ delivery.2 := by
  rw [received_snoc, if_pos rfl]

theorem received_snoc_of_ne {i : Nat} (hne : i ≠ delivery.1) :
    received i (schedule ++ [delivery]) = received i schedule := by
  rw [received_snoc, if_neg (Ne.symm hne), List.append_nil]

/-- The cursor of a node that has received its part of a schedule. -/
def cursor (sizes : List Nat) (schedule : List (Nat × List UInt8)) (node : Nat) : Nat :=
  sliceStart sizes node + (received node schedule).length

theorem sliceStart_le_cursor (sizes : List Nat) (schedule : List (Nat × List UInt8)) (node : Nat) :
    sliceStart sizes node ≤ cursor sizes schedule node :=
  Nat.le_add_right _ _

theorem Within.cursor_le (hwithin : Within sizes (schedule ++ [delivery]))
    (hnode : delivery.1 < sizes.length) :
    cursor sizes schedule delivery.1 + delivery.2.length ≤
      sliceStart sizes delivery.1 + sizes[delivery.1] := by
  have hroom := hwithin.2 delivery.1 hnode
  rw [received_snoc_self, List.length_append] at hroom
  rw [cursor]
  omega

/-- One delivery in terms of the counted bytes. -/
theorem Delivered.deliver_eq (h : Delivered sizes schedule s) (hnode : delivery.1 < sizes.length) :
    storesOf s delivery = [(cursor sizes schedule delivery.1, delivery.2),
        (cursor sizes schedule delivery.1 + delivery.2.length, [0])] ∧
      deliver s delivery =
        ⟨s.memory.write (cursor sizes schedule delivery.1) (delivery.2 ++ [0]),
          s.buffers.set delivery.1 ⟨sliceStart sizes delivery.1,
            cursor sizes schedule delivery.1 + delivery.2.length,
            (s.buffers.get ⟨delivery.1, h.length_buffers ▸ hnode⟩).bufferSize⟩⟩ := by
  have hindex : delivery.1 < s.buffers.length := h.length_buffers ▸ hnode
  have hentry := List.getElem?_eq_getElem hindex
  have hbuffer := h.buffer_eq delivery.1 hindex
  have hcursor : s.buffers[delivery.1].currBufPtr = cursor sizes schedule delivery.1 :=
    h.cursor_eq delivery.1 hindex
  have hle : s.buffers[delivery.1].buffer ≤ s.buffers[delivery.1].currBufPtr := by
    rw [hbuffer, hcursor]
    exact sliceStart_le_cursor _ _ _
  constructor
  · rw [storesOf_eq hentry hle, hcursor]
  · rw [Client.deliver_eq hentry hle]
    simp only [hcursor, hbuffer, List.get_eq_getElem]

/-- A delivery keeps every byte that is not a first byte it clobbers. -/
theorem Delivered.kept_step (h : Delivered sizes schedule s)
    (hwithin : Within sizes (schedule ++ [delivery])) {i : Nat} (hi : i < sizes.length) {k : Nat}
    (hk : k < (received i (schedule ++ [delivery])).length)
    (hsafe : k = 0 → ¬ Clobbered sizes (schedule ++ [delivery]) i) :
    s.memory.write (cursor sizes schedule delivery.1) (delivery.2 ++ [0])
        (sliceStart sizes i + k) =
      (received i (schedule ++ [delivery]))[k] := by
  have hnode : delivery.1 < sizes.length := hwithin.1 delivery (by simp)
  have hsafe' : k = 0 → ¬ Clobbered sizes schedule i := fun hzero hclobbered =>
    hsafe hzero (clobbered_snoc.mpr (Or.inl hclobbered))
  by_cases hown : i = delivery.1
  · subst hown
    simp only [received_snoc_self] at hk ⊢
    by_cases hold : k < (received delivery.1 schedule).length
    · rw [Memory.write_of_lt (by rw [cursor]; omega), List.getElem_append_left hold]
      exact h.kept _ hi k hold hsafe'
    · obtain ⟨m, rfl⟩ := Nat.exists_eq_add_of_le (Nat.le_of_not_lt hold)
      have hm : m < delivery.2.length := by
        rw [List.length_append] at hk
        omega
      rw [← Nat.add_assoc, ← cursor, Memory.write_add (by rw [List.length_append]; omega),
        List.getElem_append_left hm, List.getElem_append_right (Nat.le_add_right _ _)]
      simp
  · have hlen := hwithin.2 i hi
    simp only [received_snoc_of_ne hown] at hk hlen ⊢
    rw [write_terminated_other hi hnode hown (sliceStart_le_cursor _ _ _) (hwithin.cursor_le hnode)
      (Nat.lt_of_lt_of_le hk hlen) fun hzero hlt hend => ?_]
    · exact h.kept i hi k hk hsafe'
    · refine hsafe hzero (clobbered_snoc.mpr (Or.inr ⟨hlt, ?_, ?_⟩))
      · rw [received_snoc_self, List.length_append, ← Nat.add_assoc]
        exact hend
      · exact List.length_pos_iff.mp (Nat.lt_of_le_of_lt (Nat.zero_le k) hk)

/-- A clobbered first byte stays zero, as its own node never comes back to it. -/
theorem Delivered.lost_step (h : Delivered sizes schedule s)
    (hwithin : Within sizes (schedule ++ [delivery])) {i : Nat} (hi : i < sizes.length)
    (hclobbered : Clobbered sizes (schedule ++ [delivery]) i) :
    s.memory.write (cursor sizes schedule delivery.1) (delivery.2 ++ [0]) (sliceStart sizes i) =
      0 := by
  have hnode : delivery.1 < sizes.length := hwithin.1 delivery (by simp)
  have hterminated : s.memory.write (cursor sizes schedule delivery.1) (delivery.2 ++ [0])
      (cursor sizes schedule delivery.1 + delivery.2.length) = 0 := by
    rw [Memory.write_add (by simp)]
    simp
  by_cases hend : cursor sizes schedule delivery.1 + delivery.2.length = sliceStart sizes i
  · rw [← hend]
    exact hterminated
  · have hearlier : Clobbered sizes schedule i := by
      refine (clobbered_snoc.mp hclobbered).resolve_right fun hnew => hend ?_
      have hnew := hnew.2.1
      rwa [received_snoc_self, List.length_append, ← Nat.add_assoc] at hnew
    have hfirst : 0 < (received i schedule).length := by
      obtain ⟨before, earlier, after, rfl, -, -, hne⟩ := hearlier
      exact Nat.lt_of_lt_of_le (List.length_pos_iff.mpr hne) (length_received_le i before _)
    by_cases hown : i = delivery.1
    · subst hown
      rw [Memory.write_of_lt (by rw [cursor]; omega)]
      exact h.lost _ hi hearlier
    · have hlen := hwithin.2 i hi
      rw [received_snoc_of_ne hown] at hlen
      have hsame : s.memory.write (cursor sizes schedule delivery.1) (delivery.2 ++ [0])
          (sliceStart sizes i + 0) = s.memory (sliceStart sizes i + 0) :=
        write_terminated_other hi hnode hown (sliceStart_le_cursor _ _ _)
          (hwithin.cursor_le hnode) (Nat.lt_of_lt_of_le hfirst hlen) fun _ _ => hend
      rw [Nat.add_zero] at hsame
      exact hsame.trans (h.lost i hi hearlier)

/-- The step of the invariant. -/
theorem Delivered.deliver (h : Delivered sizes schedule s)
    (hwithin : Within sizes (schedule ++ [delivery])) :
    Delivered sizes (schedule ++ [delivery]) (deliver s delivery) := by
  have hnode : delivery.1 < sizes.length := hwithin.1 delivery (by simp)
  rw [(h.deliver_eq hnode).2]
  refine ⟨by simpa using h.length_buffers, fun i hi => ?_, fun i hi => ?_,
    fun i hi k hk hsafe => h.kept_step hwithin hi hk hsafe,
    fun i hi hclobbered => h.lost_step hwithin hi hclobbered⟩
  · by_cases hown : delivery.1 = i
    · subst hown
      simp
    · simpa [List.getElem_set_ne hown] using h.buffer_eq i (by simpa using hi)
  · by_cases hown : delivery.1 = i
    · subst hown
      simp [received_snoc_self, cursor, Nat.add_assoc]
    · simpa [List.getElem_set_ne hown, received_snoc_of_ne (Ne.symm hown)] using
        h.cursor_eq i (by simpa using hi)

end Step

/-- The invariant along a whole schedule. -/
theorem delivered_deliverAll {nodeSize : List Nat} {typeSize : Nat}
    {schedule : List (Nat × List UInt8)}
    (hwithin : Within (sliceSizes nodeSize typeSize) schedule) :
    Delivered (sliceSizes nodeSize typeSize) schedule
      (deliverAll (setup nodeSize typeSize) schedule) := by
  induction schedule using List.reverseRecOn with
  | nil => exact delivered_setup nodeSize typeSize
  | append_singleton schedule delivery ih =>
      rw [deliverAll, List.foldl_append]
      exact (ih hwithin.of_append).deliver hwithin

/-! ## Complete transfers -/

section Complete

variable {nodeSize : List Nat} {typeSize : Nat} {bodies : List (List UInt8)}
  {schedule : List (Nat × List UInt8)}

theorem Transferred.length_sizes (h : Transferred nodeSize typeSize bodies schedule) :
    (sliceSizes nodeSize typeSize).length = bodies.length := by
  rw [← h.sizes, List.length_map]

theorem Transferred.within (h : Transferred nodeSize typeSize bodies schedule) :
    Within (sliceSizes nodeSize typeSize) schedule := by
  rw [← h.sizes]
  refine ⟨by simpa using h.nodes, fun i hi => ?_⟩
  exact Nat.le_of_eq (by rw [h.received i (by simpa using hi), List.getElem_map])

/-- The last delivery of a node puts its NUL behind the slice. -/
theorem confined_iff (h : Transferred nodeSize typeSize bodies schedule) :
    Confined nodeSize typeSize schedule ↔ schedule = [] := by
  constructor
  · intro hconfined
    rcases List.eq_nil_or_concat schedule with rfl | ⟨before, last, rfl⟩
    · rfl
    · rw [List.concat_eq_append] at h hconfined
      have hnode : last.1 < bodies.length := h.nodes last (by simp)
      have hnode' : last.1 < (sliceSizes nodeSize typeSize).length := h.length_sizes ▸ hnode
      have hinv := delivered_deliverAll h.within.of_append
      have hstores := (hinv.deliver_eq hnode').1
      have hfull : (received last.1 (before ++ [last])).length =
          (sliceSizes nodeSize typeSize)[last.1] := by
        simp only [h.received last.1 hnode, ← h.sizes, List.getElem_map]
      have hnul := hconfined before last [] rfl
        (cursor (sliceSizes nodeSize typeSize) before last.1 + last.2.length, [0])
        (by rw [hstores]; simp) 0 (by simp)
      rw [received_snoc_self, List.length_append] at hfull
      rw [sliceStart_succ hnode', cursor] at hnul
      omega
  · rintro rfl before delivery after hsplit
    cases before <;> cases hsplit

/-- The bodies come out in node order unless a first byte that is not zero was clobbered. -/
theorem assembled_iff (h : Transferred nodeSize typeSize bodies schedule) :
    Assembled nodeSize typeSize bodies schedule ↔
      ∀ i, (hi : i < bodies.length) → Clobbered (sliceSizes nodeSize typeSize) schedule i →
        bodies[i].head? = some 0 := by
  have hinv := delivered_deliverAll h.within
  have htotal : (sliceSizes nodeSize typeSize).sum = bodies.flatten.length := by
    rw [← h.sizes, List.length_flatten]
  have hbyte (i : Nat) (hi : i < bodies.length) (k : Nat) (hk : k < bodies[i].length)
      (hsafe : k = 0 → ¬ Clobbered (sliceSizes nodeSize typeSize) schedule i) :
      (deliverAll (setup nodeSize typeSize) schedule).memory
        (sliceStart (sliceSizes nodeSize typeSize) i + k) = bodies[i][k] := by
    have hkept := hinv.kept i (h.length_sizes ▸ hi) k (by rwa [h.received i hi]) hsafe
    simpa only [h.received i hi] using hkept
  rw [Assembled, htotal, read_flatten_iff, h.sizes]
  constructor
  · intro hread i hi hclobbered
    have hlost := hinv.lost i (h.length_sizes ▸ hi) hclobbered
    have hne : bodies[i] ≠ [] := by
      obtain ⟨before, delivery, after, rfl, -, -, hfirst⟩ := hclobbered
      rw [← h.received i hi, received_append]
      exact fun hnil => hfirst (List.append_eq_nil_iff.mp hnil).1
    have hfirst := Memory.read_eq_iff.mp (hread i hi) 0 (List.length_pos_iff.mpr hne)
    rw [Nat.zero_add, Nat.add_zero, hlost] at hfirst
    rw [List.head?_eq_getElem?, List.getElem?_eq_getElem (List.length_pos_iff.mpr hne), hfirst]
  · intro hzero i hi
    rw [Nat.zero_add]
    refine Memory.read_eq_iff.mpr fun k hk => ?_
    by_cases hclobbered : k = 0 ∧ Clobbered (sliceSizes nodeSize typeSize) schedule i
    · obtain ⟨rfl, hclobbered⟩ := hclobbered
      have hhead := hzero i hi hclobbered
      rw [List.head?_eq_getElem?, List.getElem?_eq_getElem hk] at hhead
      rw [Option.some.inj hhead]
      exact hinv.lost i (h.length_sizes ▸ hi) hclobbered
    · exact hbyte i hi k hk fun hk0 hc => hclobbered ⟨hk0, hc⟩

/-- Assembly is both confined and independent of the order only when nothing arrives at all; the
contents alone are right exactly when no first byte other than zero is clobbered. -/
theorem assembled_and_confined_iff (h : Transferred nodeSize typeSize bodies schedule) :
    (Assembled nodeSize typeSize bodies schedule ∧ Confined nodeSize typeSize schedule ↔
        schedule = []) ∧
      (Assembled nodeSize typeSize bodies schedule ↔
        ∀ i, (hi : i < bodies.length) → Clobbered (sliceSizes nodeSize typeSize) schedule i →
          bodies[i].head? = some 0) := by
  refine ⟨⟨fun hboth => (confined_iff h).mp hboth.2, ?_⟩, assembled_iff h⟩
  rintro rfl
  refine ⟨(assembled_iff h).mpr fun i hi hclobbered => ?_, (confined_iff h).mpr rfl⟩
  obtain ⟨before, delivery, after, hsplit, -⟩ := hclobbered
  cases before <;> cases hsplit

end Complete

/-- Two nodes with one byte each; the second answers first. -/
theorem transferred_late_first_node :
    Transferred [1, 1] 1 [[1], [2]] [(1, [2]), (0, [1])] :=
  ⟨by decide, by decide, by decide⟩

theorem not_assembled_and_confined_late_first_node :
    ¬ (Assembled [1, 1] 1 [[1], [2]] [(1, [2]), (0, [1])] ∧
      Confined [1, 1] 1 [(1, [2]), (0, [1])]) := fun hboth =>
  absurd ((assembled_and_confined_iff transferred_late_first_node).1.mp hboth) (by decide)

/-- The NUL of the first node replaces the byte of the second. -/
theorem not_assembled_late_first_node :
    Transferred [1, 1] 1 [[1], [2]] [(1, [2]), (0, [1])] ∧
      ¬ Assembled [1, 1] 1 [[1], [2]] [(1, [2]), (0, [1])] ∧
      ¬ Confined [1, 1] 1 [(1, [2]), (0, [1])] := by
  refine ⟨transferred_late_first_node, by unfold Assembled; decide, fun hconfined => ?_⟩
  have hnul := hconfined [(1, [2])] (0, [1]) [] rfl (1, [0]) (by decide) 0 (by decide)
  exact absurd hnul (by decide)

end XHDF5.Client
