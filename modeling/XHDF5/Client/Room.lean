/-
# Room for the responses

A transfer of a read gets the part of the dataset's buffer that the node size and the size of the
memory type give it, a transfer of a write a buffer of a default size. The callback that stores what
arrives compares nothing with these sizes: its return value is always the number of bytes it was given.

The node sizes are those of the last selection that was cut. A selection of points, and every
selection of a type without a fixed length, is JSON text, which the cut reads as extents of zero.
-/

import Mathlib.Data.List.TakeWhile
import XHDF5.Client.Transfer

namespace XHDF5.Client.Room

open XHDF5.Math

/-! ## Calls -/

/-- A read of datasets, or a write to some number of them. -/
inductive DataCall
  | read (env : ReadEnv) (datasets : List ReadDataset)
  | write (count : Nat)

/-- `CURL_RESPONSE_BUFFER_DEFAULT_SIZE`. -/
def curlResponseBufferDefaultSize : Nat := 1024

/-- The response buffers of the transfers that a call sets up. A write allocates one for each. -/
def DataCall.respBuffers : DataCall → Outcome (List ResponseBuffer)
  | .read env datasets => (rvDatasetReadSetup env datasets).bind fun s =>
      .ok (s.transfers.map Transfer.respBuffer)
  | .write count => .ok (List.replicate count ⟨0, 0, curlResponseBufferDefaultSize⟩)

/-- Every store of every delivery keeps inside the buffer of its transfer. -/
def StaysInside (buffers : List ResponseBuffer) (schedule : List (Nat × List UInt8)) : Prop :=
  ∀ before delivery after, schedule = before ++ delivery :: after →
    ∀ b, buffers[delivery.1]? = some b →
      ∀ store ∈ storesOf (deliverAll ⟨fun _ => 0, buffers⟩ before) delivery,
        b.buffer ≤ store.1 ∧ store.1 + store.2.length ≤ b.buffer + b.bufferSize

/-- A body that does not fit, with its NUL, is refused at one of its deliveries. -/
def RefusesTheRest (buffers : List ResponseBuffer) (schedule : List (Nat × List UInt8)) : Prop :=
  ∀ k b, buffers[k]? = some b → (∃ delivery ∈ schedule, delivery.1 = k) →
    b.bufferSize < (received k schedule).length + 1 →
      ∃ before delivery after, schedule = before ++ delivery :: after ∧ delivery.1 = k ∧
        ∃ b', (deliverAll ⟨fun _ => 0, buffers⟩ before).buffers[k]? = some b' ∧
          (h5RestCurlWriteDataCallbackNoGlobal delivery.2 b').retValue ≠ delivery.2.length

/-- What arrives keeps to its place or is refused. -/
def ResponsesFit (buffers : List ResponseBuffer) (schedule : List (Nat × List UInt8)) : Prop :=
  StaysInside buffers schedule ∧ RefusesTheRest buffers schedule

/-! ## The room -/

/-- The sizes of the parts of a box for `n` nodes: the first dimension whose stop is at least `n` is
cut. -/
def partSizes (n : Nat) (box : Box) : List Nat :=
  match box.dropWhile fun d => decide (d.2 < n) with
  | [] => List.replicate n 0
  | (start, stop) :: inner =>
      (List.range n).map
        (nodePoints start (stop - start) n
          (points (box.takeWhile (fun d => decide (d.2 < n)) ++ inner)))

/-- The node sizes that a selection leads to; `H5S_ALL` leaves them as they are. -/
def nodeSizes (n : Nat) (d : ReadDataset) : Option (List Nat) :=
  match d.fileSpace with
  | none => none
  | some (.hyperslab slabs) =>
      some (if d.isFixedLength then partSizes n (bounds slabs) else List.replicate n 0)
  | some _ => some (List.replicate n 0)

/-- The node sizes after some datasets. -/
def sizesAfter (n : Nat) (datasets : List ReadDataset) : List Nat :=
  (datasets.filterMap (nodeSizes n)).getLast?.getD (List.replicate n 0)

/-- The bytes that a transfer has room for. -/
def DataCall.room (i : Nat) : DataCall → Nat
  | .read env datasets =>
      (sizesAfter env.serverNodeNum (datasets.take (i / env.serverNodeNum + 1))).getD
        (i % env.serverNodeNum) 0 * (datasets[i / env.serverNodeNum]?.map ReadDataset.typeSize).getD 0
  | .write _ => curlResponseBufferDefaultSize

/-- The number of transfers of a call. -/
def DataCall.transfers : DataCall → Nat
  | .read env datasets => datasets.length * env.serverNodeNum
  | .write count => count

/-! ## The callback -/

section Callback

variable {buffers : List ResponseBuffer} (hready : ∀ b ∈ buffers, b.currBufPtr = b.buffer)

include hready

/-- The cursor of a transfer counts its bytes. -/
theorem getElem?_deliverAll (schedule : List (Nat × List UInt8)) (k : Nat) :
    (deliverAll ⟨fun _ => 0, buffers⟩ schedule).buffers[k]? =
      buffers[k]?.map fun b => { b with currBufPtr := b.buffer + (received k schedule).length } := by
  induction schedule using List.reverseRecOn generalizing k with
  | nil =>
      cases hb : buffers[k]? with
      | none => simpa [deliverAll] using hb
      | some b =>
          have hcursor := hready b (List.mem_of_getElem? hb)
          rw [Option.map_some, received_nil, List.length_nil, Nat.add_zero]
          obtain ⟨_, _, _⟩ := b
          cases hcursor
          exact hb
  | append_singleton schedule delivery ih =>
      have hlast : deliverAll ⟨fun _ => 0, buffers⟩ (schedule ++ [delivery]) =
          deliver (deliverAll ⟨fun _ => 0, buffers⟩ schedule) delivery := by
        rw [deliverAll, List.foldl_append]
        rfl
      rw [hlast]
      cases hb : buffers[delivery.1]? with
      | none =>
          have hnone := ih delivery.1
          rw [hb, Option.map_none] at hnone
          rw [deliver, hnone, ih k, received_snoc]
          by_cases hk : delivery.1 = k
          · rw [← hk, hb]
            rfl
          · rw [if_neg hk, List.append_nil]
      | some b =>
          have hsome := ih delivery.1
          rw [hb, Option.map_some] at hsome
          rw [deliver_eq hsome (Nat.le_add_right _ _)]
          change (List.set _ _ _)[k]? = _
          rw [List.getElem?_set, ih k, received_snoc]
          by_cases hk : delivery.1 = k
          · subst hk
            have hlt := (List.getElem?_eq_some_iff.mp hsome).1
            rw [if_pos rfl, if_pos hlt, if_pos rfl, hb, Option.map_some, List.length_append,
              ← Nat.add_assoc]
          · rw [if_neg hk, if_neg hk, List.append_nil]

/-- The stores of a delivery: its bytes behind those that came before, and a NUL. -/
theorem storesOf_deliverAll {k : Nat} {b : ResponseBuffer} (hb : buffers[k]? = some b)
    (before : List (Nat × List UInt8)) (data : List UInt8) :
    storesOf (deliverAll ⟨fun _ => 0, buffers⟩ before) (k, data) =
      [(b.buffer + (received k before).length, data),
        (b.buffer + (received k before).length + data.length, [0])] := by
  refine storesOf_eq (b := { b with currBufPtr := b.buffer + (received k before).length }) ?_
    (Nat.le_add_right _ _)
  rw [getElem?_deliverAll hready, hb]
  rfl

/-- The callback refuses nothing. -/
theorem not_refused (k : Nat) (before : List (Nat × List UInt8)) (data : List UInt8)
    {b : ResponseBuffer} (hb : (deliverAll ⟨fun _ => 0, buffers⟩ before).buffers[k]? = some b) :
    (h5RestCurlWriteDataCallbackNoGlobal data b).retValue = data.length := by
  rw [getElem?_deliverAll hready] at hb
  obtain ⟨b', -, rfl⟩ := Option.map_eq_some_iff.mp hb
  rw [h5RestCurlWriteDataCallbackNoGlobal, if_neg (by simp only; omega)]

/-- What arrives has its place exactly when each body, with its NUL, has room. -/
theorem responsesFit_iff (schedule : List (Nat × List UInt8)) :
    ResponsesFit buffers schedule ↔ ∀ k b, buffers[k]? = some b →
      (∀ delivery ∈ schedule, delivery.1 ≠ k) ∨ (received k schedule).length < b.bufferSize := by
  constructor
  · rintro ⟨-, hrefuses⟩ k b hb
    by_contra hcon
    push Not at hcon
    obtain ⟨hsome, hle⟩ := hcon
    obtain ⟨before, delivery, after, -, -, b', hb', hne⟩ :=
      hrefuses k b hb hsome (Nat.lt_succ_of_le hle)
    exact hne (not_refused hready k before delivery.2 hb')
  · refine fun hroom => ⟨fun before delivery after hsplit b hb store hstore => ?_,
      fun k b hb ⟨delivery, hmem, hk⟩ hlong => ?_⟩
    · rcases hroom delivery.1 b hb with hnone | hlt
      · exact absurd rfl (hnone delivery (by simp [hsplit]))
      · rw [storesOf_deliverAll hready hb before delivery.2] at hstore
        have hreceived : (received delivery.1 before).length + delivery.2.length ≤
            (received delivery.1 schedule).length := by
          rw [hsplit, ← List.singleton_append, ← List.append_assoc]
          refine le_trans ?_ (length_received_le _ _ _)
          rw [received_snoc, if_pos rfl, List.length_append]
        rcases List.mem_pair.mp hstore with rfl | rfl
        · exact ⟨Nat.le_add_right _ _, by simp only; omega⟩
        · exact ⟨by simp only; omega, by simp only [List.length_singleton]; omega⟩
    · rcases hroom k b hb with hnone | hlt
      · exact absurd hk (hnone delivery hmem)
      · omega

end Callback

/-! ## Sizes of zero -/

theorem sumLoop_zero {i j : Nat} {count offset : List Int} {sum : Int}
    (h : sumLoop i j count offset 0 = some sum) : sum = 0 := by
  induction count generalizing j offset with
  | nil => exact (Option.some.inj h).symm
  | cons stop count ih =>
      cases offset with
      | nil => exact (Option.some.inj h).symm
      | cons start offset =>
          rw [sumLoop] at h
          split at h
          · obtain ⟨extent, -, h⟩ := Option.bind_eq_some_iff.mp h
            rw [Int.zero_mul] at h
            exact ih h
          · exact ih h

theorem sizes_splitLoop_zero {j todo i : Nat} {elementsPerPart remainingElements currentStart : Int}
    {count offset : List Int} {nodes : List (Nat × Text)}
    (h : splitLoop j 0 elementsPerPart remainingElements todo i currentStart count offset =
      some nodes) : nodes.map Prod.fst = List.replicate todo 0 := by
  induction todo generalizing i currentStart count offset nodes with
  | zero =>
      cases h
      rfl
  | succ todo ih =>
      rw [splitLoop] at h
      obtain ⟨currentEnd, -, h⟩ := Option.bind_eq_some_iff.mp h
      obtain ⟨nodeSize, hsize, h⟩ := Option.bind_eq_some_iff.mp h
      obtain ⟨selectStr, -, h⟩ := Option.bind_eq_some_iff.mp h
      obtain ⟨rest, hrest, h⟩ := Option.bind_eq_some_iff.mp h
      cases h
      rw [Int.mul_zero] at hsize
      cases hsize
      rw [List.map_cons, ih hrest, List.replicate_succ]
      rfl

/-- A text that begins with no digit is read as zero. -/
theorem atoi_of_bracket (text : Text) : atoi (' ' :: '[' :: text) = some 0 := rfl

/-- A selection in JSON begins with a member that the cut takes for an extent of zero. -/
theorem processInput_json {name rest : Text} {pairs : List Int × List Int}
    (hname : ∀ c ∈ name, (c == ',') = false ∧ (c == ':') = false) (hzero : atoi (name ++ ['"']) = some 0)
    (h : processInput (name ++ '"' :: ':' :: ' ' :: '[' :: rest) = some pairs) :
    ∃ offset count, pairs = (0 :: offset, 0 :: count) := by
  obtain ⟨front, tail, hrest, hfront, htail⟩ : ∃ front tail, rest = front ++ tail ∧
      (∀ c ∈ front, (c == ',') = false) ∧ (tail = [] ∨ ∃ d others, tail = d :: others ∧ d == ',') := by
    rcases clean_or_first_delim (· == ',') rest with hclean | ⟨front, c, tail, hsplit, hfront, hc⟩
    · exact ⟨rest, [], (List.append_nil rest).symm, hclean, .inl rfl⟩
    · exact ⟨front, c :: tail, hsplit, hfront, .inr ⟨c, tail, rfl, hc⟩⟩
  have htokens : strtok (· == ',') (name ++ '"' :: ':' :: ' ' :: '[' :: rest) =
      (name ++ '"' :: ':' :: ' ' :: '[' :: front) :: strtok (· == ',') tail := by
    rw [hrest]
    have hword : ∀ c ∈ name ++ '"' :: ':' :: ' ' :: '[' :: front, (c == ',') = false := by
      intro c hc
      simp only [List.mem_append, List.mem_cons] at hc
      rcases hc with hc | rfl | rfl | rfl | rfl | hc
      · exact (hname c hc).1
      · rfl
      · rfl
      · rfl
      · rfl
      · exact hfront c hc
    have hsplit := strtok_word_append (by simp) hword htail
    simpa using hsplit
  have hfields : ∃ value fields, strtok (· == ':') (name ++ '"' :: ':' :: ' ' :: '[' :: front) =
      (name ++ ['"']) :: (' ' :: '[' :: value) :: fields := by
    have hfirst : ∀ c ∈ name ++ ['"'], (c == ':') = false := by
      intro c hc
      rcases List.mem_append.mp hc with hc | hc
      · exact (hname c hc).2
      · rw [List.mem_singleton.mp hc]
        rfl
    have hsplit := @strtok_append_cons (· == ':') (name ++ ['"']) (' ' :: '[' :: front)
      ':' rfl
    rw [strtok_of_clean hfirst (by simp)] at hsplit
    rcases clean_or_first_delim (· == ':') front with hclean | ⟨value, c, others, hvalue, hclean, hc⟩
    · refine ⟨front, [], ?_⟩
      rw [@strtok_of_clean _ (' ' :: '[' :: front) (by simpa using hclean) (by simp)] at hsplit
      simpa using hsplit
    · refine ⟨value, strtok (· == ':') (c :: others), ?_⟩
      have hword := @strtok_word_append (· == ':') (' ' :: '[' :: value)
        (c :: others) (by simp) (by simpa using hclean) (.inr ⟨c, others, rfl, hc⟩)
      rw [hvalue] at hsplit ⊢
      rw [List.cons_append, List.cons_append] at hword
      rw [hword] at hsplit
      simpa using hsplit
  obtain ⟨value, fields, hfields⟩ := hfields
  have htoken : processToken (name ++ '"' :: ':' :: ' ' :: '[' :: front) = some (0, 0) := by
    rw [processToken, hfields]
    simp only [hzero, atoi_of_bracket]
    rfl
  rw [processInput, htokens, List.mapM_cons, htoken] at h
  obtain ⟨others, hothers, h⟩ := Option.bind_eq_some_iff.mp h
  obtain ⟨first, hfirst, hothers⟩ := Option.bind_eq_some_iff.mp hothers
  cases hfirst
  obtain ⟨rest', -, hpairs⟩ := Option.bind_eq_some_iff.mp hothers
  cases hpairs
  cases h
  exact ⟨_, _, rfl⟩

/-- The nodes of a selection in JSON have no points. -/
theorem sizes_cutSelection_json {n : Nat} (hn : 0 < n) {name rest : Text} {nodes : List (Nat × Text)}
    (hname : ∀ c ∈ name, (c == ',') = false ∧ (c == ':') = false) (hzero : atoi (name ++ ['"']) = some 0)
    (hrest : rest ≠ [])
    (h : cutSelection n false ('"' :: name ++ '"' :: ':' :: ' ' :: '[' :: rest) =
      some (true, some nodes)) : nodes.map Prod.fst = List.replicate n 0 := by
  have hstrip : (('"' :: name ++ '"' :: ':' :: ' ' :: '[' :: rest).drop 1).dropLast =
      name ++ '"' :: ':' :: ' ' :: '[' :: rest.dropLast := by
    simp [List.dropLast_append_of_ne_nil, List.dropLast_cons_of_ne_nil, hrest]
  have hlong : ¬ ('"' :: name ++ '"' :: ':' :: ' ' :: '[' :: rest).length < 2 := by
    simp only [List.length_append, List.length_cons]
    omega
  rw [cutSelection, hstrip, if_neg hlong] at h
  obtain ⟨pairs, hpairs, h⟩ := Option.bind_eq_some_iff.mp h
  obtain ⟨offset, count, rfl⟩ := processInput_json hname hzero hpairs
  obtain ⟨sum, hsum, h⟩ := Option.bind_eq_some_iff.mp h
  have hfirst : (0 :: count).findIdx (fun stop => decide ((n : Int) ≤ stop)) ≠ 0 := by
    rw [List.findIdx_cons, decide_eq_false (by omega), cond_false]
    exact Nat.succ_ne_zero _
  rw [sumLoop, if_pos hfirst] at hsum
  obtain rfl : sum = 0 := sumLoop_zero hsum
  split at h
  · obtain ⟨nodes', hsplit, h⟩ := Option.bind_eq_some_iff.mp h
    cases h
    rw [splitRangeAndGetInfo] at hsplit
    obtain ⟨stop, -, hsplit⟩ := Option.bind_eq_some_iff.mp hsplit
    obtain ⟨start, -, hsplit⟩ := Option.bind_eq_some_iff.mp hsplit
    obtain ⟨rangeSize, -, hsplit⟩ := Option.bind_eq_some_iff.mp hsplit
    exact sizes_splitLoop_zero hsplit
  · cases h

/-! ## The cut of a dataset -/

/-- What the cut stores does not depend on the datasets before, and it stores nothing only before the
first of them that is cut. -/
theorem cutSelection_cases {n : Nat} {flagNode flagNode' : Bool} {body : Text}
    {stored : Option (List (Nat × Text))}
    (h : cutSelection n flagNode body = some (flagNode', stored)) :
    (flagNode = false ∧ flagNode' = false ∧ stored = none) ∨
      ∃ nodes, flagNode' = true ∧ stored = some nodes ∧
        cutSelection n false body = some (true, some nodes) := by
  unfold cutSelection at h ⊢
  split at h
  · cases h
  · next hlong =>
      rw [if_neg hlong]
      obtain ⟨⟨offset, count⟩, hinput, h⟩ := Option.bind_eq_some_iff.mp h
      obtain ⟨sum, hsum, h⟩ := Option.bind_eq_some_iff.mp h
      split at h
      · obtain ⟨nodes, hnodes, h⟩ := Option.bind_eq_some_iff.mp h
        cases h
        have hlt : count.findIdx (fun stop => decide ((n : Int) ≤ stop)) < count.length := by
          obtain ⟨stop, hstop, -⟩ := Option.bind_eq_some_iff.mp hnodes
          exact (List.getElem?_eq_some_iff.mp hstop).1
        refine .inr ⟨nodes, rfl, rfl, ?_⟩
        rw [hinput]
        simp only [Option.bind_eq_bind, Option.bind_some, hsum, hlt, decide_true, Bool.false_or,
          if_true, hnodes]
        rfl
      · next hflag =>
          cases h
          cases flagNode with
          | true => exact absurd rfl hflag
          | false => exact .inl ⟨rfl, rfl, rfl⟩

theorem partSizes_cut {n start stop : Nat} {outer inner : Box} (houter : ∀ d ∈ outer, d.2 < n)
    (hstop : n ≤ stop) :
    partSizes n (outer ++ (start, stop) :: inner) =
      (cutNodes outer start stop n inner).map Prod.fst := by
  have hneg : ¬ decide ((start, stop).2 < n) = true := by simpa using hstop
  have hpos : ∀ d ∈ outer, decide (d.2 < n) = true := fun d hd => decide_eq_true (houter d hd)
  have hdrop : ((outer ++ (start, stop) :: inner).dropWhile fun d => decide (d.2 < n)) =
      (start, stop) :: inner := by
    rw [List.dropWhile_append_of_pos hpos]
    exact List.dropWhile_cons_of_neg hneg
  have htake : ((outer ++ (start, stop) :: inner).takeWhile fun d => decide (d.2 < n)) = outer := by
    rw [List.takeWhile_append_of_pos hpos]
    exact (congrArg (outer ++ ·) (List.takeWhile_cons_of_neg hneg)).trans (List.append_nil outer)
  rw [partSizes, hdrop, htake, cutNodes, List.map_map]
  rfl

theorem partSizes_small {n : Nat} {box : Box} (hsmall : ∀ d ∈ box, d.2 < n) :
    partSizes n box = List.replicate n 0 := by
  have hnil : (box.dropWhile fun d => decide (d.2 < n)) = [] :=
    List.dropWhile_eq_nil_iff.mpr fun d hd => decide_eq_true (hsmall d hd)
  rw [partSizes, hnil]

/-- The interval around a hyperslab is cut into the parts above. -/
theorem partSizes_of_cut {n : Nat} (hn : 0 < n) {flagNode flagNode' : Bool} {slabs : List Slab}
    {dims : List Nat} (hinside : List.Forall₂ Slab.Inside slabs dims)
    {stored : Option (List (Nat × Text))}
    (h : cutSelection n flagNode (slabText slabs) = some (flagNode', stored)) :
    partSizes n (bounds slabs) = (stored.map fun nodes => nodes.map Prod.fst).getD
      (List.replicate n 0) := by
  rw [cutSelection_slabText hinside] at h
  rcases cutSelection_cases h with ⟨rfl, rfl, rfl⟩ | ⟨nodes, rfl, rfl, hcut⟩
  · rcases exists_cut_or_small n (bounds slabs) with
      ⟨outer, start, stop, inner, hsplit, houter, hstop⟩ | hsmall
    · rw [hsplit, cutSelection_eq_cutNodes hn (hsplit ▸ bounds_lt hinside) houter hstop] at h
      split at h <;> cases h
    · exact partSizes_small hsmall
  · obtain ⟨outer, start, stop, inner, hat, rfl⟩ :=
      (cutSelection_eq_some_iff hn (bounds_lt hinside)).mp hcut
    rw [hat.split]
    exact partSizes_cut hat.before hat.reaches

/-- What the code stores for a dataset with a selection are its node sizes. -/
theorem nodeSizes_eq {n : Nat} (hn : 0 < n) {d : ReadDataset} {selection : SpaceSelection}
    {param : Option Text} {body : Text} {flagNode flagNode' : Bool}
    {stored : Option (List (Nat × Text))} (hspace : d.fileSpace = some selection)
    (hparam : requestSelection d.isFixedLength d.extent.length d.fileSpace = some (param, body))
    (hcut : cutSelection n flagNode body = some (flagNode', stored)) :
    nodeSizes n d = some ((stored.map fun nodes => nodes.map Prod.fst).getD (List.replicate n 0)) := by
  have hjson {name rest : Text} (hname : ∀ c ∈ name, (c == ',') = false ∧ (c == ':') = false)
      (hzero : atoi (name ++ ['"']) = some 0) (hrest : rest ≠ [])
      (hbody : body = '"' :: name ++ '"' :: ':' :: ' ' :: '[' :: rest) :
      (stored.map fun nodes => nodes.map Prod.fst).getD (List.replicate n 0) =
        List.replicate n 0 := by
    rcases cutSelection_cases hcut with ⟨-, -, rfl⟩ | ⟨nodes, -, rfl, hnodes⟩
    · rfl
    · rw [hbody] at hnodes
      exact sizes_cutSelection_json hn hname hzero hrest hnodes
  rw [hspace, requestSelection] at hparam
  obtain ⟨text, htext, hpair⟩ := Option.map_eq_some_iff.mp hparam
  obtain ⟨-, rfl⟩ := Prod.mk.inj hpair
  rw [nodeSizes, hspace]
  cases selection with
  | all | none =>
      unfold rvConvertDataspaceSelectionToString at htext
      split at htext
      · cases htext
      · split at htext
        · cases htext
          cases hcut
        · cases htext
          cases hcut
  | points list =>
      have hpoints : (SpaceSelection.points list).isPoints = true := rfl
      rw [hpoints, Bool.not_true, Bool.and_false] at htext
      unfold rvConvertDataspaceSelectionToString at htext
      split at htext
      · cases htext
      · cases htext
        exact congrArg some (@hjson ['p', 'o', 'i', 'n', 't', 's'] _ (by decide) rfl
          (List.append_ne_nil_of_right_ne_nil _ (List.cons_ne_nil _ _)) rfl).symm
  | hyperslab slabs =>
      obtain ⟨hne, hinside⟩ := d.inside slabs hspace
      have hpoints : (SpaceSelection.hyperslab slabs).isPoints = false := rfl
      rw [hpoints, Bool.not_false, Bool.and_true] at htext
      cases hfixed : d.isFixedLength with
      | true =>
          rw [hfixed, ← hinside.length_eq, rvConvert_hyperslab] at htext
          · cases htext
            exact congrArg some (partSizes_of_cut hn hinside hcut)
          · rintro rfl
            exact hne (List.forall₂_nil_left_iff.mp hinside)
      | false =>
          rw [hfixed] at htext
          unfold rvConvertDataspaceSelectionToString at htext
          split at htext
          · cases htext
          · simp only [Bool.false_eq_true, if_false] at htext
            split at htext
            · cases htext
            · cases htext
              refine congrArg some (@hjson ['s', 't', 'a', 'r', 't'] _ (by decide) rfl ?_
                rfl).symm
              simp [slabBodies]

/-! ## The loop -/

theorem sizesAfter_snoc (n : Nat) (datasets : List ReadDataset) (d : ReadDataset) :
    sizesAfter n (datasets ++ [d]) = (nodeSizes n d).getD (sizesAfter n datasets) := by
  rw [sizesAfter, List.filterMap_append]
  cases hsizes : nodeSizes n d with
  | none =>
      rw [List.filterMap_cons_none hsizes, List.filterMap_nil, List.append_nil]
      rfl
  | some sizes =>
      rw [List.filterMap_cons_some hsizes, List.filterMap_nil, List.getLast?_concat]
      rfl

section Loop

variable {env : ReadEnv} {datasets : List ReadDataset} {i : Nat} {s s' : SetupState}

/-- The loop before its `i`-th pass: the node sizes are those after the datasets it has begun, and
every transfer has its room. -/
structure SetUp (env : ReadEnv) (datasets : List ReadDataset) (i : Nat) (s : SetupState) : Prop where
  sizes : s.nodeSize = sizesAfter env.serverNodeNum
    (datasets.take ((i + env.serverNodeNum - 1) / env.serverNodeNum))
  uncut : s.flagNode = false → s.nodeSize = List.replicate env.serverNodeNum 0
  length : s.transfers.length = i
  rooms : ∀ j t, s.transfers[j]? = some t → t.respBuffer.currBufPtr = t.respBuffer.buffer ∧
    t.respBuffer.bufferSize = (DataCall.read env datasets).room j

theorem setUp_start (hn : 0 < env.serverNodeNum) : SetUp env datasets 0 (setupStart env) where
  sizes := by
    rw [Nat.zero_add, Nat.div_eq_of_lt (by omega)]
    rfl
  uncut _ := rfl
  length := rfl
  rooms _ _ h := by cases h

/-- The datasets that have been begun when the pass `i` is over. -/
theorem begun_succ {n : Nat} (hn : 0 < n) (i : Nat) : (i + 1 + n - 1) / n = i / n + 1 := by
  rw [Nat.add_right_comm, Nat.add_sub_cancel, Nat.add_div_right i hn]

theorem begun_of_mod_eq {n : Nat} (hn : 0 < n) (hmod : i % n = 0) : (i + n - 1) / n = i / n := by
  obtain ⟨q, rfl⟩ := Nat.dvd_of_mod_eq_zero hmod
  rw [Nat.add_sub_assoc hn, Nat.mul_add_div hn, Nat.div_eq_of_lt (by omega), Nat.mul_div_cancel_left q hn,
    Nat.add_zero]

theorem begun_of_mod_ne {n : Nat} (hn : 0 < n) (hmod : i % n ≠ 0) :
    (i + n - 1) / n = i / n + 1 := by
  have hdiv := Nat.div_add_mod i n
  have hlt := Nat.mod_lt i hn
  have hsplit : i + n - 1 = n * (i / n + 1) + (i % n - 1) := by
    rw [Nat.mul_add, Nat.mul_one]
    omega
  have hrest : (i % n - 1) / n = 0 := Nat.div_eq_of_lt (by omega)
  rw [hsplit, Nat.mul_add_div hn, hrest, Nat.add_zero]

/-- The cut before the pass leaves the node sizes of its own dataset. -/
theorem SetUp.cut (hn : 0 < env.serverNodeNum) (h : SetUp env datasets i s) {d : ReadDataset}
    (hd : datasets[i / env.serverNodeNum]? = some d) {param : Option Text} {body : Text}
    (hparam : requestSelection d.isFixedLength d.extent.length d.fileSpace = some (param, body))
    (hcut : cutForTransfer env i d body s = some s') :
    s'.nodeSize = sizesAfter env.serverNodeNum (datasets.take (i / env.serverNodeNum + 1)) ∧
      (s'.flagNode = false → s'.nodeSize = List.replicate env.serverNodeNum 0) ∧
      s'.transfers = s.transfers := by
  by_cases hmod : i % env.serverNodeNum = 0
  · have hbefore := h.sizes
    rw [begun_of_mod_eq hn hmod] at hbefore
    have htake : datasets.take (i / env.serverNodeNum + 1) =
        datasets.take (i / env.serverNodeNum) ++ [d] := by
      rw [List.take_add_one, hd]
      rfl
    rw [htake, sizesAfter_snoc, ← hbefore]
    rw [cutForTransfer] at hcut
    cases hspace : d.fileSpace with
    | none =>
        rw [hspace, if_neg fun hboth => by cases hboth.2] at hcut
        cases hcut
        rw [nodeSizes, hspace]
        exact ⟨rfl, h.uncut, rfl⟩
    | some selection =>
        rw [if_pos ⟨hmod, by rw [hspace]; rfl⟩] at hcut
        cases hstored : cutSelection env.serverNodeNum s.flagNode body with
        | none => simp only [hstored, reduceCtorEq] at hcut
        | some result =>
            obtain ⟨flagNode', stored⟩ := result
            rw [nodeSizes_eq hn hspace hparam hstored, Option.getD_some]
            rcases cutSelection_cases hstored with ⟨hflag, rfl, rfl⟩ | ⟨nodes, rfl, rfl, -⟩
            · simp only [hstored, Option.some.injEq] at hcut
              subst hcut
              exact ⟨h.uncut hflag, fun _ => h.uncut hflag, rfl⟩
            · simp only [hstored, Option.some.injEq] at hcut
              subst hcut
              exact ⟨rfl, (by rintro ⟨⟩), rfl⟩
  · rw [cutForTransfer, if_neg fun hboth => hmod hboth.1] at hcut
    cases hcut
    refine ⟨?_, h.uncut, rfl⟩
    rw [h.sizes, begun_of_mod_ne hn hmod]

/-- One pass sets up one transfer, with the room of its number. -/
theorem SetUp.step (hn : 0 < env.serverNodeNum) (h : SetUp env datasets i s)
    (hpass : setupTransfer env datasets i s = .ok s') : SetUp env datasets (i + 1) s' := by
  rw [setupTransfer] at hpass
  cases hd : datasets[i / env.serverNodeNum]? with
  | none => simp only [hd, reduceCtorEq] at hpass
  | some d =>
      simp only [hd] at hpass
      cases hparam : requestSelection d.isFixedLength d.extent.length d.fileSpace with
      | none => simp only [hparam, reduceCtorEq] at hpass
      | some selection =>
          obtain ⟨param, body⟩ := selection
          simp only [hparam] at hpass
          cases hcut : cutForTransfer env i d body s with
          | none => simp only [hcut, reduceCtorEq] at hpass
          | some s₁ =>
              obtain ⟨hsizes, huncut, htransfers⟩ := h.cut hn hd hparam hcut
              simp only [hcut] at hpass
              split at hpass
              · next baseURL allocation respBuffer select _ hbuffer _ =>
                  split at hpass
                  · cases hpass
                  · next requestUrl _ =>
                      cases hpass
                      have hroom : respBuffer.currBufPtr = respBuffer.buffer ∧
                          respBuffer.bufferSize = (DataCall.read env datasets).room i := by
                        rw [bufferOfTransfer] at hbuffer
                        rw [DataCall.room, hd, ← hsizes]
                        split at hbuffer
                        · cases hbuffer
                          exact ⟨rfl, rfl⟩
                        · split at hbuffer
                          · cases hbuffer
                          · cases hbuffer
                            exact ⟨rfl, rfl⟩
                      refine ⟨?_, huncut, ?_, fun j t ht => ?_⟩
                      · rw [begun_succ hn]
                        exact hsizes
                      · rw [htransfers, List.length_append, h.length, List.length_singleton]
                      · rw [htransfers] at ht
                        rcases Nat.lt_or_ge j i with hlt | hge
                        · rw [List.getElem?_append_left (h.length ▸ hlt)] at ht
                          exact h.rooms j t ht
                        · rw [List.getElem?_append_right (h.length ▸ hge), h.length] at ht
                          obtain rfl : j = i := by
                            have hzero := (List.getElem?_eq_some_iff.mp ht).1
                            rw [List.length_singleton] at hzero
                            omega
                          rw [Nat.sub_self] at ht
                          cases ht
                          exact hroom
              · cases hpass

/-- All passes. -/
theorem setUp_transfers (hn : 0 < env.serverNodeNum)
    (h : setupTransfers env datasets (List.range i) (setupStart env) = .ok s) :
    SetUp env datasets i s := by
  induction i generalizing s with
  | zero =>
      cases h
      exact setUp_start hn
  | succ i ih =>
      rw [List.range_succ, setupTransfers_append] at h
      obtain ⟨before, hbefore, hlast⟩ := Outcome.bind_eq_ok_iff.mp h
      obtain ⟨after, hpass, hend⟩ := Outcome.bind_eq_ok_iff.mp hlast
      cases hend
      exact (ih hbefore).step hn hpass

end Loop

/-! ## The result -/

/-- The transfers of a call are as many as it needs, and each has its room. -/
theorem respBuffers_spec {call : DataCall} {buffers : List ResponseBuffer}
    (h : call.respBuffers = .ok buffers) :
    buffers.length = call.transfers ∧ (∀ b ∈ buffers, b.currBufPtr = b.buffer) ∧
      ∀ k b, buffers[k]? = some b → b.bufferSize = call.room k := by
  cases call with
  | write count =>
      cases h
      refine ⟨List.length_replicate, fun b hb => ?_, fun k b hb => ?_⟩
      · rw [List.eq_of_mem_replicate hb]
      · rw [List.eq_of_mem_replicate (List.mem_of_getElem? hb)]
        rfl
  | read env datasets =>
      obtain ⟨s, hs, hbuffers⟩ := Outcome.bind_eq_ok_iff.mp h
      cases hbuffers
      rw [rvDatasetReadSetup] at hs
      rcases Nat.eq_zero_or_pos env.serverNodeNum with hzero | hn
      · rw [hzero] at hs
        cases hs
        exact ⟨by rw [DataCall.transfers, hzero]; rfl, by rintro b ⟨⟩, by rintro (_ | k) b ⟨⟩⟩
      · have hset := setUp_transfers hn hs
        refine ⟨by rw [List.length_map, hset.length]; rfl, fun b hb => ?_, fun k b hb => ?_⟩
        · obtain ⟨t, ht, rfl⟩ := List.mem_map.mp hb
          obtain ⟨j, hj⟩ := List.mem_iff_getElem?.mp ht
          exact (hset.rooms j t hj).1
        · rw [List.getElem?_map, Option.map_eq_some_iff] at hb
          obtain ⟨t, ht, rfl⟩ := hb
          exact (hset.rooms k t ht).2

/-- One server. -/
def oneEndpoint : ReadEnv := ⟨1, lit "a", lit "a", 2⟩

theorem respBuffers_vector :
    (DataCall.read oneEndpoint [vectorOfFour]).respBuffers = .ok [⟨0, 0, 4⟩] := by
  decide +kernel

end XHDF5.Client.Room
