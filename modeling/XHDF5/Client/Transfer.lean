/-
# Setting up the transfers of a read

`RV_dataset_read` makes one transfer for each dataset and each server. The loop over the
transfers keeps the cut of the last dataset it saw: `node_size`, `Select_Node` and `flag_Node`
have one entry for each server, not for each transfer, and `URLs_by_Myself` holds no more URLs
than there are servers.

An entry that was never stored, or that lies outside its array, is `none`; using it has no
defined result.
-/

import XHDF5.Math.Run
import XHDF5.Client.Response
import XHDF5.Client.SplitMerge
import XHDF5.Client.Url

namespace XHDF5.Client

open XHDF5.Math

/-- What a read takes from the process: the number of servers, the text of `XRDMULTI_ENDPOINT`,
and `base_URL` with the size of its allocation. -/
structure ReadEnv where
  serverNodeNum : Nat
  endpoints : Text
  baseURL : Text
  baseUrlSize : Nat

/-- One dataset of a read: its names, whether its memory type has a fixed length, its extent, the
file selection (`none` for `H5S_ALL`) and the size of the memory type. -/
structure ReadDataset where
  uri : Text
  datasetName : Text
  isFixedLength : Bool
  extent : List Nat
  fileSpace : Option SpaceSelection
  typeSize : Nat
  inside : ∀ slabs, fileSpace = some (.hyperslab slabs) →
    extent ≠ [] ∧ List.Forall₂ Slab.Inside slabs extent

/-- What is set up for one transfer: the server and the selection that its URL names, the URL, and
its response buffer in the allocation that was made for the dataset with this number. -/
structure Transfer where
  baseURL : Text
  select : Option Text
  requestUrl : Text
  allocation : Nat
  respBuffer : ResponseBuffer
deriving DecidableEq

/-- The variables that the loop hands from one transfer to the next. -/
structure SetupState where
  baseURL : Text
  flagNode : Bool
  nodeSize : List Nat
  selectNode : List (Option Text)
  transfers : List Transfer
deriving DecidableEq

section

variable (env : ReadEnv)

/-- `URLs_by_Myself`. -/
def urlsByMyself : List Text :=
  ((strtok (fun c => c == '{' || c == '}' || c == ',') env.endpoints).take env.serverNodeNum).map
    fun url => url.dropWhile (· == ' ')

/-- The variables before the loop. -/
def setupStart : SetupState where
  baseURL := env.baseURL
  flagNode := false
  nodeSize := List.replicate env.serverNodeNum 0
  selectNode := List.replicate env.serverNodeNum none
  transfers := []

/-- The cut, made for the first transfer of a dataset with a selection body. -/
def cutForTransfer (i : Nat) (d : ReadDataset) (body : Text) (s : SetupState) :
    Option SetupState :=
  if i % env.serverNodeNum = 0 ∧ d.fileSpace.isSome then
    match cutSelection env.serverNodeNum s.flagNode body with
    | none => none
    | some (flagNode, none) => some { s with flagNode }
    | some (flagNode, some nodes) =>
        some { s with
          flagNode
          nodeSize := nodes.map Prod.fst
          selectNode := nodes.map fun node => some node.2 }
  else some s

/-- `strcpy(base_URL, URLs_by_Myself[i])`. -/
def serverOfTransfer (i : Nat) (baseURL : Text) : Option Text :=
  if env.serverNodeNum ≠ 1 then
    match (urlsByMyself env)[i]? with
    | none => none
    | some url => if url.length < env.baseUrlSize then some url else none
  else some baseURL

/-- The response buffer: a new allocation for the first transfer of a dataset, and for any other
one the place behind the buffer of the transfer with the number `i % ServerNodeNum - 1`. -/
def bufferOfTransfer (i typeSize : Nat) (s : SetupState) : Option (Nat × ResponseBuffer) :=
  let k := i % env.serverNodeNum
  let bufferSize := s.nodeSize.getD k 0 * typeSize
  if k = 0 then some (i / env.serverNodeNum, ⟨0, 0, bufferSize⟩)
  else
    match s.transfers[k - 1]? with
    | none => none
    | some t =>
        let buffer := t.respBuffer.buffer + s.nodeSize.getD (k - 1) 0 * typeSize
        some (t.allocation, ⟨buffer, buffer, bufferSize⟩)

/-- The selection in the URL, given the dataset's own request parameter if it has one. -/
def selectOfTransfer (i : Nat) (param : Option Text) (s : SetupState) : Option (Option Text) :=
  match param with
  | none => some none
  | some body =>
      if 1 < env.serverNodeNum then
        match s.selectNode[i % env.serverNodeNum]? with
        | some (some select) => some (some select)
        | _ => none
      else some (some body)

/-- One pass of the loop. -/
def setupTransfer (datasets : List ReadDataset) (i : Nat) (s : SetupState) : Outcome SetupState :=
  match datasets[i / env.serverNodeNum]? with
  | none => .undefined
  | some d =>
      match requestSelection d.isFixedLength d.extent.length d.fileSpace with
      | none => .fail
      | some (param, body) =>
          match cutForTransfer env i d body s with
          | none => .undefined
          | some s =>
              match serverOfTransfer env i s.baseURL, bufferOfTransfer env i d.typeSize s,
                selectOfTransfer env i param s with
              | some baseURL, some (allocation, respBuffer), some select =>
                  match rvDatasetReadUrl baseURL d.uri d.datasetName select with
                  | none => .fail
                  | some requestUrl =>
                      .ok { s with
                        baseURL
                        transfers := s.transfers ++
                          [⟨baseURL, select, requestUrl, allocation, respBuffer⟩] }
              | _, _, _ => .undefined

/-- The passes for the transfers of the list. -/
def setupTransfers (datasets : List ReadDataset) : List Nat → SetupState → Outcome SetupState
  | [], s => .ok s
  | i :: is, s => (setupTransfer env datasets i s).bind (setupTransfers datasets is)

/-- The loop of `RV_dataset_read` that sets up its transfers. -/
def rvDatasetReadSetup (datasets : List ReadDataset) : Outcome SetupState :=
  setupTransfers env datasets (List.range (datasets.length * env.serverNodeNum)) (setupStart env)

/-- The number of bytes that the merge loop hands to the callback for a dataset. -/
def mergedSize (d : ReadDataset) (s : SetupState) : Nat :=
  (s.nodeSize.map (· * d.typeSize)).sum

/-- What curl delivers into the allocation `a`, in the order of the schedule. -/
def deliveriesInto (a : Nat) (s : SetupState) (schedule : List (Nat × List UInt8)) :
    List (Nat × List UInt8) :=
  schedule.filter fun delivery => (s.transfers[delivery.1]?.map Transfer.allocation) == some a

/-- The bytes that the callback gets for the dataset `z` after all deliveries. -/
def mergedBytes (z : Nat) (d : ReadDataset) (s : SetupState)
    (schedule : List (Nat × List UInt8)) : List UInt8 :=
  (deliverAll ⟨fun _ => 0, s.transfers.map Transfer.respBuffer⟩
    (deliveriesInto z s schedule)).memory.read 0 (mergedSize d s)

end

/-- The cut of a dataset's own request parameter. -/
def OwnCut (n : Nat) (d : ReadDataset) (nodes : List (Nat × Text)) : Prop :=
  ∃ body, requestSelection d.isFixedLength d.extent.length d.fileSpace = some (some body, body) ∧
    cutSelection n false body = some (true, some nodes)

/-- The part of a schedule that belongs to the dataset `z`, as the deliveries of a read of this
dataset alone. -/
def ownDeliveries (n z : Nat) (schedule : List (Nat × List UInt8)) : List (Nat × List UInt8) :=
  schedule.filterMap fun delivery =>
    if delivery.1 / n = z then some (delivery.1 % n, delivery.2) else none

/-- The transfer of a dataset for the `k`-th server: the URL of a server, the dataset's own cut
selection, and the slice of the dataset's own buffer. -/
structure OwnTransfer (env : ReadEnv) (z : Nat) (d : ReadDataset) (nodes : List (Nat × Text))
    (k : Nat) (t : Transfer) : Prop where
  server : t.baseURL ∈ urlsByMyself env
  select : t.select = nodes[k]?.map Prod.snd
  url : rvDatasetReadUrl t.baseURL d.uri d.datasetName t.select = some t.requestUrl
  allocation : t.allocation = z
  buffer : (setupBuffers d.typeSize 0 (nodes.map Prod.fst))[k]? = some t.respBuffer

/-- Two transfers write to different places. -/
def DisjointSlices (first second : Transfer) : Prop :=
  first.allocation = second.allocation →
    first.respBuffer.buffer + first.respBuffer.bufferSize ≤ second.respBuffer.buffer ∨
      second.respBuffer.buffer + second.respBuffer.bufferSize ≤ first.respBuffer.buffer

/-- The datasets of a read do not interfere: every transfer is its own dataset's, the slices are
disjoint, and each dataset ends up with the bytes that reading it alone would give. -/
structure ReadsIndependently (env : ReadEnv) (datasets : List ReadDataset) (s : SetupState) :
    Prop where
  setup : rvDatasetReadSetup env datasets = .ok s
  transfers : ∀ (z : Nat) (d : ReadDataset), datasets[z]? = some d →
    ∃ nodes, OwnCut env.serverNodeNum d nodes ∧ nodes.length = env.serverNodeNum ∧
      ∀ k < env.serverNodeNum, ∃ t, s.transfers[z * env.serverNodeNum + k]? = some t ∧
        OwnTransfer env z d nodes k t
  disjoint : s.transfers.Pairwise DisjointSlices
  alone : ∀ (z : Nat) (d : ReadDataset), datasets[z]? = some d →
    ∃ s', rvDatasetReadSetup env [d] = .ok s' ∧ ∀ schedule,
      mergedBytes z d s schedule = mergedBytes 0 d s' (ownDeliveries env.serverNodeNum z schedule)

/-! ## One dataset -/

section Single

variable {env : ReadEnv} {d : ReadDataset} {body : Text} {nodes : List (Nat × Text)}

/-- The state of the loop before the transfer `k` of a single dataset. -/
structure SetUpTo (env : ReadEnv) (d : ReadDataset) (nodes : List (Nat × Text)) (k : Nat)
    (s : SetupState) : Prop where
  start : k = 0 → s = setupStart env
  nodeSize : 0 < k → s.nodeSize = nodes.map Prod.fst
  selectNode : 0 < k → s.selectNode = nodes.map fun node => some node.2
  length : s.transfers.length = k
  transfers : ∀ j < k, ∃ t, s.transfers[j]? = some t ∧ OwnTransfer env 0 d nodes j t ∧
    (urlsByMyself env)[j]? = some t.baseURL ∧ t.baseURL.length < env.baseUrlSize

/-- What the transfer `k` needs: the URL of a server that fits `base_URL`, and a request URL that
is not too long. -/
def TransferFits (env : ReadEnv) (d : ReadDataset) (nodes : List (Nat × Text)) (k : Nat) : Prop :=
  ∃ url requestUrl, (urlsByMyself env)[k]? = some url ∧ url.length < env.baseUrlSize ∧
    rvDatasetReadUrl url d.uri d.datasetName (nodes[k]?.map Prod.snd) = some requestUrl

theorem setUpTo_start : SetUpTo env d nodes 0 (setupStart env) where
  start _ := rfl
  nodeSize h := absurd h (lt_irrefl 0)
  selectNode h := absurd h (lt_irrefl 0)
  length := rfl
  transfers j hj := absurd hj (Nat.not_lt_zero j)

/-- After the cut the arrays of the loop hold the dataset's own nodes. -/
theorem cutForTransfer_eq {k : Nat} {s : SetupState} (h : SetUpTo env d nodes k s)
    (hspace : d.fileSpace.isSome)
    (hcut : cutSelection env.serverNodeNum false body = some (true, some nodes))
    (hk : k < env.serverNodeNum) :
    ∃ s', cutForTransfer env k d body s = some s' ∧ s'.nodeSize = nodes.map Prod.fst ∧
      s'.selectNode = (nodes.map fun node => some node.2) ∧ s'.transfers = s.transfers := by
  rw [cutForTransfer, Nat.mod_eq_of_lt hk]
  rcases Nat.eq_zero_or_pos k with rfl | hpos
  · obtain rfl := h.start rfl
    rw [if_pos ⟨rfl, hspace⟩]
    simp only [setupStart, hcut]
    exact ⟨_, rfl, rfl, rfl, rfl⟩
  · rw [if_neg fun hzero => absurd hzero.1 (by omega)]
    exact ⟨s, rfl, h.nodeSize hpos, h.selectNode hpos, rfl⟩

/-- One pass for a single dataset sets up its own transfer, or has no defined result or fails. -/
theorem setupTransfer_single {k : Nat} {s : SetupState} (h : SetUpTo env d nodes k s)
    (hone : 1 < env.serverNodeNum)
    (hparam : requestSelection d.isFixedLength d.extent.length d.fileSpace = some (some body, body))
    (hspace : d.fileSpace.isSome)
    (hcut : cutSelection env.serverNodeNum false body = some (true, some nodes))
    (hnodes : nodes.length = env.serverNodeNum) (hk : k < env.serverNodeNum) :
    (TransferFits env d nodes k → ∃ s', setupTransfer env [d] k s = .ok s') ∧
      ∀ s', setupTransfer env [d] k s = .ok s' →
        TransferFits env d nodes k ∧ SetUpTo env d nodes (k + 1) s' := by
  obtain ⟨s₁, hs₁, hsize, hselect, htransfers⟩ := cutForTransfer_eq h hspace hcut hk
  have hmod : k % env.serverNodeNum = k := Nat.mod_eq_of_lt hk
  have hdataset : [d][k / env.serverNodeNum]? = some d := by
    rw [Nat.div_eq_of_lt hk, List.getElem?_cons_zero]
  obtain ⟨node, hnode⟩ : ∃ node, nodes[k]? = some node :=
    ⟨_, List.getElem?_eq_getElem (hnodes ▸ hk)⟩
  have hnodeSize : (nodes.map Prod.fst)[k]? = some node.1 := by
    rw [List.getElem?_map, hnode, Option.map_some]
  -- The slice of the transfer starts behind the slice of the one before it.
  have hbuffer : ∃ buffer, (setupBuffers d.typeSize 0 (nodes.map Prod.fst))[k]? = some buffer ∧
      bufferOfTransfer env k d.typeSize s₁ = some (0, buffer) := by
    refine ⟨_, getElem?_setupBuffers hnodeSize d.typeSize 0, ?_⟩
    rw [bufferOfTransfer, hmod, hsize]
    simp only [List.getD_eq_getElem?_getD, hnodeSize, Option.getD_some]
    cases k with
    | zero => rw [if_pos rfl, Nat.zero_div]; simp
    | succ j =>
        obtain ⟨t, ht, hown, -⟩ := h.transfers j (Nat.lt_succ_self j)
        obtain ⟨before, hbefore⟩ : ∃ before, nodes[j]? = some before :=
          ⟨_, List.getElem?_eq_getElem (by omega)⟩
        have hbeforeSize : (nodes.map Prod.fst)[j]? = some before.1 := by
          rw [List.getElem?_map, hbefore, Option.map_some]
        have hprevious := hown.buffer
        rw [getElem?_setupBuffers hbeforeSize, Option.some.injEq] at hprevious
        rw [if_neg (Nat.succ_ne_zero j), Nat.add_sub_cancel, htransfers, ht]
        simp only [hbeforeSize, Option.getD_some, hown.allocation, ← hprevious]
        have hlt : j < (sliceSizes (nodes.map Prod.fst) d.typeSize).length := by
          simp only [sliceSizes, List.length_map]
          omega
        have hnext := sliceStart_succ hlt
        have hvalue : (sliceSizes (nodes.map Prod.fst) d.typeSize)[j] = before.1 * d.typeSize := by
          have hget : (sliceSizes (nodes.map Prod.fst) d.typeSize)[j]? =
              some (before.1 * d.typeSize) := by
            rw [sliceSizes, List.getElem?_map, hbeforeSize, Option.map_some]
          exact Option.some.inj ((List.getElem?_eq_getElem hlt).symm.trans hget)
        rw [hnext, hvalue, Nat.add_assoc]
  obtain ⟨buffer, hslice, hbuffer⟩ := hbuffer
  have hselected : selectOfTransfer env k (some body) s₁ = some (some node.2) := by
    rw [selectOfTransfer]
    simp only [if_pos hone, hmod, hselect, List.getElem?_map, hnode, Option.map_some]
  have hstep : setupTransfer env [d] k s =
      match serverOfTransfer env k s₁.baseURL with
      | none => .undefined
      | some baseURL =>
          match rvDatasetReadUrl baseURL d.uri d.datasetName (some node.2) with
          | none => .fail
          | some requestUrl =>
              .ok { s₁ with
                baseURL
                transfers := s.transfers ++ [⟨baseURL, some node.2, requestUrl, 0, buffer⟩] } := by
    rw [setupTransfer, hdataset]
    simp only [hparam, hs₁, hbuffer, hselected, htransfers]
    cases serverOfTransfer env k s₁.baseURL with
    | none => rfl
    | some baseURL => rfl
  have hserver : serverOfTransfer env k s₁.baseURL =
      match (urlsByMyself env)[k]? with
      | none => none
      | some url => if url.length < env.baseUrlSize then some url else none := by
    rw [serverOfTransfer, if_pos (by omega)]
  constructor
  · rintro ⟨url, requestUrl, hurl, hfits, hrequest⟩
    rw [hnode, Option.map_some] at hrequest
    rw [hstep, hserver, hurl]
    simp only [if_pos hfits, hrequest]
    exact ⟨_, rfl⟩
  · intro s' hs'
    rw [hstep, hserver] at hs'
    cases hurl : (urlsByMyself env)[k]? with
    | none => simp [hurl] at hs'
    | some url =>
        by_cases hfits : url.length < env.baseUrlSize
        · cases hrequest : rvDatasetReadUrl url d.uri d.datasetName (some node.2) with
          | none => simp [hurl, hfits, hrequest] at hs'
          | some requestUrl =>
              simp only [hurl, if_pos hfits, hrequest, Outcome.ok.injEq] at hs'
              subst hs'
              refine ⟨⟨url, requestUrl, hurl, hfits, by rw [hnode, Option.map_some, hrequest]⟩,
                fun hzero => absurd hzero (Nat.succ_ne_zero k), fun _ => hsize, fun _ => hselect,
                ?_, ?_⟩
              · rw [List.length_append, h.length, List.length_singleton]
              · intro j hj
                rcases Nat.lt_succ_iff_lt_or_eq.mp hj with hold | rfl
                · obtain ⟨t, ht, hown⟩ := h.transfers j hold
                  refine ⟨t, ?_, hown⟩
                  rw [List.getElem?_append_left (h.length ▸ hold)]
                  exact ht
                · refine ⟨⟨url, some node.2, requestUrl, 0, buffer⟩, ?_,
                    ⟨List.mem_of_getElem? hurl, ?_, hrequest, rfl, hslice⟩, hurl, hfits⟩
                  · rw [List.getElem?_append_right h.length.le, h.length, Nat.sub_self,
                      List.getElem?_cons_zero]
                  · rw [hnode, Option.map_some]
        · simp [hurl, hfits] at hs'

end Single

/-! ## The loop -/

section Loop

variable {env : ReadEnv} {datasets : List ReadDataset} {d : ReadDataset} {s s' : SetupState}

theorem setupTransfers_append (is js : List Nat) (s : SetupState) :
    setupTransfers env datasets (is ++ js) s =
      (setupTransfers env datasets is s).bind (setupTransfers env datasets js) := by
  induction is generalizing s with
  | nil => rfl
  | cons i is ih =>
      rw [List.cons_append, setupTransfers, setupTransfers]
      cases setupTransfer env datasets i s with
      | undefined => rfl
      | fail => rfl
      | ok s' => exact ih s'

/-- A transfer that is set up took the URL with its own number. -/
theorem lt_length_of_setupTransfer {i : Nat} (hone : env.serverNodeNum ≠ 1)
    (h : setupTransfer env datasets i s = .ok s') : i < (urlsByMyself env).length := by
  by_contra hlt
  have hserver (baseURL : Text) : serverOfTransfer env i baseURL = none := by
    rw [serverOfTransfer, if_pos hone, List.getElem?_eq_none (Nat.le_of_not_lt hlt)]
  unfold setupTransfer at h
  simp only [hserver] at h
  split at h
  · cases h
  · split at h
    · cases h
    · split at h <;> cases h

theorem forall_lt_length_of_setupTransfers {is : List Nat} (hone : env.serverNodeNum ≠ 1)
    (h : setupTransfers env datasets is s = .ok s') : ∀ i ∈ is, i < (urlsByMyself env).length := by
  induction is generalizing s with
  | nil => exact fun i hi => absurd hi List.not_mem_nil
  | cons i is ih =>
      obtain ⟨s₁, hfirst, hrest⟩ := Outcome.bind_eq_ok_iff.mp h
      exact List.forall_mem_cons.mpr ⟨lt_length_of_setupTransfer hone hfirst, ih hrest⟩

theorem length_urlsByMyself_le (env : ReadEnv) :
    (urlsByMyself env).length ≤ env.serverNodeNum := by
  rw [urlsByMyself, List.length_map, List.length_take]
  exact Nat.min_le_left _ _

/-- With several servers no more than one dataset is ever set up: the second one would take a URL
behind the end of `URLs_by_Myself`. -/
theorem eq_singleton_of_setup (hone : 1 < env.serverNodeNum) (hne : datasets ≠ [])
    (h : rvDatasetReadSetup env datasets = .ok s) : ∃ d, datasets = [d] := by
  match datasets, hne with
  | [d], _ => exact ⟨d, rfl⟩
  | first :: second :: rest, _ =>
      have hmem : env.serverNodeNum ∈
          List.range ((first :: second :: rest).length * env.serverNodeNum) := by
        rw [List.mem_range, List.length_cons, List.length_cons, Nat.add_mul, Nat.one_mul]
        exact Nat.lt_add_of_pos_left (Nat.mul_pos (Nat.succ_pos _) (by omega))
      have hlt := forall_lt_length_of_setupTransfers (by omega) h _ hmem
      have hle := length_urlsByMyself_le env
      omega

/-- The loop for a single dataset with a cut succeeds exactly when all its transfers fit. -/
theorem setupTransfers_single {body : Text} {nodes : List (Nat × Text)}
    (hone : 1 < env.serverNodeNum)
    (hparam : requestSelection d.isFixedLength d.extent.length d.fileSpace = some (some body, body))
    (hspace : d.fileSpace.isSome)
    (hcut : cutSelection env.serverNodeNum false body = some (true, some nodes))
    (hnodes : nodes.length = env.serverNodeNum) {k : Nat} (hk : k ≤ env.serverNodeNum) :
    ((∀ j < k, TransferFits env d nodes j) →
        ∃ s, setupTransfers env [d] (List.range k) (setupStart env) = .ok s) ∧
      ∀ s, setupTransfers env [d] (List.range k) (setupStart env) = .ok s →
        (∀ j < k, TransferFits env d nodes j) ∧ SetUpTo env d nodes k s := by
  induction k with
  | zero =>
      refine ⟨fun _ => ⟨_, rfl⟩, fun s hs => ⟨fun j hj => absurd hj (Nat.not_lt_zero j), ?_⟩⟩
      obtain rfl := Outcome.ok.inj hs
      exact setUpTo_start
  | succ k ih =>
      obtain ⟨ihfits, ihok⟩ := ih (by omega)
      have hsnoc (s : SetupState)
          (hs : setupTransfers env [d] (List.range k) (setupStart env) = .ok s) :
          setupTransfers env [d] (List.range (k + 1)) (setupStart env) =
            setupTransfer env [d] k s := by
        rw [List.range_succ, setupTransfers_append, hs, Outcome.ok_bind, setupTransfers]
        cases setupTransfer env [d] k s <;> rfl
      constructor
      · intro hfits
        obtain ⟨s, hs⟩ := ihfits fun j hj => hfits j (by omega)
        obtain ⟨hstep, -⟩ := setupTransfer_single (ihok s hs).2 hone hparam hspace hcut hnodes hk
        rw [hsnoc s hs]
        exact hstep (hfits k (Nat.lt_succ_self k))
      · intro s' hs'
        have hsplit := hs'
        rw [List.range_succ, setupTransfers_append] at hsplit
        obtain ⟨s, hs, -⟩ := Outcome.bind_eq_ok_iff.mp hsplit
        obtain ⟨-, hstep⟩ := setupTransfer_single (ihok s hs).2 hone hparam hspace hcut hnodes hk
        rw [hsnoc s hs] at hs'
        obtain ⟨hfit, hready⟩ := hstep s' hs'
        refine ⟨fun j hj => ?_, hready⟩
        rcases Nat.lt_succ_iff_lt_or_eq.mp hj with hold | rfl
        · exact (ihok s hs).1 j hold
        · exact hfit

end Loop

/-! ## What one dataset gets -/

section Result

variable {env : ReadEnv} {d : ReadDataset} {nodes : List (Nat × Text)}

/-- A dataset has a cut of its own exactly when its selection is in the URL and is cut somewhere. -/
theorem ownCut_iff {n : Nat} (hn : 0 < n) (d : ReadDataset) (nodes : List (Nat × Text)) :
    OwnCut n d nodes ↔ d.isFixedLength = true ∧ ∃ slabs outer start stop inner,
      d.fileSpace = some (.hyperslab slabs) ∧ CutAt n (bounds slabs) outer start stop inner ∧
        nodes = cutNodes outer start stop n inner := by
  have hslab (slabs : List Slab) (hspace : d.fileSpace = some (.hyperslab slabs)) :
      rvConvertDataspaceSelectionToString d.extent.length (.hyperslab slabs) true =
          some (slabText slabs) ∧
        ((cutSelection n false (slabText slabs) = some (true, some nodes)) ↔
          ∃ outer start stop inner, CutAt n (bounds slabs) outer start stop inner ∧
            nodes = cutNodes outer start stop n inner) := by
    obtain ⟨hne, hinside⟩ := d.inside slabs hspace
    refine ⟨?_, ?_⟩
    · rw [← hinside.length_eq]
      refine rvConvert_hyperslab fun hnil => hne ?_
      rw [hnil] at hinside
      exact List.forall₂_nil_left_iff.mp hinside
    · rw [cutSelection_slabText hinside, cutSelection_eq_some_iff hn (bounds_lt hinside)]
  constructor
  · rintro ⟨body, hparam, hcut⟩
    cases hspace : d.fileSpace with
    | none => simp [requestSelection, hspace] at hparam
    | some selection =>
        simp only [hspace, requestSelection, Option.map_eq_some_iff, Prod.mk.injEq] at hparam
        obtain ⟨text, htext, hbinary, rfl⟩ := hparam
        split at hbinary
        · next htransfer =>
            rw [Bool.and_eq_true] at htransfer
            rw [htransfer.1, htransfer.2, Bool.and_true] at htext
            cases selection with
            | all | none =>
                unfold rvConvertDataspaceSelectionToString at htext
                split at htext
                · cases htext
                · obtain rfl := Option.some.inj htext
                  simp [cutSelection] at hcut
            | points list => simp [SpaceSelection.isPoints] at htransfer
            | hyperslab slabs =>
                obtain ⟨hconvert, hiff⟩ := hslab slabs hspace
                obtain rfl := Option.some.inj (hconvert.symm.trans htext)
                obtain ⟨outer, start, stop, inner, hat, hnodes⟩ := hiff.mp hcut
                exact ⟨htransfer.1, slabs, outer, start, stop, inner, rfl, hat, hnodes⟩
        · cases hbinary
  · rintro ⟨hfixed, slabs, outer, start, stop, inner, hspace, hat, hnodes⟩
    obtain ⟨hconvert, hiff⟩ := hslab slabs hspace
    refine ⟨slabText slabs, ?_, hiff.mpr ⟨outer, start, stop, inner, hat, hnodes⟩⟩
    simp [hspace, requestSelection, hfixed, SpaceSelection.isPoints, hconvert]

/-- The parts of the URL of a read with a selection are joined by 32 characters. -/
theorem rvDatasetReadUrl_isSome_iff (baseURL uri datasetName select : Text) :
    (∃ url, rvDatasetReadUrl baseURL uri datasetName (some select) = some url) ↔
      baseURL.length + uri.length + datasetName.length + select.length + 32 < urlMaxLength := by
  have hdatasets : (lit "/datasets/").length = 10 := by unfold lit; decide
  have hvalue : (lit "/value?h5path=").length = 14 := by unfold lit; decide
  have hselect : (lit "&select=").length = 8 := by unfold lit; decide
  simp only [rvDatasetReadUrl, checkUrl, List.length_append, hdatasets, hvalue, hselect]
  split
  · refine iff_of_false ?_ (by omega)
    rintro ⟨url, hurl⟩
    cases hurl
  · exact iff_of_true ⟨_, rfl⟩ (by omega)

/-- The selection that a transfer carries in its URL. -/
theorem cutNodes_select {n k : Nat} (hk : k < n) (outer : Box) (start stop : Nat) (inner : Box) :
    (cutNodes outer start stop n inner)[k]?.map Prod.snd =
      some (selectText (nodeBox outer start (stop - start) n inner k)) := by
  rw [cutNodes, List.getElem?_map, List.getElem?_range hk, Option.map_some, Option.map_some]

/-- The slices of a single dataset follow each other. -/
theorem pairwise_disjointSlices {s : SetupState} {k : Nat} (h : SetUpTo env d nodes k s) :
    s.transfers.Pairwise DisjointSlices := by
  rw [List.pairwise_iff_getElem]
  intro i j hi hj hij hallocation
  rw [h.length] at hi hj
  obtain ⟨first, hfirst, hown, -⟩ := h.transfers i hi
  obtain ⟨second, hsecond, hown', -⟩ := h.transfers j hj
  obtain ⟨_, rfl⟩ := List.getElem?_eq_some_iff.mp hfirst
  obtain ⟨_, rfl⟩ := List.getElem?_eq_some_iff.mp hsecond
  have hlength (l : Nat) (t : Transfer) (hbuffer :
      (setupBuffers d.typeSize 0 (nodes.map Prod.fst))[l]? = some t.respBuffer) :
      ∃ size, (nodes.map Prod.fst)[l]? = some size ∧
        t.respBuffer = ⟨0 + sliceStart (sliceSizes (nodes.map Prod.fst) d.typeSize) l,
          0 + sliceStart (sliceSizes (nodes.map Prod.fst) d.typeSize) l, size * d.typeSize⟩ := by
    have hlt := (List.getElem?_eq_some_iff.mp hbuffer).1
    rw [length_setupBuffers] at hlt
    have hsize := List.getElem?_eq_getElem hlt
    rw [getElem?_setupBuffers hsize] at hbuffer
    exact ⟨_, hsize, (Option.some.inj hbuffer).symm⟩
  obtain ⟨size, hsize, hbuffer⟩ := hlength i _ hown.buffer
  obtain ⟨_, -, hbuffer'⟩ := hlength j _ hown'.buffer
  have hslice : (sliceSizes (nodes.map Prod.fst) d.typeSize)[i]? = some (size * d.typeSize) := by
    rw [sliceSizes, List.getElem?_map, hsize, Option.map_some]
  obtain ⟨hlt, hget⟩ := List.getElem?_eq_some_iff.mp hslice
  have hle := slice_le hlt hij
  refine Or.inl ?_
  rw [hbuffer, hbuffer']
  simp only
  omega

/-- A dataset that is read alone gets its own deliveries. -/
theorem mergedBytes_alone {s : SetupState} (hpos : 0 < env.serverNodeNum)
    (hlength : s.transfers.length = env.serverNodeNum) (schedule : List (Nat × List UInt8)) :
    mergedBytes 0 d s schedule = mergedBytes 0 d s (ownDeliveries env.serverNodeNum 0 schedule) := by
  have hown : deliveriesInto 0 s schedule =
      deliveriesInto 0 s (ownDeliveries env.serverNodeNum 0 schedule) := by
    induction schedule with
    | nil => rfl
    | cons delivery schedule ih =>
        by_cases hlt : delivery.1 < env.serverNodeNum
        · have hdiv : delivery.1 / env.serverNodeNum = 0 := Nat.div_eq_of_lt hlt
          have hmod : delivery.1 % env.serverNodeNum = delivery.1 := Nat.mod_eq_of_lt hlt
          simp only [deliveriesInto, ownDeliveries, List.filterMap_cons, List.filter_cons, hdiv,
            hmod, if_true] at ih ⊢
          rw [ih]
        · have hnone : s.transfers[delivery.1]? = none :=
            List.getElem?_eq_none (by omega)
          have hskip : deliveriesInto 0 s (delivery :: schedule) = deliveriesInto 0 s schedule := by
            simp [deliveriesInto, hnone]
          have hdiv : ¬ delivery.1 / env.serverNodeNum = 0 := by
            rw [Nat.div_eq_zero_iff]
            omega
          have hother : ownDeliveries env.serverNodeNum 0 (delivery :: schedule) =
              ownDeliveries env.serverNodeNum 0 schedule := by
            simp only [ownDeliveries, List.filterMap_cons, if_neg hdiv]
          rw [hskip, ih, hother]
  rw [mergedBytes, hown]
  rfl

end Result

/-- What several servers need: a single dataset whose selection is in the URL and is cut
somewhere, and for each server a URL that fits `base_URL` and makes a request URL of less than
2048 characters. -/
def SingleReadFits (env : ReadEnv) (datasets : List ReadDataset) : Prop :=
  ∃ d slabs outer start stop inner, datasets = [d] ∧ d.isFixedLength = true ∧
    d.fileSpace = some (.hyperslab slabs) ∧
      CutAt env.serverNodeNum (bounds slabs) outer start stop inner ∧
        ∀ k < env.serverNodeNum, ∃ url, (urlsByMyself env)[k]? = some url ∧
          url.length < env.baseUrlSize ∧
            url.length + d.uri.length + d.datasetName.length +
              (selectText (nodeBox outer start (stop - start) env.serverNodeNum inner k)).length +
                32 < urlMaxLength

/-- Two servers. -/
def twoEndpoints : ReadEnv :=
  ⟨2, lit "{a, b}", lit "a", 2⟩

/-- A vector of four bytes. -/
def vectorOfFour : ReadDataset where
  uri := lit "d"
  datasetName := lit "/v"
  isFixedLength := true
  extent := [4]
  fileSpace := some (.hyperslab [Slab.range 0 4 (by decide)])
  typeSize := 1
  inside := by
    rintro slabs ⟨⟩
    exact ⟨by decide, List.Forall₂.cons (by unfold Slab.Inside; decide) List.Forall₂.nil⟩

end XHDF5.Client
