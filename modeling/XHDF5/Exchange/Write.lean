/-
# What a write changes

The client sends the selected elements; the plugin writes the whole dataset from what it receives.
The two agree when everything is selected. With a selection in its URL a write reaches no dataset
at all, and a write to points fills the dataset with the text of the request.
-/

import XHDF5.Client.Write
import XHDF5.Exchange.Address
import XHDF5.Plugin.Write

namespace XHDF5.Exchange

open XHDF5.Math XHDF5.Client XHDF5.Plugin

/-- An opened dataset and the server that has it. A dataset is not the root group, and the server
gave it an identifier. -/
structure WriteTarget where
  endpoint : Endpoint
  dataset : OpenDataset
  not_root : dataset.absolutePath ≠ []
  has_uri : dataset.uri.text ≠ []

/-- The resource of a URL at a server. -/
def resourceOf (s : Endpoint) (url : Text) : Text := (url.takeWhile (· ≠ '?')).drop s.url.length

/-- The plugin takes a request for a write of a value: the file afterwards, and how many bytes
became data. -/
def processWrite (s : Endpoint) (file : H5File) (request : PutRequest) (available : Nat)
    (behind : Memory UInt8) : Option (H5File × Nat) :=
  let (h5path, select) := parseQuery (queryOf request.url)
  match route true (lit "PUT") (resourceOf s request.url) h5path select with
  | .writeValue => putValue file h5path ⟨request.body, available, behind⟩
  | _ => none

/-- The write changed the selected elements to the values in the memory and nothing else, and used
only bytes of the request for it. -/
structure WritesSelection (path : List Text) (call : WriteCall) (c : Conversion call.types)
    (buf : Memory UInt8) (file : H5File) (stored : StoredDataset) (received : Nat)
    (after : H5File) (used : Nat) : Prop where
  used_le : used ≤ received
  others : ∀ other, other ≠ path → after.dataset other = file.dataset other
  elements : ∃ written, after.dataset path = some written ∧ ∀ k < stored.dims.prod,
    (k ∉ call.file.offsets → written.elements[k]? = stored.elements[k]?) ∧
      (k ∈ call.file.offsets → ∃ j position : Nat, call.file.offsets[j]? = some k ∧
        call.mem.offsets[j]? = some position ∧
          written.elements[k]? = some (writtenValue c buf position))

/-- Every request that `RV_dataset_write` builds has this effect, whatever the file, the memory
and the conversion are. -/
def WritePreserves (t : WriteTarget) (call : WriteCall) (available : Nat) : Prop :=
  ∀ (c : Conversion call.types) (buf leftover behind : Memory UInt8) (file : H5File)
    (stored : StoredDataset), file.dataset t.dataset.absolutePath = some stored →
    stored.dims = call.dims → stored.size = call.types.fileSize →
    ∀ request, rvDatasetWrite t.endpoint.url t.dataset.uri.text t.dataset.name call c buf leftover =
        .ok (some request) →
      ∃ after used, processWrite t.endpoint file request available behind = some (after, used) ∧
        WritesSelection t.dataset.absolutePath call c buf file stored
          (min available request.body.length) after used

/-- Where a request is sent: the whole dataset is selected, its name is clean, the right elements
are gathered, and they are all at hand when the plugin asks for them. -/
def WriteFits (t : WriteTarget) (call : WriteCall) (available : Nat) : Prop :=
  Sends t.endpoint.url t.dataset.uri.text t.dataset.name call →
    call.fileSpace = none ∧ t.dataset.Clean ∧ GatherFits call.types.needsTconv call.mem ∧
      call.file.npoints * call.types.fileSize ≤ available ∧
        call.file.npoints * call.types.fileSize < 2 ^ 31

/-! ## The route -/

section Route

variable {t : WriteTarget} {select : Option Text} {url : Text}

/-- The resource of a write. -/
theorem resourceOf_writeUrl (hurl : writeUrl t.endpoint t.dataset select = some url) :
    resourceOf t.endpoint url = lit "/datasets/" ++ (t.dataset.uri.text ++ lit "/value") := by
  have hquery : ∃ query, url = valueAddress t.endpoint t.dataset ++ '?' :: query := by
    cases select with
    | none => exact ⟨_, checkUrl_eq_some (writeUrl_none_eq ▸ hurl)⟩
    | some body => exact ⟨_, checkUrl_eq_some (writeUrl_some_eq body ▸ hurl)⟩
  obtain ⟨query, rfl⟩ := hquery
  have hclean : ∀ c ∈ valueAddress t.endpoint t.dataset, decide (c ≠ '?') = true := fun c hc =>
    decide_eq_true fun heq => not_mem_valueAddress (s := t.endpoint) (d := t.dataset) (heq ▸ hc)
  rw [resourceOf, List.takeWhile_append_of_pos hclean, List.takeWhile_cons_of_neg (by simp),
    List.append_nil, valueAddress, List.drop_left]

/-- A write takes the route of the value. -/
theorem processWrite_eq {file : H5File} {body : List UInt8} {available : Nat}
    {behind : Memory UInt8} (hurl : writeUrl t.endpoint t.dataset select = some url) :
    processWrite t.endpoint file ⟨url, body⟩ available behind =
      putValue file (parseQuery (queryOf url)).1 ⟨body, available, behind⟩ := by
  have hroot : lit "/datasets/" ++ (t.dataset.uri.text ++ lit "/value") ≠ lit "/" := by
    intro heq
    have hlen := congrArg List.length heq
    have hlit : (lit "/datasets/").length = 10 ∧ (lit "/").length = 1 := by
      unfold lit
      decide
    rw [List.length_append, hlit.1, hlit.2] at hlen
    omega
  have hid : idOf (lit "/datasets/" ++ (t.dataset.uri.text ++ lit "/value")) ≠ [] := by
    rw [idOf, partsOf_value (t.dataset.uri.not_mem (by decide) (by decide))]
    exact t.has_uri
  rw [processWrite]
  simp only [resourceOf_writeUrl hurl, route_put hroot hid]

/-- The path that the plugin derives from a write is the dataset's exactly when there is no
selection in the URL and the name is clean. -/
theorem path_writeUrl_iff (hselect : ∀ body, select = some body → '&' ∉ body ∧ '=' ∉ body)
    (hurl : writeUrl t.endpoint t.dataset select = some url) :
    components (parseQuery (queryOf url)).1 = t.dataset.absolutePath ↔
      t.dataset.Clean ∧ select = none := by
  rcases clean_or_delimiter t.dataset.name with hname | ⟨c, hc, hname⟩
  · cases select with
    | none =>
        rw [parseQuery_writeUrl_none hname hurl, OpenDataset.Clean, components_eq_absolutePath_iff]
        exact ⟨fun hrooted => ⟨⟨hrooted, hname⟩, rfl⟩, fun h => h.1.1⟩
    | some body =>
        rw [parseQuery_writeUrl_some hname.1 (hselect body rfl) hurl]
        exact iff_of_false (fun h => t.not_root h.symm) fun h => by cases h.2
  · exact iff_of_false (ne_absolutePath_of_delimiter hc hname _)
      fun h => not_clean_of_delimiter hc hname h.1

end Route

/-! ## What a request does -/

section Effect

variable {t : WriteTarget} {call : WriteCall} {available : Nat}

/-- A selection in the URL of a write has no delimiter. -/
theorem selectionBody_clean {select : Option Text} {selection : Text}
    (h : call.selectionBody = some (select, selection)) :
    ∀ body, select = some body → '&' ∉ body ∧ '=' ∉ body := by
  rintro body rfl
  unfold WriteCall.selectionBody at h
  split at h
  · cases h
  · split at h
    · exact (requestSelection_some h).2
    · cases h

/-- Only `H5S_ALL` and points leave the URL without a selection. -/
theorem selectionBody_none {selection : Text} (h : call.selectionBody = some (none, selection)) :
    call.fileSpace = none ∨ call.isPoints = true := by
  unfold WriteCall.selectionBody at h
  unfold WriteCall.isPoints
  split at h
  · next hnone => exact Or.inl hnone
  · next selected hsome =>
      refine Or.inr ?_
      split at h
      · next space hregular =>
          obtain ⟨selected, hinside⟩ := selected
          obtain rfl := hregular
          cases space with
          | points list => rw [hsome]
          | all | none | hyperslab _ =>
              simp [requestSelection, SpaceSelection.isPoints] at h
      · cases h

theorem offsets_whole (hspace : call.fileSpace = none) :
    call.file.offsets = List.range call.dims.prod := by
  rw [WriteCall.file, hspace]
  rfl

/-- What arrives is read back element by element. -/
theorem fill_getElem? {stored : StoredDataset} {buffer : Memory UInt8} {k : Nat}
    (hk : k < stored.dims.prod) :
    (stored.fill buffer).elements[k]? = some (buffer.read (k * stored.size) stored.size) := by
  simp [StoredDataset.fill, hk]

/-- A write that fits changes the dataset to the selected elements of the memory. -/
theorem writePreserves_of_fits (hfits : WriteFits t call available) :
    WritePreserves t call available := by
  intro c buf leftover behind file stored hstored hdims hsize request hrequest
  obtain ⟨hsends, select, selection, values, hbody, hvalues, hurl, hrequestBody⟩ :=
    (rvDatasetWrite_eq_some_iff c buf leftover request).mp hrequest
  obtain ⟨hspace, hclean, hgather, havailable, hshort⟩ := hfits hsends
  obtain ⟨url, body⟩ := request
  have hnone : select = none ∧ call.isPoints = false := by
    rw [WriteCall.selectionBody, hspace] at hbody
    rw [WriteCall.isPoints, hspace]
    exact ⟨congrArg Prod.fst (Option.some.inj hbody).symm, rfl⟩
  obtain ⟨rfl, hpoints⟩ := hnone
  obtain rfl : body = values := by simpa [hpoints] using hrequestBody
  have hnpoints : call.mem.npoints = call.dims.prod := by
    rw [hsends.1.2.1, Space.npoints, offsets_whole hspace, List.length_range]
  rw [Space.npoints, offsets_whole hspace, List.length_range] at havailable hshort
  -- The body holds the values of the selected elements of the memory.
  have hvalues := gatheredValues_of_fits c buf leftover hgather hvalues
  have hpieces : ∀ piece ∈ call.mem.offsets.map (writtenValue c buf),
      piece.length = call.types.fileSize := by
    intro piece hpiece
    obtain ⟨position, -, rfl⟩ := List.mem_map.mp hpiece
    exact length_writtenValue c buf position
  rw [List.flatMap_def] at hvalues
  have hlen : body.length = call.dims.prod * call.types.fileSize := by
    rw [hvalues, Memory.length_flatten_of_size hpieces, List.length_map, ← hnpoints]
    rfl
  have hurl : writeUrl t.endpoint t.dataset none = some url := hurl
  have hpath := (path_writeUrl_iff (selectionBody_clean hbody) hurl).mpr ⟨hclean, rfl⟩
  obtain ⟨after, used, hwrite⟩ : ∃ after used, xrdWriteToDataset file (parseQuery (queryOf url)).1
      ((Body.buffgetData ⟨body, available, behind⟩).write body.length [0]) = (after, used) :=
    ⟨_, _, Prod.mk.eta.symm⟩
  have hput : putValue file (parseQuery (queryOf url)).1 ⟨body, available, behind⟩ =
      some (after, used) := by
    rw [putValue, Body.terminated_eq, if_pos (by simpa [hlen] using hshort), Option.map_some]
    exact congrArg some hwrite
  have hsame := @xrdWriteToDataset_same _ _
    ((Body.buffgetData ⟨body, available, behind⟩).write body.length [0]) _ (hpath.symm ▸ hstored)
  have hothers := @xrdWriteToDataset_other file (parseQuery (queryOf url)).1
    ((Body.buffgetData ⟨body, available, behind⟩).write body.length [0])
  simp only [hwrite, hpath] at hsame hothers
  refine ⟨after, used, (processWrite_eq hurl).trans hput, ?_, hothers, _, hsame.1,
    fun k hk => ?_⟩
  · rw [hsame.2, hdims, hsize, ← hlen]
    exact le_min (hlen.trans_le havailable) le_rfl
  · rw [hdims] at hk
    rw [offsets_whole hspace]
    refine ⟨fun hout => absurd (List.mem_range.mpr hk) hout, fun _ => ?_⟩
    have hmem : k < call.mem.offsets.length := lt_of_lt_of_eq hk hnpoints.symm
    refine ⟨k, call.mem.offsets[k], by simp [hk], List.getElem?_eq_getElem hmem, ?_⟩
    have hwithin : k * call.types.fileSize + call.types.fileSize ≤ body.length := by
      rw [hlen, ← Nat.succ_mul]
      exact Nat.mul_le_mul_right _ hk
    rw [fill_getElem? (by rw [hdims]; exact hk), hsize, Body.read_terminated hwithin
      (hwithin.trans (hlen.trans_le havailable)), hvalues,
      Memory.read_write_flatten hpieces (by simpa using hmem), List.getElem_map]

end Effect

/-! ## Files that show what is wrong -/

/-- A dataset of the call whose bytes are all one. -/
def onesDataset (call : WriteCall) : StoredDataset where
  dims := call.dims
  size := call.types.fileSize
  elements := List.replicate call.dims.prod (List.replicate call.types.fileSize 1)
  length_elements := List.length_replicate

/-- The file that has this dataset at the target's path and no other. -/
def onesFile (t : WriteTarget) (call : WriteCall) : H5File where
  dataset path := if path = t.dataset.absolutePath then some (onesDataset call) else none
  root := if_neg (Ne.symm t.not_root)

section Wrong

variable {t : WriteTarget} {call : WriteCall} {available : Nat}

/-- What the property says of the file of ones. -/
structure OnesEffect (t : WriteTarget) (call : WriteCall) (available : Nat)
    (c : Conversion call.types) (buf leftover behind : Memory UInt8) (select : Option Text)
    (url : Text) (body : List UInt8) (after : H5File) (used : Nat) : Prop where
  selection : ∃ selection values, call.selectionBody = some (select, selection) ∧
    gatheredValues c buf leftover call.mem = some values ∧
      body = if call.isPoints then pointBody selection values else values
  request : writeUrl t.endpoint t.dataset select = some url
  put : putValue (onesFile t call) (parseQuery (queryOf url)).1 ⟨body, available, behind⟩ =
    some (after, used)
  writes : WritesSelection t.dataset.absolutePath call c buf (onesFile t call) (onesDataset call)
    (min available body.length) after used

theorem WritePreserves.onesEffect (h : WritePreserves t call available)
    (hsends : Sends t.endpoint.url t.dataset.uri.text t.dataset.name call)
    (c : Conversion call.types) (buf leftover behind : Memory UInt8) :
    ∃ select url body after used,
      OnesEffect t call available c buf leftover behind select url body after used := by
  obtain ⟨request, hrequest⟩ := exists_request hsends c buf leftover
  obtain ⟨after, used, hprocess, hwrites⟩ := h c buf leftover behind (onesFile t call)
    (onesDataset call) (if_pos rfl) rfl rfl request hrequest
  obtain ⟨-, select, selection, values, hbody, hvalues, hurl, hrequestBody⟩ :=
    (rvDatasetWrite_eq_some_iff c buf leftover request).mp hrequest
  obtain ⟨url, body⟩ := request
  exact ⟨select, url, body, after, used, ⟨selection, values, hbody, hvalues, hrequestBody⟩, hurl,
    (processWrite_eq hurl).symm.trans hprocess, hwrites⟩

/-- The first selected element of the file. -/
theorem exists_selected (hpos : 0 < call.file.npoints) :
    ∃ k ∈ call.file.offsets, k < call.dims.prod := by
  obtain ⟨k, hk⟩ := List.exists_mem_of_length_pos hpos
  have hdims : call.file.dims = call.dims := by
    unfold WriteCall.file
    split <;> rfl
  exact ⟨k, hk, hdims ▸ offsets_lt k hk⟩

theorem writtenValue_zero (c : TransferTypes) (k : Nat) :
    writtenValue (markedConversion c) (fun _ => 0) k = List.replicate c.fileSize 0 := by
  unfold writtenValue
  rw [Memory.read_const]
  by_cases htconv : c.needsTconv = true
  · simp [htconv, markedConversion]
  · rw [if_neg htconv, c.same_size (Bool.eq_false_of_not_eq_true htconv)]

theorem onesDataset_getElem? {k : Nat} (hk : k < call.dims.prod) :
    (onesDataset call).elements[k]? = some (List.replicate call.types.fileSize 1) := by
  simp [onesDataset, hk]

variable {select : Option Text} {url : Text} {body : List UInt8} {after : H5File} {used : Nat}
  {c : Conversion call.types} {buf leftover behind : Memory UInt8}

/-- Values that the target holds afterwards must have reached it. -/
theorem OnesEffect.reaches
    (h : OnesEffect t call available (markedConversion call.types) (fun _ => 0) leftover behind
      select url body after used) (hpos : 0 < call.file.npoints) :
    components (parseQuery (queryOf url)).1 = t.dataset.absolutePath := by
  by_contra hpath
  obtain ⟨buffer, -, hwrite⟩ := Option.map_eq_some_iff.mp h.put
  obtain ⟨written, hwritten, helements⟩ := h.writes.elements
  have hsame := @xrdWriteToDataset_other (onesFile t call) _ buffer t.dataset.absolutePath
    (Ne.symm hpath)
  have hstored : (onesFile t call).dataset t.dataset.absolutePath = some (onesDataset call) :=
    if_pos rfl
  rw [hwrite, hwritten, hstored] at hsame
  obtain rfl := Option.some.inj hsame
  obtain ⟨k, hk, hlt⟩ := exists_selected hpos
  obtain ⟨j, position, -, -, hvalue⟩ := (helements k hlt).2 hk
  rw [onesDataset_getElem? hlt, writtenValue_zero] at hvalue
  exact replicate_ne call.types.fileSize_pos (by decide) (Option.some.inj hvalue)

/-- What the target holds afterwards is the buffer of the request. -/
theorem OnesEffect.filled
    (h : OnesEffect t call available c buf leftover behind select url body after used)
    (hpath : components (parseQuery (queryOf url)).1 = t.dataset.absolutePath) :
    body.length < 2 ^ 31 ∧ used = call.dims.prod * call.types.fileSize ∧
      after.dataset t.dataset.absolutePath = some ((onesDataset call).fill
        ((Body.buffgetData ⟨body, available, behind⟩).write body.length [0])) := by
  obtain ⟨buffer, hbuffer, hwrite⟩ := Option.map_eq_some_iff.mp h.put
  rw [Body.terminated_eq] at hbuffer
  split at hbuffer
  · next hshort =>
      obtain rfl := Option.some.inj hbuffer
      have hwrite : xrdWriteToDataset (onesFile t call) (parseQuery (queryOf url)).1
          ((Body.buffgetData ⟨body, available, behind⟩).write body.length [0]) = (after, used) :=
        hwrite
      have hstored : (onesFile t call).dataset (components (parseQuery (queryOf url)).1) =
          some (onesDataset call) := by
        rw [hpath]
        exact if_pos rfl
      have hsame := @xrdWriteToDataset_same _ _
        ((Body.buffgetData ⟨body, available, behind⟩).write body.length [0]) _ hstored
      simp only [hwrite, hpath] at hsame
      exact ⟨hshort, hsame.2, hsame.1⟩
  · cases hbuffer

/-- A write to points puts the text of the request into the dataset. -/
theorem OnesEffect.not_points
    (h : OnesEffect t call available (markedConversion call.types) (fun _ => 0) leftover
      (fun _ => 123) select url body after used) (hpos : 0 < call.file.npoints) :
    call.isPoints = false := by
  rw [Bool.eq_false_iff]
  intro hpoints
  obtain ⟨-, -, hafter⟩ := h.filled (h.reaches hpos)
  obtain ⟨selection, values, -, -, hbody⟩ := h.selection
  rw [if_pos hpoints] at hbody
  obtain ⟨rest, hrest⟩ : ∃ rest, body = 123 :: rest := ⟨_, hbody⟩
  obtain ⟨written, hwritten, helements⟩ := h.writes.elements
  obtain rfl := Option.some.inj (hafter.symm.trans hwritten)
  obtain ⟨k, -, hlt⟩ := exists_selected hpos
  have hzero : 0 < call.dims.prod := Nat.zero_lt_of_lt hlt
  obtain ⟨size, hsize⟩ := Nat.exists_eq_succ_of_ne_zero call.types.fileSize_pos.ne'
  -- The first byte of the dataset is the opening brace.
  have hbrace : ((Body.buffgetData ⟨body, available, fun _ => 123⟩).write body.length [0]) 0 = 123 := by
    rw [Memory.write_of_lt (by rw [hrest]; exact Nat.succ_pos _), Body.buffgetData, hrest]
    cases available with
    | zero => rfl
    | succ available => rfl
  have hread : (((onesDataset call).fill ((Body.buffgetData ⟨body, available, fun _ => 123⟩).write
      body.length [0])).elements[0]?).bind List.head? = some 123 := by
    rw [fill_getElem? hzero]
    simp only [onesDataset, hsize, Nat.zero_mul, Option.bind_some]
    exact congrArg some hbrace
  by_cases hselected : 0 ∈ call.file.offsets
  · obtain ⟨j, position, -, -, hvalue⟩ := (helements 0 hzero).2 hselected
    rw [hvalue, writtenValue_zero, hsize] at hread
    simp [List.replicate_succ] at hread
  · have hold := (helements 0 hzero).1 hselected
    rw [hold, onesDataset_getElem? hzero, hsize] at hread
    simp [List.replicate_succ] at hread

end Wrong

/-! ## The exact condition -/

section Exact

variable {t : WriteTarget} {call : WriteCall} {available : Nat}

theorem fits_of_writePreserves (h : WritePreserves t call available) :
    WriteFits t call available := by
  intro hsends
  have hpos := hsends.1.1
  obtain ⟨select, url, body, after, used, heffect⟩ :=
    h.onesEffect hsends (markedConversion call.types) (fun _ => 0) (fun _ => 0) fun _ => 123
  obtain ⟨selection, values, hbody, -, -⟩ := heffect.selection
  obtain ⟨hclean, rfl⟩ :=
    (path_writeUrl_iff (selectionBody_clean hbody) heffect.request).mp (heffect.reaches hpos)
  have hpoints := heffect.not_points hpos
  have hspace : call.fileSpace = none := by
    rcases selectionBody_none hbody with hspace | htrue
    · exact hspace
    · rw [hpoints] at htrue
      cases htrue
  have hnpoints : call.file.npoints = call.dims.prod := by
    rw [Space.npoints, offsets_whole hspace, List.length_range]
  have hsingle : ¬ (rvDataspaceSelectionIsContiguous call.mem = true ∧
      rvConvertStartToOffset call.mem = none) := mt isSinglePoint_iff.mpr hsends.1.2.2
  -- The sizes are the same for every memory.
  have hlen {c : Conversion call.types} {buf leftover behind : Memory UInt8} {select : Option Text}
      {url : Text} {body : List UInt8} {after : H5File} {used : Nat}
      (h : OnesEffect t call available c buf leftover behind select url body after used) :
      body = ((sentPositions call.mem).map fun position =>
          (bufToWrite c buf leftover call.mem.npoints).read (position * call.types.fileSize)
            call.types.fileSize).flatten ∧
        body.length = call.dims.prod * call.types.fileSize := by
    obtain ⟨selection, values, -, hvalues, hbody⟩ := h.selection
    rw [gatheredValues_eq c buf leftover hsingle] at hvalues
    rw [hpoints, if_neg Bool.false_ne_true, ← Option.some.inj hvalues] at hbody
    refine ⟨hbody.trans List.flatMap_def, ?_⟩
    rw [hbody, length_gathered, hsends.1.2.1, hnpoints]
  obtain ⟨hshort, hused, -⟩ := heffect.filled (heffect.reaches hpos)
  have hlength := (hlen heffect).2
  have hfit : call.dims.prod * call.types.fileSize ≤ available := by
    have := heffect.writes.used_le
    omega
  refine ⟨hspace, hclean, ?_, hnpoints ▸ hfit, hnpoints ▸ hlength ▸ hshort⟩
  -- A memory that shows a wrong element would show it in the dataset.
  by_contra hgather
  obtain ⟨c, buf, leftover, k, sent, position, hsent, hposition, hwrong⟩ :=
    exists_wrong_value (hsends.1.2.1 ▸ hpos) hsingle hgather
  obtain ⟨select, url, body, after, used, heffect⟩ :=
    h.onesEffect hsends c buf leftover fun _ => 0
  obtain ⟨selection, values, hbody, -, -⟩ := heffect.selection
  have hnone : select = none := by
    rw [WriteCall.selectionBody, hspace] at hbody
    exact congrArg Prod.fst (Option.some.inj hbody).symm
  subst hnone
  obtain ⟨hpieces, hlength⟩ := hlen heffect
  obtain ⟨-, -, hafter⟩ := heffect.filled
    ((path_writeUrl_iff (selectionBody_clean hbody) heffect.request).mpr ⟨hclean, rfl⟩)
  obtain ⟨written, hwritten, helements⟩ := heffect.writes.elements
  obtain rfl := Option.some.inj (hafter.symm.trans hwritten)
  have hk : k < call.dims.prod := by
    have hlt := (List.getElem?_eq_some_iff.mp hposition).1
    exact lt_of_lt_of_eq hlt (hsends.1.2.1.trans hnpoints)
  obtain ⟨j, position', hj, hposition', hvalue⟩ :=
    (helements k hk).2 (by rw [offsets_whole hspace]; exact List.mem_range.mpr hk)
  rw [offsets_whole hspace] at hj
  obtain ⟨hlt, hjk⟩ := List.getElem?_eq_some_iff.mp hj
  obtain rfl : j = k := by simpa using hjk
  obtain rfl := Option.some.inj (hposition'.symm.trans hposition)
  have hwithin : j * call.types.fileSize + call.types.fileSize ≤ body.length := by
    rw [hlength, ← Nat.succ_mul]
    exact Nat.mul_le_mul_right _ hk
  rw [fill_getElem? hk] at hvalue
  have hread := (Body.read_terminated (b := ⟨body, available, fun _ => 0⟩) hwithin
    (hwithin.trans (hlength.trans_le hfit))).symm.trans (Option.some.inj hvalue)
  have hsentlt : j < ((sentPositions call.mem).map fun position =>
      (bufToWrite c buf leftover call.mem.npoints).read (position * call.types.fileSize)
        call.types.fileSize).length := by
    rw [List.length_map]
    exact (List.getElem?_eq_some_iff.mp hsent).1
  rw [hpieces, Memory.read_write_flatten _ hsentlt, List.getElem_map,
    (List.getElem?_eq_some_iff.mp hsent).2] at hread
  · exact hwrong hread
  · intro piece hpiece
    obtain ⟨position, -, rfl⟩ := List.mem_map.mp hpiece
    exact Memory.length_read _

end Exact

/-- The dataset `/data`. -/
def vectorTarget : WriteTarget where
  endpoint := ⟨['h'], by decide⟩
  dataset := ⟨[], ⟨['g'], plain_g⟩, ⟨['d'], plain_d⟩, ['/', 'd', 'a', 't', 'a']⟩
  not_root := by decide
  has_uri := by decide

theorem one_byte_each : false = false → 1 = 1 := fun _ => rfl

/-- The first two of four elements of one byte each. -/
def firstHalf : WriteCall where
  types := ⟨1, 1, false, Nat.one_pos, Nat.one_pos, one_byte_each⟩
  dims := [4]
  memSpace := some (Space.whole [2])
  fileSpace := some ⟨.regular (.hyperslab [Slab.range 0 2 Nat.two_pos]), by
    simp [Selection.Inside, Slab.Inside, Slab.range]⟩

end XHDF5.Exchange
