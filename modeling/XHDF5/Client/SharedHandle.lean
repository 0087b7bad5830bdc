/-
# The connection that all operations share

One curl handle and one `base_URL` serve every operation but the transfers of datasets. Options set
on the handle stay set until they are set anew. Every function of the connector is modelled by what
it does to them, with its calls of the others and every exit it has; the options that each request
sets anew (`CURLOPT_URL`, the data and size of a body) are left out. The connection information is
set up.
-/

import XHDF5.Math.Exits

namespace XHDF5.Client.SharedHandle

open XHDF5.Math XHDF5.Math.Script

/-! ## The handle -/

/-- The method of the next request. `CURLOPT_HTTPGET`, `CURLOPT_UPLOAD` and `CURLOPT_POST` settle it
between them. -/
inductive Method
  | get
  | put
  | post
deriving DecidableEq

/-- The options of a handle that stay. -/
structure Handle where
  method : Method
  customRequest : Option String
  postFields : Bool
  headerList : Bool
deriving DecidableEq

/-- A handle as `curl_easy_init` hands it out. -/
def Handle.default : Handle :=
  { method := .get, customRequest := none, postFields := false, headerList := false }

/-- What the functions do to the connection. -/
inductive Setting
  | httpHeader
  | httpGet
  | upload (on : Bool)
  | post
  | postFields
  | customRequest (verb : Option String)
  | baseUrl (url : Option (List Char))
  | perform
deriving DecidableEq

/-- `curl_easy_setopt` on the handle. Without `CURLOPT_UPLOAD` the method is GET again. -/
def Handle.set (h : Handle) : Setting → Handle
  | .httpHeader => { h with headerList := true }
  | .httpGet => { h with method := .get }
  | .upload on => { h with method := if on then .put else .get }
  | .post => { h with method := .post }
  | .postFields => { h with method := .post, postFields := true }
  | .customRequest verb => { h with customRequest := verb }
  | .baseUrl _ | .perform => h

/-- The handle, and `base_URL` with what was copied into it last. -/
structure State where
  handle : Handle
  baseUrl : Option (List Char)
deriving DecidableEq

/-- The connection of a client that has made no request yet. -/
def State.initial (url : List Char) : State := { handle := .default, baseUrl := some url }

/-- One setting. -/
def State.set (s : State) (a : Setting) : State :=
  { handle := s.handle.set a
    baseUrl := match a with
      | .baseUrl url => url
      | _ => s.baseUrl }

/-! ## The functions of the connector -/

/-- `H5VL_attr_get_t`. -/
inductive AttrGet
  | acpl | info | name | space | storageSize | type

/-- `H5VL_attr_specific_t`. -/
inductive AttrSpecific
  | deleteByIdx | delete | exist | iter | rename

/-- `H5VL_dataset_get_t`. -/
inductive DatasetGet
  | dapl | dcpl | space | spaceStatus | storageSize | type

/-- `H5VL_dataset_specific_t`. -/
inductive DatasetSpecific
  | setExtent | flush | refresh

/-- `H5VL_file_specific_t`. -/
inductive FileSpecific
  | flush | reopen | isAccessible | delete | isEqual

/-- `H5VL_group_get_t`. -/
inductive GroupGet
  | gcpl | info

/-- `H5VL_link_create_t`. -/
inductive LinkCreate
  | hard | soft | ud

/-- `H5VL_link_get_t`. -/
inductive LinkGet
  | info | name | val

/-- `H5VL_link_specific_t`. -/
inductive LinkSpecific
  | delete | exist | iter

/-- `H5VL_object_get_t`. -/
inductive ObjectGet
  | name | file | type | info

/-- `H5VL_object_specific_t`. -/
inductive ObjectSpecific
  | changeRefCount | exist | lookup | visit | flush | refresh

/-- The functions, with the part of their arguments that decides what they do. A read is given
`SERVER_NUM`, the nodes of `XRDMULTI_ENDPOINT` and the number of its datasets. -/
inductive Routine
  | findObjectByPath
  | attrCreate | attrOpen | attrRead | attrWrite
  | attrGet (op : AttrGet) | attrSpecific (op : AttrSpecific) | attrClose
  | datasetCreate | datasetOpen
  | datasetRead (serverNodeNum : Int) (urlsByMyself : List (List Char)) (count : Nat)
  | datasetWrite | datasetGet (op : DatasetGet) | datasetSpecific (op : DatasetSpecific)
  | datasetClose | setupDatasetCreateRequestBody
  | datatypeCommit | datatypeOpen | datatypeGet | datatypeClose
  | fileCreate | fileOpen | fileGet | fileSpecific (op : FileSpecific) | fileClose
  | groupCreate | groupOpen | groupGet (op : GroupGet) | groupClose
  | linkCreate (op : LinkCreate) | linkCopy | linkMove | linkGet (op : LinkGet)
  | linkSpecific (op : LinkSpecific)
  | getLinkNameByIdxCallback | linkIterCallback | buildLinkTable
  | objectOpen | objectCopy | objectGet (op : ObjectGet) | objectSpecific (op : ObjectSpecific)
  | objectIterCallback | buildObjectTable

/-- The callbacks of `H5VL_rest_g`; the others only serve these. -/
def Routine.IsOperation : Routine → Prop
  | .findObjectByPath | .setupDatasetCreateRequestBody | .getLinkNameByIdxCallback
  | .linkIterCallback | .buildLinkTable | .objectIterCallback | .buildObjectTable => False
  | _ => True

/-- Code over the connection. -/
abbrev Code := Script Setting Routine

/-- A request with these settings. -/
def request (settings : List Setting) : Code :=
  block [work, acts (.httpHeader :: settings ++ [.perform]), work]

/-- A GET request. -/
def getRequest : Code := request [.httpGet]

/-- A PUT request. -/
def putRequest : Code := request [.upload true]

/-- A POST request. -/
def postRequest : Code := request [.post, .postFields]

/-- A DELETE request. -/
def deleteRequest : Code := request [.customRequest (some "DELETE")]

/-- The object found is opened according to its type. -/
def openFound : Code := alt (call .groupOpen) (alt (call .datatypeOpen) (call .datasetOpen))

/-- `RV_find_object_by_path`: on an old server the parent and the target of a link are searched for
too. -/
def rvFindObjectByPath : Code :=
  block [work, maybe (call .findObjectByPath), getRequest,
    maybe (block [maybe (call .fileOpen), call .findObjectByPath]), work]

/-- `RV_attr_get`. -/
def rvAttrGet : AttrGet → Code
  | .acpl | .space | .type => work
  | .info =>
      block [work, maybe (block [call .findObjectByPath, maybe getRequest]), getRequest]
  | .name => block [work, maybe (block [call .findObjectByPath, getRequest])]
  | .storageSize => leave

/-- `RV_attr_specific`. -/
def rvAttrSpecific : AttrSpecific → Code
  | .deleteByIdx =>
      block [work, call (.attrGet .name), call .findObjectByPath, deleteRequest]
  | .delete => block [work, maybe (call .findObjectByPath), deleteRequest]
  | .exist => block [work, maybe (call .findObjectByPath), getRequest]
  | .iter => block [work, maybe (block [call .findObjectByPath, openFound]), getRequest]
  | .rename =>
      block [work, maybe (block [call .findObjectByPath, openFound]), call .attrOpen,
        call .attrCreate, call .attrRead, call .attrWrite, deleteRequest]

/-- `RV_dataset_read`: with several servers the node of each transfer is copied into `base_URL`. A
transfer beyond the nodes copies what is found behind them. -/
def rvDatasetRead (serverNodeNum : Int) (urlsByMyself : List (List Char)) (count : Nat) : Code :=
  if serverNodeNum ≤ 0 ∨ 10 < serverNodeNum then leave
  else
    block (work :: (List.range (count * serverNodeNum.toNat)).map fun i =>
      if serverNodeNum ≠ 1 then
        block [act (.baseUrl (urlsByMyself.take serverNodeNum.toNat)[i]?), work]
      else work)

/-- `RV_dataset_get`. -/
def rvDatasetGet : DatasetGet → Code
  | .dapl | .dcpl | .space | .type => work
  | .spaceStatus => leave
  | .storageSize => block [work, call (.fileSpecific .flush), getRequest]

/-- `RV_dataset_specific`. -/
def rvDatasetSpecific : DatasetSpecific → Code
  | .setExtent => putRequest
  | .flush | .refresh => leave

/-- `RV_file_create`: with `H5F_ACC_TRUNC` the file is looked for and deleted first. -/
def rvFileCreate : Code :=
  block [work, act .httpHeader,
    maybe (block [acts [.httpGet, .perform], maybe (acts
      [.customRequest (some "DELETE"), .perform, .customRequest none])]),
    work, acts [.upload true, .perform], work]

/-- `RV_file_specific`. -/
def rvFileSpecific : FileSpecific → Code
  | .flush => putRequest
  | .reopen => block [work, call .fileOpen]
  | .isAccessible => block [work, attempt .fileOpen, work]
  | .delete => deleteRequest
  | .isEqual => leave

/-- `RV_group_create`: the group above is searched for, and made when it is not there. -/
def rvGroupCreate : Code :=
  block [work, maybe (block [attempt .findObjectByPath, work,
    maybe (block [call .groupCreate, attempt .findObjectByPath])]), postRequest]

/-- `RV_group_get`. -/
def rvGroupGet : GroupGet → Code
  | .gcpl => work
  | .info => block [work, maybe (call .findObjectByPath), getRequest]

/-- `RV_link_create`. -/
def rvLinkCreate : LinkCreate → Code
  | .hard => block [work, maybe (call .findObjectByPath), putRequest]
  | .soft | .ud => putRequest

/-- `RV_link_get`. -/
def rvLinkGet : LinkGet → Code
  | .info | .val => block [work, maybe (call .findObjectByPath), getRequest]
  | .name => block [work, call .findObjectByPath, getRequest, call .getLinkNameByIdxCallback]

/-- `RV_link_specific`. -/
def rvLinkSpecific : LinkSpecific → Code
  | .delete => block [work, maybe (call .findObjectByPath), deleteRequest]
  | .exist => block [work, maybe (call .findObjectByPath), getRequest]
  | .iter => block [work, call .groupOpen, getRequest, call .linkIterCallback]

/-- `RV_object_get`. -/
def rvObjectGet : ObjectGet → Code
  | .name => work
  | .file | .type => leave
  | .info =>
      block [work, maybe (block [call .findObjectByPath,
        maybe (block [getRequest, call .findObjectByPath])]), getRequest]

/-- `RV_object_specific`: what is not found by name is looked for as an attribute. -/
def rvObjectSpecific : ObjectSpecific → Code
  | .visit =>
      block [work, maybe (block [attempt .findObjectByPath,
        alt (block [call .attrOpen, leave]) openFound]), getRequest,
        maybe (block [getRequest, call .objectIterCallback])]
  | .changeRefCount | .exist | .lookup | .flush | .refresh => leave

/-- `RV_build_link_table`: the groups below are asked for with the options of the request before. -/
def rvBuildLinkTable : Code :=
  block [work, loop (block [work, maybe (block [act .perform, call .buildLinkTable])]), work]

/-- `RV_build_object_table`. -/
def rvBuildObjectTable : Code :=
  block [work, loop (block [work, call .findObjectByPath, maybe (call .findObjectByPath),
    maybe (block [acts [.httpHeader, .perform], work, call .buildObjectTable])]), work]

/-- The functions, and what each resets at its end. -/
def code : Routine → Procedure Setting Routine
  | .findObjectByPath => ⟨rvFindObjectByPath, []⟩
  | .attrCreate => ⟨block [work, maybe (call .findObjectByPath), putRequest], [.upload false]⟩
  | .attrOpen =>
      ⟨block [work, maybe (block [maybe (call .findObjectByPath), maybe getRequest]), getRequest],
        []⟩
  | .attrRead => ⟨getRequest, []⟩
  | .attrWrite => ⟨putRequest, [.upload false]⟩
  | .attrGet op => ⟨rvAttrGet op, []⟩
  | .attrSpecific op => ⟨rvAttrSpecific op, [.customRequest none]⟩
  | .datasetCreate => ⟨block [work, call .setupDatasetCreateRequestBody, postRequest], []⟩
  | .datasetRead serverNodeNum urlsByMyself count =>
      ⟨rvDatasetRead serverNodeNum urlsByMyself count, []⟩
  | .datasetGet op => ⟨rvDatasetGet op, []⟩
  | .datasetSpecific op => ⟨rvDatasetSpecific op, [.upload false]⟩
  | .setupDatasetCreateRequestBody => ⟨block [work, maybe (call .findObjectByPath), work], []⟩
  | .datatypeCommit => ⟨block [work, maybe (call .findObjectByPath), postRequest], []⟩
  | .fileCreate => ⟨rvFileCreate, [.customRequest none, .upload false]⟩
  | .fileOpen => ⟨getRequest, []⟩
  | .fileSpecific op => ⟨rvFileSpecific op, [.customRequest none]⟩
  | .groupCreate => ⟨rvGroupCreate, []⟩
  | .groupGet op => ⟨rvGroupGet op, []⟩
  | .datasetOpen | .datatypeOpen | .groupOpen => ⟨block [work, call .findObjectByPath, work], []⟩
  | .linkCreate op => ⟨rvLinkCreate op, [.upload false]⟩
  | .linkGet op => ⟨rvLinkGet op, []⟩
  | .linkSpecific op => ⟨rvLinkSpecific op, [.customRequest none]⟩
  | .getLinkNameByIdxCallback | .linkIterCallback =>
      ⟨block [work, call .buildLinkTable, work], []⟩
  | .buildLinkTable => ⟨rvBuildLinkTable, []⟩
  | .objectOpen => ⟨block [work, call .findObjectByPath, openFound], []⟩
  | .objectGet op => ⟨rvObjectGet op, []⟩
  | .objectSpecific op => ⟨rvObjectSpecific op, []⟩
  | .objectIterCallback => ⟨block [work, call .buildObjectTable, work], []⟩
  | .buildObjectTable => ⟨rvBuildObjectTable, []⟩
  | .linkCopy | .linkMove | .objectCopy => ⟨leave, []⟩
  | .attrClose | .datasetWrite | .datasetClose | .datatypeGet | .datatypeClose | .fileGet
  | .fileClose | .groupClose => ⟨work, []⟩

/-! ## Runs -/

/-- An operation and what it did to the connection up to the exit it took. -/
structure Step where
  routine : Routine
  trace : List Setting

/-- The operation can end so. -/
def Step.IsExit (s : Step) : Prop :=
  s.routine.IsOperation ∧ ∃ left, Ends code (call s.routine) left s.trace

/-- The connection after some operations. -/
def State.after (s : State) (run : List Step) : State :=
  run.foldl (fun s step => step.trace.foldl State.set s) s

/-- Every operation of the run, and the one that comes next, starts with the connection as it was
at first. -/
def LeavesAsFound (url : List Char) (run : List Step) : Prop :=
  ∀ before, before <+: run → (State.initial url).after before = State.initial url

/-! ## What settings do -/

section Settings

variable {a : Setting} {t : List Setting}

theorem foldl_set (t : List Setting) (s : State) :
    (t.foldl State.set s).handle = t.foldl Handle.set s.handle := by
  induction t generalizing s with
  | nil => rfl
  | cons a t ih => exact ih (s.set a)

/-- The settings of `base_URL`, in their order. -/
def rewritten (t : List Setting) : List (Option (List Char)) :=
  t.filterMap fun
    | .baseUrl url => some url
    | _ => none

theorem foldl_baseUrl (t : List Setting) (s : State) :
    (t.foldl State.set s).baseUrl = (rewritten t).getLast?.getD s.baseUrl := by
  induction t generalizing s with
  | nil => rfl
  | cons a t ih =>
    rw [List.foldl_cons, ih]
    cases a <;> simp [rewritten, State.set, List.getLast?_cons]

/-- A header list is never taken off the handle. -/
theorem headerList_foldl {h : Handle} (hset : h.headerList = true) :
    (t.foldl Handle.set h).headerList = true := by
  induction t generalizing h with
  | nil => exact hset
  | cons a t ih => exact ih (by cases a <;> simp [Handle.set, hset])

theorem headerList_of_mem {h : Handle} (hmem : Setting.httpHeader ∈ t) :
    (t.foldl Handle.set h).headerList = true := by
  obtain ⟨before, after, rfl⟩ := List.append_of_mem hmem
  rw [List.foldl_append, List.foldl_cons]
  exact headerList_foldl rfl

/-- The setting hands a header list to the handle. -/
def marked (a : Setting) : Bool := a = .httpHeader

/-- The setting leaves a new handle as it is. -/
def idle (a : Setting) : Bool := Handle.default.set a = .default

theorem foldl_idle (h : ∀ a ∈ t, idle a = true) :
    t.foldl Handle.set .default = .default := by
  induction t with
  | nil => rfl
  | cons a t ih =>
    rw [List.foldl_cons, of_decide_eq_true (h a List.mem_cons_self)]
    exact ih fun b hb => h b (List.mem_cons_of_mem a hb)

end Settings

/-! ## The header list comes first -/

theorem guarded_readTransfers (several : Prop) [Decidable several]
    (url : Nat → Option (List Char)) (is : List Nat) :
    ((block (work :: is.map fun i =>
      if several then block [act (.baseUrl (url i)), work] else work) : Code).guarded
        marked idle) = some false := by
  induction is with
  | nil => rfl
  | cons i is ih =>
    by_cases h : several <;>
      simpa [block, guarded, work, marked, idle, Handle.set, h] using ih

/-- Whatever changes the handle comes after the header list. -/
theorem code_guarded (f : Routine) : (code f).Guarded marked idle := by
  have hdone : ∀ a ∈ (code f).done, marked a = false → idle a = true := by
    cases f <;> simp [code, idle, Handle.set, Handle.default]
  refine ⟨?_, hdone⟩
  cases f with
  | datasetRead serverNodeNum urlsByMyself count =>
    simp only [code, rvDatasetRead]
    split
    · rfl
    · exact Option.isSome_iff_exists.mpr ⟨false, guarded_readTransfers _ _ _⟩
  | attrGet op | attrSpecific op | datasetGet op | datasetSpecific op | fileSpecific op
  | groupGet op | linkCreate op | linkGet op | linkSpecific op | objectGet op
  | objectSpecific op => cases op <;> rfl
  | _ => rfl

/-! ## What is left behind -/

/-- The operation hands no header list to the handle, which is to say that it makes no request on
it, and `base_URL` comes to be what it was. -/
def Step.Quiet (url : List Char) (s : Step) : Prop :=
  Setting.httpHeader ∉ s.trace ∧ ∀ last ∈ (rewritten s.trace).getLast?, last = some url

theorem Step.IsExit.handle_eq {s : Step} (h : s.IsExit) (hquiet : Setting.httpHeader ∉ s.trace) :
    s.trace.foldl Handle.set .default = .default := by
  obtain ⟨_, left, hends⟩ := h
  refine foldl_idle (hends.free_of_guarded code_guarded (fun a ha => ?_) rfl).1
  exact decide_eq_false fun heq => hquiet (heq ▸ ha)

/-- One operation. -/
theorem Step.IsExit.initial_iff {s : Step} (h : s.IsExit) (url : List Char) :
    s.trace.foldl State.set (.initial url) = .initial url ↔ s.Quiet url := by
  constructor
  · intro hsame
    constructor
    · intro hmem
      have hlist : (s.trace.foldl State.set (.initial url)).handle.headerList = true := by
        rw [foldl_set]
        exact headerList_of_mem hmem
      rw [hsame] at hlist
      exact Bool.false_ne_true hlist
    · intro last hlast
      have hbase := foldl_baseUrl s.trace (.initial url)
      rw [hsame, Option.mem_def.mp hlast] at hbase
      exact hbase.symm
  · rintro ⟨hheader, hbase⟩
    have hhandle : (s.trace.foldl State.set (.initial url)).handle = .default := by
      rw [foldl_set]
      exact h.handle_eq hheader
    have hurl : (s.trace.foldl State.set (.initial url)).baseUrl = some url := by
      rw [foldl_baseUrl]
      cases hlast : (rewritten s.trace).getLast? with
      | none => rfl
      | some last => exact hbase last hlast
    calc s.trace.foldl State.set (.initial url)
        = ⟨(s.trace.foldl State.set (.initial url)).handle,
            (s.trace.foldl State.set (.initial url)).baseUrl⟩ := rfl
      _ = State.initial url := by rw [hhandle, hurl]; rfl

theorem State.after_append (s : State) (before after : List Step) :
    s.after (before ++ after) = (s.after before).after after := List.foldl_append

theorem after_quiet {url : List Char} {run : List Step} (hrun : ∀ s ∈ run, s.IsExit)
    (hquiet : ∀ s ∈ run, s.Quiet url) : (State.initial url).after run = .initial url := by
  induction run with
  | nil => rfl
  | cons s run ih =>
    rw [State.after, List.foldl_cons,
      ((hrun s List.mem_cons_self).initial_iff url).mpr (hquiet s List.mem_cons_self)]
    exact ih (fun r hr => hrun r (List.mem_cons_of_mem s hr))
      fun r hr => hquiet r (List.mem_cons_of_mem s hr)

/-- An H5Fflush that succeeds. -/
def flushStep : Step :=
  { routine := .fileSpecific .flush
    trace := [.httpHeader, .upload true, .perform, .customRequest none] }

theorem request_ends (settings : List Setting) :
    Ends code (request settings) false (.httpHeader :: settings ++ [.perform]) := by
  have h : Ends code (request settings) false
      ([] ++ ((.httpHeader :: settings ++ [.perform]) ++ ([] ++ []))) :=
    .seq .work (.seq (.acts _) (.seq .work .skip))
  simpa using h

theorem isExit_flushStep : flushStep.IsExit := by
  have h : Ends code (call (.fileSpecific .flush)) false
      ([.httpHeader, .upload true, .perform] ++ (code (.fileSpecific .flush)).done) :=
    .call (request_ends [.upload true])
  exact ⟨trivial, false, h⟩

section Keeping

variable {I : State → Prop} {kept : Setting → Bool} {good : Routine → Bool} {run : List Step}
  {url : List Char}

theorem after_keeps (hkept : ∀ a, kept a = true → ∀ s : State, I s → I (s.set a))
    (hcode : ∀ f, good f = true → (code f).Keeps State.set I kept good)
    (hrun : ∀ s ∈ run, s.IsExit) (hgood : ∀ s ∈ run, good s.routine = true) {s : State} (hs : I s) :
    I (s.after run) := by
  induction run generalizing s with
  | nil => exact hs
  | cons step run ih =>
    obtain ⟨_, left, hends⟩ := hrun step List.mem_cons_self
    exact ih (fun r hr => hrun r (List.mem_cons_of_mem step hr))
      (fun r hr => hgood r (List.mem_cons_of_mem step hr))
      (hends.keeps hkept hcode (hgood step List.mem_cons_self) s hs)

/-- A read does nothing but copy nodes into `base_URL`. -/
theorem rvDatasetRead_all (serverNodeNum : Int) (urlsByMyself : List (List Char)) (count : Nat)
    (h : serverNodeNum = 1 ∨ ∀ url, kept (.baseUrl url) = true) :
    (rvDatasetRead serverNodeNum urlsByMyself count).all kept good = true := by
  unfold rvDatasetRead
  split
  · rfl
  · rw [all_block, List.all_eq_true]
    intro p hp
    rcases List.mem_cons.mp hp with rfl | hp
    · rfl
    · obtain ⟨i, _, rfl⟩ := List.mem_map.mp hp
      split
      · rename_i hne
        exact Bool.and_eq_true_iff.mpr ⟨h.resolve_left hne _, rfl⟩
      · rfl

/-- The setting is no custom request. -/
def plain : Setting → Bool
  | .customRequest verb => verb.isNone
  | _ => true

theorem keeps_customRequest (f : Routine) :
    (code f).Keeps State.set (fun s => s.handle.customRequest = none) plain fun _ => true := by
  cases f with
  | attrSpecific | fileCreate | fileSpecific | linkSpecific => exact .inr fun _ => rfl
  | datasetRead serverNodeNum urlsByMyself count =>
    exact .inl ⟨rvDatasetRead_all _ _ _ (.inr fun _ => rfl), rfl⟩
  | attrGet op | datasetGet op | datasetSpecific op | groupGet op | linkCreate op | linkGet op
  | objectGet op | objectSpecific op => cases op <;> exact .inl ⟨rfl, rfl⟩
  | _ => exact .inl ⟨rfl, rfl⟩

/-- No operation leaves a custom request on the handle. -/
theorem customRequest_after (hrun : ∀ s ∈ run, s.IsExit) :
    ((State.initial url).after run).handle.customRequest = none := by
  refine after_keeps (fun a ha s hs => ?_) (fun f _ => keeps_customRequest f) hrun
    (fun _ _ => rfl) rfl
  cases a with
  | customRequest verb => exact Option.isNone_iff_eq_none.mp ha
  | _ => exact hs

theorem customRequest_after_flush :
    ((State.initial []).after [flushStep]).handle.customRequest = none :=
  customRequest_after (by simpa using isExit_flushStep)

/-- The function does not flush a file. -/
def flushless : Routine → Bool
  | .fileSpecific .flush | .datasetGet .storageSize => false
  | _ => true

/-- The setting turns no upload on. -/
def uploadless (a : Setting) : Bool := a ≠ .upload true

theorem keeps_method (f : Routine) (hf : flushless f = true) :
    (code f).Keeps State.set (fun s => s.handle.method ≠ .put) uploadless flushless := by
  cases f with
  | attrCreate | attrWrite | datasetSpecific | fileCreate | linkCreate =>
    exact .inr fun _ => by simp [code, State.set, Handle.set]
  | datasetRead serverNodeNum urlsByMyself count =>
    exact .inl ⟨rvDatasetRead_all _ _ _ (.inr fun _ => rfl), rfl⟩
  | attrGet op | attrSpecific op | groupGet op | linkGet op | linkSpecific op | objectGet op
  | objectSpecific op => cases op <;> exact .inl ⟨rfl, rfl⟩
  | datasetGet op | fileSpecific op =>
    cases op <;> first | exact .inl ⟨rfl, rfl⟩ | exact absurd hf (by decide)
  | _ => exact .inl ⟨rfl, rfl⟩

/-- Only a flush leaves the upload on. -/
theorem method_after (hrun : ∀ s ∈ run, s.IsExit)
    (hflush : ∀ s ∈ run, flushless s.routine = true) :
    ((State.initial url).after run).handle.method ≠ .put := by
  refine after_keeps (fun a ha s hs => ?_) keeps_method hrun hflush
    (by simp [State.initial, Handle.default])
  cases a with
  | upload on => cases on <;> simp_all [uploadless, State.set, Handle.set]
  | httpGet | post | postFields => simp [State.set, Handle.set]
  | _ => exact hs

/-- An H5Dset_extent that succeeds. -/
def extentStep : Step :=
  { routine := .datasetSpecific .setExtent
    trace := [.httpHeader, .upload true, .perform, .upload false] }

theorem isExit_extentStep : extentStep.IsExit := by
  have h : Ends code (call (.datasetSpecific .setExtent)) false
      ([.httpHeader, .upload true, .perform] ++ (code (.datasetSpecific .setExtent)).done) :=
    .call (request_ends [.upload true])
  exact ⟨trivial, false, h⟩

theorem method_after_extent :
    ((State.initial []).after [extentStep]).handle.method ≠ .put :=
  method_after (by simpa using isExit_extentStep) (by simp [extentStep, flushless])

/-- The function does not read from several servers. -/
def singleServer : Routine → Bool
  | .datasetRead serverNodeNum _ _ => serverNodeNum = 1
  | _ => true

/-- The setting leaves `base_URL` as it is. -/
def sameUrl : Setting → Bool
  | .baseUrl _ => false
  | _ => true

theorem keeps_baseUrl (f : Routine) (hf : singleServer f = true) :
    (code f).Keeps State.set (fun s => s.baseUrl = some url) sameUrl singleServer := by
  cases f with
  | datasetRead serverNodeNum urlsByMyself count =>
    exact .inl ⟨rvDatasetRead_all _ _ _ (.inl (of_decide_eq_true hf)), rfl⟩
  | attrGet op | attrSpecific op | datasetGet op | datasetSpecific op | fileSpecific op
  | groupGet op | linkCreate op | linkGet op | linkSpecific op | objectGet op
  | objectSpecific op => cases op <;> exact .inl ⟨rfl, rfl⟩
  | _ => exact .inl ⟨rfl, rfl⟩

/-- Only a read from several servers changes `base_URL`. -/
theorem baseUrl_after (hrun : ∀ s ∈ run, s.IsExit)
    (hread : ∀ s ∈ run, singleServer s.routine = true) :
    ((State.initial url).after run).baseUrl = some url := by
  refine after_keeps (fun a ha s hs => ?_) keeps_baseUrl hrun hread rfl
  cases a with
  | baseUrl => cases ha
  | _ => exact hs

theorem baseUrl_after_flush :
    ((State.initial []).after [flushStep]).baseUrl = some [] :=
  baseUrl_after (by simpa using isExit_flushStep) (by simp [flushStep, singleServer])

end Keeping

end XHDF5.Client.SharedHandle
