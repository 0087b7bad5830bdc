/-
# Requests for files without write intent

Each function checks on its own that a file was opened for writing. What is modelled of a function is
the order of its checks and its requests, on the one cURL handle that all of them set up; the requests of
a search are given as the files that are asked. An answer says whether the next part of the code that can
fail does so. The calls of a callback are calls of their own.
-/

import XHDF5.Client.Objects
import XHDF5.Math.Effect

namespace XHDF5.Client.Requests

open XHDF5.Math

/-! ## Requests -/

inductive HttpMethod
  | get
  | put
  | post
  | delete
deriving DecidableEq

/-- What a request is about: a collection of objects, the values of a dataset, or anything else. -/
inductive RequestTarget
  | collection
  | value
  | entity
deriving DecidableEq

/-- A request with its `Host`, the file. -/
structure HttpRequest where
  domain : Addr
  method : HttpMethod
  target : RequestTarget
deriving DecidableEq

/-- The request deletes, puts, or creates an object. -/
def HttpRequest.Modifies (r : HttpRequest) : Prop :=
  match r.method with
  | .get => False
  | .post => r.target = .collection
  | .put | .delete => True

instance (r : HttpRequest) : Decidable r.Modifies := by
  unfold HttpRequest.Modifies
  split <;> infer_instance

/-- The handle: its method, its custom request, what was sent, and whether what comes next succeeds. -/
structure CurlState where
  method : HttpMethod
  custom : Option HttpMethod
  sent : List HttpRequest
  answers : List Bool

/-- A part of the connector. -/
abbrev Code := Effect CurlState Unit

/-- What can fail between two requests. -/
def verify : Code := fun s =>
  (if s.answers.headD true then some ⟨⟩ else none, { s with answers := s.answers.tail })

/-- `CURLOPT_HTTPGET`, `CURLOPT_POST` or `CURLOPT_UPLOAD`; without `CURLOPT_UPLOAD` the method is
GET again. -/
def setMethod (method : HttpMethod) : Code := Effect.update fun s => { s with method }

/-- `CURLOPT_CUSTOMREQUEST`. -/
def customRequest (custom : Option HttpMethod) : CurlState → CurlState := fun s => { s with custom }

/-- `CURL_PERFORM` on a copy of the handle with a method of its own. -/
def performOnCopy (method : HttpMethod) (domain : Addr) (target : RequestTarget) : Code := fun s =>
  verify { s with sent := s.sent ++ [⟨domain, s.custom.getD method, target⟩] }

/-- `CURL_PERFORM`. -/
def perform (domain : Addr) (target : RequestTarget) : Code := fun s =>
  performOnCopy s.method domain target s

/-- A GET request. -/
def getFrom (domain : Addr) : Code := do
  verify
  setMethod .get
  perform domain .entity

/-- A PUT request, with `CURLOPT_UPLOAD` set only for it. -/
def putTo (domain : Addr) (target : RequestTarget) : Code :=
  Effect.ensuring (do
    verify
    setMethod .put
    perform domain target) fun s => { s with method := .get }

/-- A POST request that creates an object. -/
def postTo (domain : Addr) : Code := do
  verify
  setMethod .post
  perform domain .collection
  verify

/-- A DELETE request behind what prepares it; the custom request is reset in any case. -/
def deleteFrom (domain : Addr) (prepare : Code) : Code :=
  Effect.ensuring (do
    prepare
    Effect.update (customRequest (some .delete))
    perform domain .entity) (customRequest none)

/-- `RV_find_object_by_path`. -/
def rvFindObjectByPath (asks : List Addr) : Code := do
  Effect.each getFrom asks
  verify

/-- The object that a call is about: the given one, or one that is searched. -/
inductive Location
  | self
  | byName (asks : List Addr)
  | byIdx (asks : List Addr)

section Functions

variable (writable : Addr → Bool)

/-- `intent & H5F_ACC_RDWR`. -/
def writeIntent (domain : Addr) : Code := Effect.guard (writable domain)

/-! ## Groups and datatypes -/

/-- The group that a new group is put into: the given one, one that is found, or one that is not
there and is created first. -/
inductive ParentGroup
  | here
  | found (asks : List Addr)
  | created (asks : List Addr) (parent : ParentGroup) (again : List Addr)

/-- `RV_group_create`. -/
def rvGroupCreate (domain : Addr) : ParentGroup → Code
  | .here => do
      verify
      writeIntent writable domain
      postTo domain
  | .found asks => do
      verify
      writeIntent writable domain
      verify
      rvFindObjectByPath asks
      postTo domain
  | .created asks parent again => do
      verify
      writeIntent writable domain
      verify
      Effect.ignore (rvFindObjectByPath asks)
      rvGroupCreate domain parent
      Effect.ignore (rvFindObjectByPath again)
      postTo domain

/-- `RV_group_open`. -/
def rvGroupOpen (asks : List Addr) : Code := do
  verify
  rvFindObjectByPath asks
  verify

/-- `RV_group_get` for the information about a group. -/
def rvGroupGetInfo (domain : Addr) : Location → Code
  | .self => getFrom domain
  | .byName asks => do
      rvFindObjectByPath asks
      getFrom domain
  | .byIdx _ => Effect.fail

/-- `RV_datatype_commit`. -/
def rvDatatypeCommit (domain : Addr) (asks : List Addr) : Code := do
  verify
  writeIntent writable domain
  verify
  rvFindObjectByPath asks
  postTo domain

/-- `RV_datatype_open`. -/
def rvDatatypeOpen : List Addr → Code := rvGroupOpen

/-! ## Links -/

/-- `RV_link_create`; a hard link may need a search for its target. -/
def rvLinkCreate (domain : Addr) (asks : List Addr) : Code :=
  Effect.ensuring (do
    verify
    writeIntent writable domain
    rvFindObjectByPath asks
    putTo domain .entity) fun s => { s with method := .get }

/-- `RV_link_copy` and `RV_link_move`. -/
def rvLinkCopy : Code := Effect.fail

/-- `RV_link_get`: the group of the link is searched. -/
def rvLinkGet (domain : Addr) : Location → Code
  | .self => Effect.fail
  | .byName asks | .byIdx asks => do
      rvFindObjectByPath asks
      getFrom domain

/-- What comes before the request in `H5VL_LINK_DELETE`. -/
def linkDeletePath (asks : List Addr) : Code := do
  verify
  rvFindObjectByPath asks
  verify

/-- `RV_link_specific` for `H5VL_LINK_DELETE`: a link is deleted by its name only. -/
def rvLinkDelete (domain : Addr) : Location → Code
  | .byName asks => deleteFrom domain (linkDeletePath asks)
  | .self | .byIdx _ => Effect.ensuring Effect.fail (customRequest none)

/-- `RV_link_specific` for `H5VL_LINK_EXISTS`. -/
def rvLinkExists (domain : Addr) (asks : List Addr) : Code :=
  Effect.ensuring (do
    verify
    rvFindObjectByPath asks
    getFrom domain) (customRequest none)

/-- The next request of a table of links or objects: a search, or the links of a subgroup with the
method that the handle has. -/
inductive TableRequest
  | search (asks : List Addr)
  | subgroup (domain : Addr)

/-- `RV_build_link_table` and `RV_build_object_table`. -/
def rvBuildTable : List TableRequest → Code :=
  Effect.each fun request => match request with
    | .search asks => rvFindObjectByPath asks
    | .subgroup domain => do
        verify
        perform domain .entity

/-- `RV_link_specific` for `H5VL_LINK_ITER`. -/
def rvLinkIterate (domain : Addr) (asks : List Addr) (table : List TableRequest) : Code :=
  Effect.ensuring (do
    rvGroupOpen asks
    getFrom domain
    rvBuildTable table) (customRequest none)

/-! ## Datasets -/

/-- `RV_dataset_create`; the search is that of the body. -/
def rvDatasetCreate (domain : Addr) (asks : List Addr) : Code := do
  verify
  writeIntent writable domain
  verify
  rvFindObjectByPath asks
  postTo domain

/-- `RV_dataset_open`. -/
def rvDatasetOpen : List Addr → Code := rvGroupOpen

/-- A dataset that is read, by posting a list of points or not. -/
structure ReadEntry where
  domain : Addr
  points : Bool

/-- `RV_dataset_read`: the transfers are sent in some order, some of them again. -/
def rvDatasetRead (entries : List ReadEntry) (order : List Nat) : Code := do
  Effect.each (fun _ => verify) entries
  Effect.each (fun entry : ReadEntry =>
    performOnCopy (if entry.points then .post else .get) entry.domain .value)
    (order.filterMap fun i => entries[i]?)

/-- `RV_dataset_write`: the intents are checked before a transfer is set up. -/
def rvDatasetWrite (domains : List Addr) (order : List Nat) : Code := do
  Effect.each (fun domain => do
    verify
    writeIntent writable domain
    verify) domains
  Effect.each (fun _ => verify) domains
  Effect.each (fun domain => performOnCopy .put domain .value)
    (order.filterMap fun i => domains[i]?)

/-- `RV_file_specific` for `H5VL_FILE_FLUSH`. -/
def rvFileFlush (domain : Addr) : Code :=
  Effect.ensuring (do
    verify
    setMethod .put
    perform domain .entity
    verify) (customRequest none)

/-- `RV_dataset_get` for `H5VL_DATASET_GET_STORAGE_SIZE`, with whether the version of the server has
it. -/
def rvDatasetGetStorageSize (domain : Addr) (supported : Bool) : Code := do
  Effect.guard supported
  rvFileFlush domain
  getFrom domain
  verify

/-- `RV_dataset_specific` for `H5VL_DATASET_SET_EXTENT`. -/
def rvDatasetSetExtent (domain : Addr) : Code :=
  Effect.ensuring (do
    writeIntent writable domain
    putTo domain .entity
    verify) fun s => { s with method := .get }

/-! ## Attributes -/

/-- The search of a function for the object of an attribute, when only a name leads to one. -/
def searchNamed : Location → Code
  | .byName asks => rvFindObjectByPath asks
  | .self | .byIdx _ => pure ⟨⟩

/-- `RV_attr_create`. -/
def rvAttrCreate (domain : Addr) (location : Location) : Code :=
  Effect.ensuring (do
    verify
    writeIntent writable domain
    verify
    searchNamed location
    putTo domain .entity) fun s => { s with method := .get }

/-- `RV_attr_open`. -/
def rvAttrOpen (domain : Addr) : Location → Code
  | .self => getFrom domain
  | .byName asks => do
      rvFindObjectByPath asks
      getFrom domain
  | .byIdx asks => do
      rvFindObjectByPath asks
      getFrom domain
      getFrom domain

/-- `RV_attr_read`. -/
def rvAttrRead (domain : Addr) : Code := getFrom domain

/-- `RV_attr_write`. -/
def rvAttrWrite (domain : Addr) : Code :=
  Effect.ensuring (do
    verify
    writeIntent writable domain
    putTo domain .entity) fun s => { s with method := .get }

/-- `RV_attr_get` for the information about an attribute. -/
def rvAttrGetInfo : Addr → Location → Code := rvAttrOpen

/-- `RV_attr_get` for the name of an attribute. -/
def rvAttrGetName (domain : Addr) : Location → Code
  | .self => verify
  | .byName _ => Effect.fail
  | .byIdx asks => do
      rvFindObjectByPath asks
      getFrom domain

/-- What comes before the request in `H5VL_ATTR_DELETE_BY_IDX`. -/
def attrDeletePath (domain : Addr) (asks again : List Addr) : Code := do
  verify
  rvAttrGetName domain (.byIdx asks)
  rvFindObjectByPath again
  verify

/-- `RV_attr_specific` for `H5VL_ATTR_DELETE_BY_IDX`. -/
def rvAttrDeleteByIdx (domain : Addr) (asks again : List Addr) : Code :=
  deleteFrom domain (attrDeletePath domain asks again)

/-- The search for the object in `H5VL_ATTR_DELETE`, which refuses an index. -/
def deleteSearch : Location → Code
  | .self => pure ⟨⟩
  | .byName asks => rvFindObjectByPath asks
  | .byIdx _ => Effect.fail

/-- `RV_attr_specific` for `H5VL_ATTR_DELETE`. -/
def rvAttrDelete (domain : Addr) (location : Location) : Code :=
  deleteFrom domain do
    writeIntent writable domain
    deleteSearch location
    verify

/-- `RV_attr_specific` for `H5VL_ATTR_EXISTS`. -/
def rvAttrExists (domain : Addr) (asks : List Addr) : Code := rvLinkExists domain asks

/-- `RV_attr_specific` for `H5VL_ATTR_ITER`: an object that is named is searched and opened. -/
def rvAttrIterate (domain : Addr) (asks opens : List Addr) : Code :=
  Effect.ensuring (do
    rvFindObjectByPath asks
    rvFindObjectByPath opens
    getFrom domain) (customRequest none)

/-- `RV_attr_specific` for `H5VL_ATTR_RENAME`: a copy with the new name is made in the file of the object,
and the attribute is deleted. -/
def rvAttrRename (domain parent : Addr) (asks opens : List Addr) : Code :=
  deleteFrom domain do
    rvFindObjectByPath asks
    rvGroupOpen opens
    rvAttrOpen parent .self
    rvAttrCreate writable parent .self
    verify
    rvAttrRead parent
    rvAttrWrite writable parent
    verify

/-! ## Objects -/

/-- `RV_object_open`: a search for the type, and the open function of the type. -/
def rvObjectOpen (asks opens : List Addr) : Code := do
  rvFindObjectByPath asks
  rvGroupOpen opens

/-- `RV_object_get` for the information about an object. -/
def rvObjectGetInfo (domain : Addr) : Location → Code
  | .self => getFrom domain
  | .byName asks => do
      rvFindObjectByPath asks
      getFrom domain
  | .byIdx asks => do
      rvFindObjectByPath asks
      getFrom domain
      rvFindObjectByPath asks
      getFrom domain

/-- `RV_object_specific` for `H5VL_OBJECT_VISIT`, before the callback for the object itself and after
it. -/
def rvObjectVisit (domain : Addr) (asks opens : List Addr) : Code := do
  rvObjectOpen asks opens
  getFrom domain

def rvObjectVisitTable (domain : Addr) (table : List TableRequest) : Code := do
  getFrom domain
  rvBuildTable table

end Functions

/-! ## Operations -/

/-- A call of the library on a file or an object in it. -/
inductive Operation
  | groupCreate (domain : Addr) (parent : ParentGroup)
  | groupOpen (asks : List Addr)
  | groupGetInfo (domain : Addr) (location : Location)
  | datatypeCommit (domain : Addr) (asks : List Addr)
  | datatypeOpen (asks : List Addr)
  | linkCreate (domain : Addr) (asks : List Addr)
  | linkCopy
  | linkMove
  | linkGet (domain : Addr) (location : Location)
  | linkDelete (domain : Addr) (location : Location)
  | linkExists (domain : Addr) (asks : List Addr)
  | linkIterate (domain : Addr) (asks : List Addr) (table : List TableRequest)
  | datasetCreate (domain : Addr) (asks : List Addr)
  | datasetOpen (asks : List Addr)
  | datasetRead (entries : List ReadEntry) (order : List Nat)
  | datasetWrite (domains : List Addr) (order : List Nat)
  | datasetGetStorageSize (domain : Addr) (supported : Bool)
  | datasetSetExtent (domain : Addr)
  | attrCreate (domain : Addr) (location : Location)
  | attrOpen (domain : Addr) (location : Location)
  | attrRead (domain : Addr)
  | attrWrite (domain : Addr)
  | attrGetInfo (domain : Addr) (location : Location)
  | attrGetName (domain : Addr) (location : Location)
  | attrDelete (domain : Addr) (location : Location)
  | attrDeleteByIdx (domain : Addr) (asks again : List Addr)
  | attrExists (domain : Addr) (asks : List Addr)
  | attrIterate (domain : Addr) (asks opens : List Addr)
  | attrRename (domain parent : Addr) (asks opens : List Addr)
  | objectOpen (asks opens : List Addr)
  | objectGetInfo (domain : Addr) (location : Location)
  | objectVisit (domain : Addr) (asks opens : List Addr)
  | objectVisitTable (domain : Addr) (table : List TableRequest)
  | fileFlush (domain : Addr)
  | fileReopen (domain : Addr)
  /-- What the connector answers without a request, or refuses. -/
  | local (succeeds : Bool)

/-- The file that is changed when the operation succeeds. -/
def Operation.Changes (domain : Addr) : Operation → Prop
  | .groupCreate d _ | .datatypeCommit d _ | .linkCreate d _ | .linkDelete d _ | .datasetCreate d _
  | .datasetSetExtent d | .attrCreate d _ | .attrWrite d | .attrDelete d _ | .attrDeleteByIdx d _ _
  | .attrRename d _ _ _ => d = domain
  | .datasetWrite domains _ => domain ∈ domains
  | _ => False

section Runs

variable (writable : Addr → Bool)

/-- The function of the operation. -/
def Operation.code : Operation → Code
  | .groupCreate domain parent => rvGroupCreate writable domain parent
  | .groupOpen asks => rvGroupOpen asks
  | .groupGetInfo domain location => rvGroupGetInfo domain location
  | .datatypeCommit domain asks => rvDatatypeCommit writable domain asks
  | .datatypeOpen asks => rvDatatypeOpen asks
  | .linkCreate domain asks => rvLinkCreate writable domain asks
  | .linkCopy | .linkMove => rvLinkCopy
  | .linkGet domain location => rvLinkGet domain location
  | .linkDelete domain location => rvLinkDelete domain location
  | .linkExists domain asks => rvLinkExists domain asks
  | .linkIterate domain asks table => rvLinkIterate domain asks table
  | .datasetCreate domain asks => rvDatasetCreate writable domain asks
  | .datasetOpen asks => rvDatasetOpen asks
  | .datasetRead entries order => rvDatasetRead entries order
  | .datasetWrite domains order => rvDatasetWrite writable domains order
  | .datasetGetStorageSize domain supported => rvDatasetGetStorageSize domain supported
  | .datasetSetExtent domain => rvDatasetSetExtent writable domain
  | .attrCreate domain location => rvAttrCreate writable domain location
  | .attrOpen domain location => rvAttrOpen domain location
  | .attrRead domain => rvAttrRead domain
  | .attrWrite domain => rvAttrWrite writable domain
  | .attrGetInfo domain location => rvAttrGetInfo domain location
  | .attrGetName domain location => rvAttrGetName domain location
  | .attrDelete domain location => rvAttrDelete writable domain location
  | .attrDeleteByIdx domain asks again => rvAttrDeleteByIdx domain asks again
  | .attrExists domain asks => rvAttrExists domain asks
  | .attrIterate domain asks opens => rvAttrIterate domain asks opens
  | .attrRename domain parent asks opens => rvAttrRename writable domain parent asks opens
  | .objectOpen asks opens => rvObjectOpen asks opens
  | .objectGetInfo domain location => rvObjectGetInfo domain location
  | .objectVisit domain asks opens => rvObjectVisit domain asks opens
  | .objectVisitTable domain table => rvObjectVisitTable domain table
  | .fileFlush domain => rvFileFlush domain
  | .fileReopen domain => getFrom domain
  | .local succeeds => Effect.guard succeeds

/-- One call. -/
def intentStep (s : CurlState) (op : Operation) : Option CurlState := some (op.code writable s).2

/-- No request of the call changes a file that was opened for reading, and it fails when it would
change one. -/
def SparesReadOnly (s : CurlState) (op : Operation) : Prop :=
  (∃ new, (op.code writable s).2.sent = s.sent ++ new ∧
    ∀ r ∈ new, r.Modifies → writable r.domain = true) ∧
  ∀ domain, op.Changes domain → writable domain = false → (op.code writable s).1 = none

/-- The object that an attribute is renamed in was opened with the intent of the file that it was
found from. -/
def SameIntent (_ : CurlState) : Operation → Prop
  | .attrRename domain parent _ _ => writable parent = writable domain
  | _ => True

/-- A call without a check for a file that was opened for reading, where nothing fails before the
request. -/
def Unchecked (s : CurlState) : Operation → Prop
  | .linkDelete domain (.byName asks) =>
      writable domain = false ∧ (linkDeletePath asks s).1.isSome
  | .attrDeleteByIdx domain asks again =>
      writable domain = false ∧ (attrDeletePath domain asks again s).1.isSome
  | .fileFlush domain => writable domain = false ∧ (verify s).1.isSome
  | .datasetGetStorageSize domain supported =>
      writable domain = false ∧ supported = true ∧ (verify s).1.isSome
  | _ => False

end Runs

/-! ## What the parts send -/

section Spares

variable (writable : Addr → Bool)

/-- The custom request stays reset, and what is sent changes only files with write intent. -/
def Spares (s s' : CurlState) : Prop :=
  s.custom = none → s'.custom = none ∧ ∃ new, s'.sent = s.sent ++ new ∧
    ∀ r ∈ new, r.Modifies → writable r.domain = true

instance : IsPreorder CurlState (Spares writable) where
  refl s hs := ⟨hs, [], (List.append_nil _).symm, nofun⟩
  trans s t u hst htu hs := by
    obtain ⟨ht, first, hfirst, hsparesFirst⟩ := hst hs
    obtain ⟨hu, second, hsecond, hsparesSecond⟩ := htu ht
    refine ⟨hu, first ++ second, by rw [hsecond, hfirst, List.append_assoc], fun r hr => ?_⟩
    rcases List.mem_append.mp hr with hr | hr
    · exact hsparesFirst r hr
    · exact hsparesSecond r hr

variable {writable}

theorem spares_verify : (verify).Moves (Spares writable) :=
  fun _ hs => ⟨hs, [], (List.append_nil _).symm, nofun⟩

theorem spares_setMethod (method : HttpMethod) : (setMethod method).Moves (Spares writable) :=
  fun _ hs => ⟨hs, [], (List.append_nil _).symm, nofun⟩

theorem spares_method (method : HttpMethod) (s : CurlState) :
    Spares writable s { s with method := method } :=
  fun hs => ⟨hs, [], (List.append_nil _).symm, nofun⟩

theorem spares_customRequest (s : CurlState) : Spares writable s (customRequest none s) :=
  fun _ => ⟨rfl, [], (List.append_nil _).symm, nofun⟩

/-- A request is spared when it is none that changes a file, or the file has write intent. -/
theorem spares_performOnCopy {method : HttpMethod} {domain : Addr} {target : RequestTarget}
    (h : (HttpRequest.mk domain method target).Modifies → writable domain = true) :
    (performOnCopy method domain target).Moves (Spares writable) := by
  intro s hs
  refine ⟨hs, [⟨domain, method, target⟩], ?_, fun r hr => ?_⟩
  · simp [performOnCopy, verify, hs]
  · rw [List.mem_singleton.mp hr]
    exact h

theorem spares_get {domain : Addr} {target : RequestTarget} :
    (performOnCopy .get domain target).Moves (Spares writable) := spares_performOnCopy False.elim

/-- The method that is set is the one of the next request. -/
theorem setMethod_perform (method : HttpMethod) (domain : Addr) (target : RequestTarget) :
    (do setMethod method; perform domain target) =
      (do setMethod method; performOnCopy method domain target) := rfl

theorem spares_getFrom (domain : Addr) : (getFrom domain).Moves (Spares writable) := by
  rw [getFrom, setMethod_perform]
  exact Effect.moves_bind spares_verify fun _ =>
    Effect.moves_bind (spares_setMethod _) fun _ => spares_get

theorem spares_putTo {domain : Addr} (h : writable domain = true) (target : RequestTarget) :
    (putTo domain target).Moves (Spares writable) := by
  rw [putTo, setMethod_perform]
  refine Effect.moves_ensuring ?_ (spares_method _)
  exact Effect.moves_bind spares_verify fun _ =>
    Effect.moves_bind (spares_setMethod _) fun _ => spares_performOnCopy fun _ => h

theorem spares_postTo {domain : Addr} (h : writable domain = true) :
    (postTo domain).Moves (Spares writable) := by
  have hpost : (do setMethod .post; perform domain .collection; verify : Code) =
      (do setMethod .post; performOnCopy .post domain .collection; verify) := rfl
  rw [postTo, hpost]
  exact Effect.moves_bind spares_verify fun _ => Effect.moves_bind (spares_setMethod _) fun _ =>
    Effect.moves_bind (spares_performOnCopy fun _ => h) fun _ => spares_verify

theorem spares_rvFindObjectByPath (asks : List Addr) :
    (rvFindObjectByPath asks).Moves (Spares writable) :=
  Effect.moves_bind (Effect.moves_each fun domain _ => spares_getFrom domain) fun _ => spares_verify

/-! ### Deletions -/

theorem deleteFrom_of_none {prepare : Code} {s : CurlState} (h : (prepare s).1 = none) (domain : Addr) :
    deleteFrom domain prepare s = (none, customRequest none (prepare s).2) := by
  rw [deleteFrom, Effect.ensuring, Effect.bind_of_none h]

/-- Behind what prepares it, the request is sent. -/
theorem deleteFrom_of_some {prepare : Code} {s : CurlState} (h : (prepare s).1.isSome) (domain : Addr) :
    (deleteFrom domain prepare s).2.sent =
      (prepare s).2.sent ++ [⟨domain, .delete, .entity⟩] ∧
        (deleteFrom domain prepare s).2.custom = none := by
  obtain ⟨value, hvalue⟩ := Option.isSome_iff_exists.mp h
  rw [deleteFrom, Effect.ensuring, Effect.bind_of_some hvalue]
  exact ⟨rfl, rfl⟩

theorem spares_deleteFrom {prepare : Code} {domain : Addr} (hprepare : prepare.Moves (Spares writable))
    (h : writable domain = true ∨ prepare.Fails) :
    (deleteFrom domain prepare).Moves (Spares writable) := by
  intro s hs
  obtain ⟨hcustom, new, hsent, hspares⟩ := hprepare s hs
  by_cases hvalue : (prepare s).1.isSome
  · obtain ⟨hdelete, hreset⟩ := deleteFrom_of_some hvalue domain
    refine ⟨hreset, new ++ [⟨domain, .delete, .entity⟩], ?_, fun r hr => ?_⟩
    · rw [hdelete, hsent, List.append_assoc]
    · rcases List.mem_append.mp hr with hr | hr
      · exact hspares r hr
      · rw [List.mem_singleton.mp hr]
        rcases h with h | h
        · exact fun _ => h
        · rw [h s] at hvalue
          cases hvalue
  · rw [deleteFrom_of_none (Option.not_isSome_iff_eq_none.mp hvalue)]
    exact ⟨rfl, new, hsent, hspares⟩

/-! ### Searches and other GET requests -/

theorem spares_rvGroupOpen (asks : List Addr) : (rvGroupOpen asks).Moves (Spares writable) :=
  Effect.moves_bind spares_verify fun _ =>
    Effect.moves_bind (spares_rvFindObjectByPath asks) fun _ => spares_verify

theorem spares_find_getFrom (asks : List Addr) (domain : Addr) :
    (do rvFindObjectByPath asks; getFrom domain : Code).Moves (Spares writable) :=
  Effect.moves_bind (spares_rvFindObjectByPath asks) fun _ => spares_getFrom domain

theorem spares_rvGroupGetInfo (domain : Addr) (location : Location) :
    (rvGroupGetInfo domain location).Moves (Spares writable) := by
  cases location with
  | self => exact spares_getFrom domain
  | byName asks => exact spares_find_getFrom asks domain
  | byIdx asks => exact Effect.moves_fail

theorem spares_rvLinkGet (domain : Addr) (location : Location) :
    (rvLinkGet domain location).Moves (Spares writable) := by
  cases location with
  | self => exact Effect.moves_fail
  | byName asks | byIdx asks => exact spares_find_getFrom asks domain

theorem spares_rvLinkExists (domain : Addr) (asks : List Addr) :
    (rvLinkExists domain asks).Moves (Spares writable) :=
  Effect.moves_ensuring
    (Effect.moves_bind spares_verify fun _ => spares_find_getFrom asks domain) spares_customRequest

/-- A GET request leaves its method, unless it is not made. -/
theorem method_getFrom (domain : Addr) (s : CurlState) :
    (getFrom domain s).2.method = .get ∨
      (getFrom domain s).1 = none ∧ (getFrom domain s).2.method = s.method := by
  cases hvalue : (verify s).1 with
  | none =>
      rw [getFrom, Effect.bind_of_none hvalue]
      exact .inr ⟨rfl, rfl⟩
  | some value =>
      rw [getFrom, Effect.bind_of_some hvalue]
      exact .inl rfl

/-- After a GET request, the requests of a table are GET requests. -/
theorem spares_rvBuildTable (table : List TableRequest) :
    ∀ s : CurlState, s.method = .get →
      Spares writable s (rvBuildTable table s).2 ∧ (rvBuildTable table s).2.method = .get := by
  -- a relation that also keeps the method
  let R : CurlState → CurlState → Prop := fun s s' =>
    s.method = .get → Spares writable s s' ∧ s'.method = .get
  have : IsPreorder CurlState R :=
    { refl s hs := ⟨refl_of _ s, hs⟩
      trans s t u hst htu hs := by
        obtain ⟨hspares, ht⟩ := hst hs
        exact ⟨trans_of _ hspares (htu ht).1, (htu ht).2⟩ }
  have hget (domain : Addr) : (getFrom domain).Moves R := by
    intro s hs
    refine ⟨spares_getFrom domain s, ?_⟩
    rcases method_getFrom domain s with hmethod | ⟨-, hmethod⟩
    · exact hmethod
    · exact hmethod.trans hs
  have hverify : (verify).Moves R := fun s hs => ⟨spares_verify s, hs⟩
  have hperform (domain : Addr) : (perform domain .entity).Moves R := by
    intro s hs
    rw [perform, hs]
    exact ⟨spares_get s, hs⟩
  have htable : (rvBuildTable table).Moves R := by
    refine Effect.moves_each fun request _ => ?_
    cases request with
    | search asks =>
        exact Effect.moves_bind (Effect.moves_each fun domain _ => hget domain) fun _ => hverify
    | subgroup domain => exact Effect.moves_bind hverify fun _ => hperform domain
  exact htable

theorem spares_getFrom_table (domain : Addr) (table : List TableRequest) :
    (do getFrom domain; rvBuildTable table : Code).Moves (Spares writable) := by
  intro s
  cases hvalue : (getFrom domain s).1 with
  | none => rw [Effect.bind_of_none hvalue]; exact spares_getFrom domain s
  | some value =>
      have hmethod : (getFrom domain s).2.method = .get := by
        rcases method_getFrom domain s with hmethod | ⟨hnone, -⟩
        · exact hmethod
        · rw [hvalue] at hnone
          cases hnone
      rw [Effect.bind_of_some hvalue]
      exact trans_of _ (spares_getFrom domain s) (spares_rvBuildTable table _ hmethod).1

theorem spares_rvLinkIterate (domain : Addr) (asks : List Addr) (table : List TableRequest) :
    (rvLinkIterate domain asks table).Moves (Spares writable) :=
  Effect.moves_ensuring
    (Effect.moves_bind (spares_rvGroupOpen asks) fun _ => spares_getFrom_table domain table)
    spares_customRequest

theorem spares_rvDatasetRead (entries : List ReadEntry) (order : List Nat) :
    (rvDatasetRead entries order).Moves (Spares writable) := by
  refine Effect.moves_bind (Effect.moves_each fun _ _ => spares_verify) fun _ =>
    Effect.moves_each fun entry _ => spares_performOnCopy fun h => ?_
  -- the points of a read are posted, but not to a collection
  cases hpoints : entry.points with
  | false => rw [hpoints] at h; exact h.elim
  | true => rw [hpoints] at h; cases h

theorem spares_rvAttrOpen (domain : Addr) (location : Location) :
    (rvAttrOpen domain location).Moves (Spares writable) := by
  cases location with
  | self => exact spares_getFrom domain
  | byName asks => exact spares_find_getFrom asks domain
  | byIdx asks =>
      exact Effect.moves_bind (spares_rvFindObjectByPath asks) fun _ =>
        Effect.moves_bind (spares_getFrom domain) fun _ => spares_getFrom domain

theorem spares_rvAttrGetName (domain : Addr) (location : Location) :
    (rvAttrGetName domain location).Moves (Spares writable) := by
  cases location with
  | self => exact spares_verify
  | byName asks => exact Effect.moves_fail
  | byIdx asks => exact spares_find_getFrom asks domain

theorem spares_rvAttrIterate (domain : Addr) (asks opens : List Addr) :
    (rvAttrIterate domain asks opens).Moves (Spares writable) :=
  Effect.moves_ensuring
    (Effect.moves_bind (spares_rvFindObjectByPath asks) fun _ => spares_find_getFrom opens domain)
    spares_customRequest

theorem spares_rvObjectOpen (asks opens : List Addr) :
    (rvObjectOpen asks opens).Moves (Spares writable) :=
  Effect.moves_bind (spares_rvFindObjectByPath asks) fun _ => spares_rvGroupOpen opens

theorem spares_rvObjectGetInfo (domain : Addr) (location : Location) :
    (rvObjectGetInfo domain location).Moves (Spares writable) := by
  cases location with
  | self => exact spares_getFrom domain
  | byName asks => exact spares_find_getFrom asks domain
  | byIdx asks =>
      exact Effect.moves_bind (spares_rvFindObjectByPath asks) fun _ =>
        Effect.moves_bind (spares_getFrom domain) fun _ => spares_find_getFrom asks domain

/-! ### Functions that check the intent -/

theorem spares_checked {domain : Addr} {rest : Code}
    (hrest : writable domain = true → rest.Moves (Spares writable)) :
    (do verify; writeIntent writable domain; rest : Code).Moves (Spares writable) :=
  Effect.moves_bind spares_verify fun _ => Effect.moves_guard_bind hrest

theorem fails_checked {domain : Addr} (h : writable domain = false) (rest : Code) :
    (do verify; writeIntent writable domain; rest : Code).Fails :=
  Effect.fails_bind_right fun _ => Effect.fails_bind (Effect.fails_guard h)

theorem spares_verify_find_post (asks : List Addr) {domain : Addr} (h : writable domain = true) :
    (do verify; rvFindObjectByPath asks; postTo domain : Code).Moves (Spares writable) :=
  Effect.moves_bind spares_verify fun _ =>
    Effect.moves_bind (spares_rvFindObjectByPath asks) fun _ => spares_postTo h

theorem spares_rvGroupCreate (domain : Addr) (parent : ParentGroup) :
    (rvGroupCreate writable domain parent).Moves (Spares writable) := by
  induction parent with
  | here => exact spares_checked spares_postTo
  | found asks => exact spares_checked (spares_verify_find_post asks)
  | created asks parent again ih =>
      refine spares_checked fun h => Effect.moves_bind spares_verify fun _ => ?_
      exact Effect.moves_bind (Effect.moves_ignore (spares_rvFindObjectByPath asks)) fun _ =>
        Effect.moves_bind ih fun _ =>
          Effect.moves_bind (Effect.moves_ignore (spares_rvFindObjectByPath again)) fun _ =>
            spares_postTo h

theorem fails_rvGroupCreate {domain : Addr} (h : writable domain = false) (parent : ParentGroup) :
    (rvGroupCreate writable domain parent).Fails := by
  cases parent <;> exact fails_checked h _

theorem spares_rvLinkCreate (domain : Addr) (asks : List Addr) :
    (rvLinkCreate writable domain asks).Moves (Spares writable) := by
  refine Effect.moves_ensuring (spares_checked fun h => ?_) (spares_method _)
  exact Effect.moves_bind (spares_rvFindObjectByPath asks) fun _ => spares_putTo h _

theorem spares_rvDatasetWrite (domains : List Addr) (order : List Nat) :
    (rvDatasetWrite writable domains order).Moves (Spares writable) := by
  by_cases hall : ∀ domain ∈ domains, writable domain = true
  · refine Effect.moves_bind (Effect.moves_each fun _ _ => spares_checked fun _ => spares_verify)
      fun _ => Effect.moves_bind (Effect.moves_each fun _ _ => spares_verify) fun _ =>
        Effect.moves_each fun domain hdomain => spares_performOnCopy fun _ => hall domain ?_
    obtain ⟨i, -, hi⟩ := List.mem_filterMap.mp hdomain
    exact List.mem_of_getElem? hi
  · push Not at hall
    obtain ⟨domain, hdomain, hread⟩ := hall
    have hfails := Effect.fails_each (f := fun domain => do
      verify
      writeIntent writable domain
      verify) hdomain (fails_checked (by simpa using hread) _)
    intro s
    rw [rvDatasetWrite, Effect.bind_of_none (hfails s)]
    exact Effect.moves_each (fun _ _ => spares_checked fun _ => spares_verify) s

theorem fails_rvDatasetWrite {domains : List Addr} {domain : Addr} (hdomain : domain ∈ domains)
    (h : writable domain = false) (order : List Nat) : (rvDatasetWrite writable domains order).Fails :=
  Effect.fails_bind (Effect.fails_each hdomain (fails_checked h _))

theorem spares_rvDatasetSetExtent (domain : Addr) :
    (rvDatasetSetExtent writable domain).Moves (Spares writable) := by
  refine Effect.moves_ensuring (Effect.moves_guard_bind fun h => ?_) (spares_method _)
  exact Effect.moves_bind (spares_putTo h _) fun _ => spares_verify

theorem spares_rvAttrCreate (domain : Addr) (location : Location) :
    (rvAttrCreate writable domain location).Moves (Spares writable) := by
  refine Effect.moves_ensuring (spares_checked fun h => ?_) (spares_method _)
  refine Effect.moves_bind spares_verify fun _ => Effect.moves_bind ?_ fun _ => spares_putTo h _
  cases location with
  | self | byIdx asks => exact Effect.moves_pure _
  | byName asks => exact spares_rvFindObjectByPath asks

theorem fails_rvAttrCreate {domain : Addr} (h : writable domain = false) (location : Location) :
    (rvAttrCreate writable domain location).Fails := Effect.fails_ensuring (fails_checked h _) _

theorem spares_rvAttrWrite (domain : Addr) :
    (rvAttrWrite writable domain).Moves (Spares writable) :=
  Effect.moves_ensuring (spares_checked fun h => spares_putTo h _) (spares_method _)

theorem spares_rvAttrDelete (domain : Addr) (location : Location) :
    (rvAttrDelete writable domain location).Moves (Spares writable) := by
  refine spares_deleteFrom ?_ ?_
  · refine Effect.moves_guard_bind fun _ => Effect.moves_bind ?_ fun _ => spares_verify
    cases location with
    | self => exact Effect.moves_pure _
    | byName asks => exact spares_rvFindObjectByPath asks
    | byIdx asks => exact Effect.moves_fail
  · cases h : writable domain with
    | true => exact .inl rfl
    | false => exact .inr (Effect.fails_bind (Effect.fails_guard h))

theorem spares_rvAttrRename {domain parent : Addr} (hsame : writable parent = writable domain)
    (asks opens : List Addr) : (rvAttrRename writable domain parent asks opens).Moves (Spares writable) := by
  refine spares_deleteFrom ?_ ?_
  · exact Effect.moves_bind (spares_rvFindObjectByPath asks) fun _ =>
      Effect.moves_bind (spares_rvGroupOpen opens) fun _ =>
        Effect.moves_bind (spares_rvAttrOpen parent .self) fun _ =>
          Effect.moves_bind (spares_rvAttrCreate parent .self) fun _ =>
            Effect.moves_bind spares_verify fun _ =>
              Effect.moves_bind (spares_getFrom parent) fun _ =>
                Effect.moves_bind (spares_rvAttrWrite parent) fun _ => spares_verify
  · cases h : writable domain with
    | true => exact .inl rfl
    | false =>
        -- the copy cannot be created
        refine .inr (Effect.fails_bind_right fun _ => Effect.fails_bind_right fun _ =>
          Effect.fails_bind_right fun _ => Effect.fails_bind ?_)
        exact fails_rvAttrCreate (hsame.trans h) .self

theorem fails_deleteFrom {prepare : Code} (h : prepare.Fails) (domain : Addr) :
    (deleteFrom domain prepare).Fails := Effect.fails_ensuring (Effect.fails_bind h) _

/-! ### Flushes -/

theorem rvFileFlush_of_none {s : CurlState} (h : (verify s).1 = none) (domain : Addr) :
    rvFileFlush domain s = (none, customRequest none (verify s).2) := by
  rw [rvFileFlush, Effect.ensuring, Effect.bind_of_none h]

/-- A flush sends its request whatever the intent is. -/
theorem rvFileFlush_of_some {s : CurlState} (hs : s.custom = none) (h : (verify s).1.isSome)
    (domain : Addr) : (rvFileFlush domain s).2.sent = s.sent ++ [⟨domain, .put, .entity⟩] ∧
      (rvFileFlush domain s).2.custom = none := by
  obtain ⟨value, hvalue⟩ := Option.isSome_iff_exists.mp h
  have hput (t : CurlState) : ((do setMethod .put; perform domain .entity; verify : Code) t).2.sent =
      t.sent ++ [⟨domain, t.custom.getD .put, .entity⟩] := by
    change ((perform domain .entity >>= fun _ => verify) { t with method := .put }).2.sent = _
    cases hperform : (perform domain .entity { t with method := .put }).1 with
    | none => rw [Effect.bind_of_none hperform]; rfl
    | some value => rw [Effect.bind_of_some hperform]; rfl
  have hcustom : (verify s).2.custom = none := hs
  refine ⟨?_, rfl⟩
  rw [rvFileFlush, Effect.ensuring, Effect.bind_of_some hvalue, customRequest, hput, hcustom]
  rfl

theorem spares_rvFileFlush {domain : Addr} (h : writable domain = true) :
    (rvFileFlush domain).Moves (Spares writable) := by
  intro s hs
  by_cases hvalue : (verify s).1.isSome
  · obtain ⟨hsent, hcustom⟩ := rvFileFlush_of_some hs hvalue domain
    refine ⟨hcustom, [⟨domain, .put, .entity⟩], hsent, fun r hr _ => ?_⟩
    rw [List.mem_singleton.mp hr]
    exact h
  · rw [rvFileFlush_of_none (Option.not_isSome_iff_eq_none.mp hvalue)]
    exact ⟨rfl, [], (List.append_nil _).symm, nofun⟩

end Spares

/-! ## Every operation -/

section Main

variable {writable : Addr → Bool}

theorem sparesReadOnly_of_moves {s : CurlState} {op : Operation} (hs : s.custom = none)
    (hmoves : (op.code writable).Moves (Spares writable))
    (hfails : ∀ domain, op.Changes domain → writable domain = false → (op.code writable).Fails) :
    SparesReadOnly writable s op :=
  ⟨(hmoves s hs).2, fun domain hchanges h => hfails domain hchanges h s⟩

theorem not_sparesReadOnly {s : CurlState} {op : Operation} {new : List HttpRequest} {r : HttpRequest}
    (hsent : (op.code writable s).2.sent = s.sent ++ new) (hr : r ∈ new) (hmodifies : r.Modifies)
    (h : writable r.domain = false) : ¬ SparesReadOnly writable s op := by
  rintro ⟨⟨other, hother, hspares⟩, -⟩
  obtain rfl : new = other := List.append_cancel_left (hsent.symm.trans hother)
  rw [hspares r hr hmodifies] at h
  cases h

/-- A deletion without a check goes wrong when it gets as far as its request. -/
theorem sparesReadOnly_deleteFrom_iff {s : CurlState} {op : Operation} {domain : Addr} {prepare : Code}
    (hcode : op.code writable = deleteFrom domain prepare) (hchanges : ∀ d, op.Changes d → domain = d)
    (hprepare : prepare.Moves (Spares writable)) (hs : s.custom = none) :
    SparesReadOnly writable s op ↔ ¬ (writable domain = false ∧ (prepare s).1.isSome) := by
  obtain ⟨-, new, hsent, hspares⟩ := hprepare s hs
  constructor
  · rintro hop ⟨h, hvalue⟩
    have hdelete : (op.code writable s).2.sent =
        s.sent ++ (new ++ [⟨domain, .delete, .entity⟩]) := by
      rw [hcode, (deleteFrom_of_some hvalue domain).1, hsent, List.append_assoc]
    exact not_sparesReadOnly hdelete (List.mem_append_right new List.mem_cons_self) trivial h hop
  · intro hnot
    cases h : writable domain with
    | true =>
        refine sparesReadOnly_of_moves hs (hcode ▸ spares_deleteFrom hprepare (.inl h)) ?_
        intro d hd hread
        rw [← hchanges d hd, h] at hread
        cases hread
    | false =>
        have hnone : (prepare s).1 = none :=
          Option.not_isSome_iff_eq_none.mp fun hvalue => hnot ⟨h, hvalue⟩
        refine ⟨⟨new, ?_, hspares⟩, fun _ _ _ => ?_⟩
        · rw [hcode, deleteFrom_of_none hnone]
          exact hsent
        · rw [hcode, deleteFrom_of_none hnone]

theorem sparesReadOnly_flush_iff {s : CurlState} (domain : Addr) (hs : s.custom = none) :
    SparesReadOnly writable s (.fileFlush domain) ↔
      ¬ (writable domain = false ∧ (verify s).1.isSome) := by
  constructor
  · rintro hop ⟨h, hvalue⟩
    have hsent : ((Operation.fileFlush domain).code writable s).2.sent =
        s.sent ++ [⟨domain, .put, .entity⟩] := (rvFileFlush_of_some hs hvalue domain).1
    exact not_sparesReadOnly hsent List.mem_cons_self trivial h hop
  · intro hnot
    refine ⟨?_, fun _ hchanges => hchanges.elim⟩
    by_cases hvalue : (verify s).1.isSome
    · have h : writable domain = true := by
        by_contra h
        exact hnot ⟨by simpa using h, hvalue⟩
      exact (spares_rvFileFlush h s hs).2
    · refine ⟨[], ?_, nofun⟩
      change (rvFileFlush domain s).2.sent = _
      rw [rvFileFlush_of_none (Option.not_isSome_iff_eq_none.mp hvalue)]
      exact (List.append_nil _).symm

theorem sparesReadOnly_storageSize_iff {s : CurlState} (domain : Addr) (supported : Bool)
    (hs : s.custom = none) : SparesReadOnly writable s (.datasetGetStorageSize domain supported) ↔
      ¬ (writable domain = false ∧ supported = true ∧ (verify s).1.isSome) := by
  have hrest : (do getFrom domain; verify : Code).Moves (Spares writable) :=
    Effect.moves_bind (spares_getFrom domain) fun _ => spares_verify
  constructor
  · rintro hop ⟨h, rfl, hvalue⟩
    obtain ⟨hsent, hcustom⟩ := rvFileFlush_of_some hs hvalue domain
    have hcode : (Operation.datasetGetStorageSize domain true).code writable s =
        (rvFileFlush domain >>= fun _ => do getFrom domain; verify) s := rfl
    cases hflush : (rvFileFlush domain s).1 with
    | none =>
        have hput : ((Operation.datasetGetStorageSize domain true).code writable s).2.sent =
            s.sent ++ [⟨domain, .put, .entity⟩] := by
          rw [hcode, Effect.bind_of_none hflush, hsent]
        exact not_sparesReadOnly hput List.mem_cons_self trivial h hop
    | some value =>
        obtain ⟨-, new, hnew, -⟩ := hrest _ hcustom
        have hput : ((Operation.datasetGetStorageSize domain true).code writable s).2.sent =
            s.sent ++ ⟨domain, .put, .entity⟩ :: new := by
          rw [hcode, Effect.bind_of_some hflush, hnew, hsent, List.append_assoc]
          rfl
        exact not_sparesReadOnly hput List.mem_cons_self trivial h hop
  · intro hnot
    refine ⟨?_, fun _ hchanges => hchanges.elim⟩
    cases supported with
    | false => exact ⟨[], (List.append_nil _).symm, nofun⟩
    | true =>
        by_cases hvalue : (verify s).1.isSome
        · have h : writable domain = true := by
            by_contra h
            exact hnot ⟨by simpa using h, rfl, hvalue⟩
          exact (Effect.moves_bind (spares_rvFileFlush h) (fun _ => hrest) s hs).2
        · have hflush := rvFileFlush_of_none (Option.not_isSome_iff_eq_none.mp hvalue) domain
          refine ⟨[], ?_, nofun⟩
          change ((rvFileFlush domain >>= fun _ => do getFrom domain; verify) s).2.sent = _
          rw [Effect.bind_of_none (by rw [hflush]), hflush]
          exact (List.append_nil _).symm

theorem spares_linkDeletePath (asks : List Addr) : (linkDeletePath asks).Moves (Spares writable) :=
  spares_rvGroupOpen asks

theorem spares_attrDeletePath (domain : Addr) (asks again : List Addr) :
    (attrDeletePath domain asks again).Moves (Spares writable) :=
  Effect.moves_bind spares_verify fun _ =>
    Effect.moves_bind (spares_rvAttrGetName domain (.byIdx asks)) fun _ =>
      Effect.moves_bind (spares_rvFindObjectByPath again) fun _ => spares_verify

/-- The operation is none of the four that do not check the intent. -/
def Operation.Checked : Operation → Prop
  | .linkDelete _ (.byName _) | .attrDeleteByIdx _ _ _ | .fileFlush _ | .datasetGetStorageSize _ _ => False
  | _ => True

theorem spares_code {s : CurlState} {op : Operation} (hsame : SameIntent writable s op)
    (hchecked : op.Checked) : (op.code writable).Moves (Spares writable) := by
  cases op with
  | groupCreate domain parent => exact spares_rvGroupCreate domain parent
  | groupOpen asks | datatypeOpen asks | datasetOpen asks => exact spares_rvGroupOpen asks
  | groupGetInfo domain location => exact spares_rvGroupGetInfo domain location
  | datatypeCommit domain asks | datasetCreate domain asks =>
      exact spares_checked (spares_verify_find_post asks)
  | linkCreate domain asks => exact spares_rvLinkCreate domain asks
  | linkCopy | linkMove => exact Effect.moves_fail
  | linkGet domain location => exact spares_rvLinkGet domain location
  | linkDelete domain location =>
      cases location with
      | byName asks => exact hchecked.elim
      | self | byIdx asks => exact Effect.moves_ensuring Effect.moves_fail spares_customRequest
  | linkExists domain asks | attrExists domain asks => exact spares_rvLinkExists domain asks
  | linkIterate domain asks table => exact spares_rvLinkIterate domain asks table
  | datasetRead entries order => exact spares_rvDatasetRead entries order
  | datasetWrite domains order => exact spares_rvDatasetWrite domains order
  | datasetSetExtent domain => exact spares_rvDatasetSetExtent domain
  | attrCreate domain location => exact spares_rvAttrCreate domain location
  | attrOpen domain location | attrGetInfo domain location => exact spares_rvAttrOpen domain location
  | attrRead domain | fileReopen domain => exact spares_getFrom domain
  | attrWrite domain => exact spares_rvAttrWrite domain
  | attrGetName domain location => exact spares_rvAttrGetName domain location
  | attrDelete domain location => exact spares_rvAttrDelete domain location
  | attrIterate domain asks opens => exact spares_rvAttrIterate domain asks opens
  | attrRename domain parent asks opens => exact spares_rvAttrRename hsame asks opens
  | objectOpen asks opens => exact spares_rvObjectOpen asks opens
  | objectGetInfo domain location => exact spares_rvObjectGetInfo domain location
  | objectVisit domain asks opens =>
      exact Effect.moves_bind (spares_rvObjectOpen asks opens) fun _ => spares_getFrom domain
  | objectVisitTable domain table => exact spares_getFrom_table domain table
  | datasetGetStorageSize domain supported => exact hchecked.elim
  | attrDeleteByIdx domain asks again => exact hchecked.elim
  | fileFlush domain => exact hchecked.elim
  | «local» succeeds =>
      cases succeeds with
      | false => exact Effect.moves_fail
      | true => exact Effect.moves_pure _

/-- A checked operation that would change a file without write intent fails. -/
theorem fails_code {s : CurlState} {op : Operation} (hsame : SameIntent writable s op)
    (hchecked : op.Checked) {domain : Addr} (hchanges : op.Changes domain)
    (h : writable domain = false) : (op.code writable).Fails := by
  cases op with
  | groupCreate d parent => exact fails_rvGroupCreate (hchanges ▸ h) parent
  | datatypeCommit d asks | datasetCreate d asks => exact fails_checked (hchanges ▸ h) _
  | linkCreate d asks => exact Effect.fails_ensuring (fails_checked (hchanges ▸ h) _) _
  | linkDelete d location =>
      cases location with
      | byName asks => exact hchecked.elim
      | self | byIdx asks => exact Effect.fails_ensuring Effect.fails_fail _
  | datasetWrite domains order => exact fails_rvDatasetWrite hchanges h order
  | datasetSetExtent d =>
      exact Effect.fails_ensuring (Effect.fails_bind (Effect.fails_guard (hchanges ▸ h))) _
  | attrCreate d location => exact fails_rvAttrCreate (hchanges ▸ h) location
  | attrWrite d => exact Effect.fails_ensuring (fails_checked (hchanges ▸ h) _) _
  | attrDelete d location =>
      exact fails_deleteFrom (Effect.fails_bind (Effect.fails_guard (hchanges ▸ h))) _
  | attrRename d parent asks opens =>
      have hparent : writable parent = false := by rw [hsame, hchanges, h]
      exact fails_deleteFrom (Effect.fails_bind_right fun _ => Effect.fails_bind_right fun _ =>
        Effect.fails_bind_right fun _ => Effect.fails_bind (fails_rvAttrCreate hparent .self)) _
  | attrDeleteByIdx d asks again => exact hchecked.elim
  | _ => exact hchanges.elim

/-- The custom request is reset at the end of every call. -/
theorem custom_code {s : CurlState} {op : Operation} (hs : s.custom = none)
    (hsame : SameIntent writable s op) : (op.code writable s).2.custom = none := by
  by_cases hchecked : op.Checked
  · exact (spares_code hsame hchecked s hs).1
  · cases op with
    | linkDelete domain location => cases location <;> rfl
    | attrDeleteByIdx domain asks again | fileFlush domain => rfl
    | datasetGetStorageSize domain supported =>
        -- with write intent for every file the call is spared
        have hall : (rvDatasetGetStorageSize domain supported).Moves (Spares fun _ => true) :=
          Effect.moves_guard_bind fun _ => Effect.moves_bind (spares_rvFileFlush rfl) fun _ =>
            Effect.moves_bind (spares_getFrom domain) fun _ => spares_verify
        exact (hall s hs).1
    | _ => exact absurd trivial hchecked

/-- A call spares the files that were opened for reading exactly when it is not an unchecked one. -/
theorem sparesReadOnly_iff {s : CurlState} {op : Operation} (hs : s.custom = none)
    (hsame : SameIntent writable s op) : SparesReadOnly writable s op ↔ ¬ Unchecked writable s op := by
  have hspares (hchecked : op.Checked) : SparesReadOnly writable s op :=
    sparesReadOnly_of_moves hs (spares_code hsame hchecked) fun _ hchanges h =>
      fails_code hsame hchecked hchanges h
  cases op with
  | linkDelete domain location =>
      cases location with
      | byName asks =>
          exact sparesReadOnly_deleteFrom_iff rfl (fun _ h => h) (spares_linkDeletePath asks) hs
      | self | byIdx asks => exact iff_of_true (hspares trivial) id
  | attrDeleteByIdx domain asks again =>
      exact sparesReadOnly_deleteFrom_iff rfl (fun _ h => h) (spares_attrDeletePath domain asks again) hs
  | fileFlush domain => exact sparesReadOnly_flush_iff domain hs
  | datasetGetStorageSize domain supported =>
      exact sparesReadOnly_storageSize_iff domain supported hs
  | _ => exact iff_of_true (hspares trivial) id

end Main

/-! ## A file that was opened for reading -/

/-- A handle that has sent nothing. -/
def freshCurl : CurlState where
  method := .get
  custom := none
  sent := []
  answers := []

end XHDF5.Client.Requests
