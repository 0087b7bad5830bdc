/-
# Housekeeping requests

A client that neither creates a file with `H5F_ACC_TRUNC` nor deletes it still sends requests for
the file: it opens, flushes and queries it, reads and writes its objects, or asks for an exclusive
creation. The plugin picks its handlers by the verb and the resource alone.
-/

import XHDF5.Exchange.Write
import XHDF5.Math.Run
import XHDF5.Plugin.Process

namespace XHDF5.Exchange

open XHDF5.Math XHDF5.Client XHDF5.Plugin

/-- The collections that the client asks for objects in. -/
inductive Collection
  | groups
  | datasets
  | datatypes
deriving DecidableEq

/-- The name of a collection in a URL. -/
def Collection.name : Collection → Text
  | .groups => lit "groups"
  | .datasets => lit "datasets"
  | .datatypes => lit "datatypes"

/-- The verbs that the client makes curl use. -/
inductive Verb
  | get
  | put
  | post
  | delete
deriving DecidableEq

def Verb.text : Verb → Text
  | .get => lit "GET"
  | .put => lit "PUT"
  | .post => lit "POST"
  | .delete => lit "DELETE"

/-- The version that the plugin reports for every file. -/
def pluginVersion : ServerApiVersion := ⟨0, 8, 4⟩

/-- The client's operations on a file, without a creation that truncates and without its deletion.
The last one stands for all requests that name an object: its verb, its collection, the segments
behind it, and the query. -/
inductive ClientOp
  | createExclusive
  | openFile
  | flush (isFile : Bool)
  | objectFlush
  | storageSize (uri : Text)
  | findObject (query : Text)
  | object (verb : Verb) (collection : Collection) (segments : List Text) (query : Text)

/-- The path of an object's URL. -/
def objectPath (collection : Collection) (segments : List Text) : Text :=
  '/' :: (collection.name ++ segments.flatMap fun segment => '/' :: segment)

/-- The request that an operation sends first, if it sends any: `RV_file_create`, `RV_file_open`,
`RV_file_specific`, `RV_dataset_get` and so on. Flushes of other objects are not supported, and
the storage size is only asked for where the server has it. -/
def ClientOp.request (s : Endpoint) : ClientOp → Option (Verb × Text)
  | .createExclusive => some (.put, s.url)
  | .openFile => some (.get, s.url)
  | .flush isFile => if isFile then some (.put, s.url ++ lit "/?flush=1&rescan=1") else none
  | .objectFlush => none
  | .storageSize _ =>
      if serverVersionMatchesOrExceeds pluginVersion 0 8 5 then
        some (.put, s.url ++ lit "/?flush=1&rescan=1")
      else none
  | .findObject query => some (.get, s.url ++ lit "/?h5path=" ++ query)
  | .object verb collection segments query =>
      some (verb, s.url ++ objectPath collection segments ++ query)

/-- The path that the server gets; a URL without one asks for the root. -/
def targetOf (s : Endpoint) (url : Text) : Text :=
  if resourceOf s url = [] then lit "/" else resourceOf s url

/-- An operation with the body of its request and what the request meets at the server. -/
structure FileEvent where
  op : ClientOp
  body : Body
  around : Surroundings

/-- The answer to the operation's request. -/
def FileEvent.reply (s : Endpoint) (stored : Stored) (event : FileEvent) : Option Reply :=
  (event.op.request s).bind fun request =>
    processReq event.around stored
      ⟨request.1.text, targetOf s request.2, queryOf request.2, event.body⟩

/-- The file after an operation. Without a request, or when the handler is left without an answer,
nothing was written. -/
def fileStep (s : Endpoint) (stored : Stored) (event : FileEvent) : Option Stored :=
  some (((event.reply s stored).map Reply.stored).getD stored)

/-- Every dataset of an HDF5 file is still there with its extent and its type's size. -/
def Survives (before after : Stored) : Prop :=
  ∀ file, before = .hdf5 file → ∃ file', after = .hdf5 file' ∧
    ∀ path stored, file.dataset path = some stored →
      ∃ stored', file'.dataset path = some stored' ∧ stored'.dims = stored.dims ∧
        stored'.size = stored.size

/-- The operation keeps an HDF5 file; an exclusive creation of one is refused and changes
nothing. -/
def KeepsFile (s : Endpoint) (stored : Stored) (event : FileEvent) : Prop :=
  ∀ reply, event.reply s stored = some reply →
    Survives stored reply.stored ∧
      (event.op = .createExclusive → stored.isHdf5File = true →
        400 ≤ reply.status ∧ reply.stored = stored)

/-- The file exists for no exclusive creation, and no flush of it comes through. -/
def SparesFile (stored : Stored) (event : FileEvent) : Prop :=
  stored.isHdf5File = true →
    event.op ≠ .createExclusive ∧ (event.op = .flush true → event.around.granted = false)

/-! ## What the client asks for -/

theorem resourceOf_append (s : Endpoint) (rest : Text) :
    resourceOf s (s.url ++ rest) = rest.takeWhile (· ≠ '?') := by
  have hclean : ∀ c ∈ s.url, decide (c ≠ '?') = true := fun c hc =>
    decide_eq_true fun heq => s.no_query (heq ▸ hc)
  rw [resourceOf, List.takeWhile_append_of_pos hclean, List.drop_left]

/-- The name of a collection is not empty and has no `?`. -/
theorem Collection.name_spec (collection : Collection) :
    ∃ c rest, collection.name = c :: rest ∧ c ≠ '?' := by
  cases collection with
  | groups => exact ⟨'g', lit "roups", by unfold Collection.name lit; rfl, by decide⟩
  | datasets => exact ⟨'d', lit "atasets", by unfold Collection.name lit; rfl, by decide⟩
  | datatypes => exact ⟨'d', lit "atatypes", by unfold Collection.name lit; rfl, by decide⟩

/-- A request for an object is not for the root. -/
theorem targetOf_object (s : Endpoint) (collection : Collection) (segments : List Text)
    (query : Text) :
    targetOf s (s.url ++ objectPath collection segments ++ query) ≠ lit "/" := by
  obtain ⟨c, rest, hname, hc⟩ := collection.name_spec
  have hslash : lit "/" = ['/'] := by
    unfold lit
    rfl
  have hresource : resourceOf s (s.url ++ objectPath collection segments ++ query) =
      '/' :: c :: (rest ++ (segments.flatMap fun segment => '/' :: segment) ++ query).takeWhile
        (· ≠ '?') := by
    rw [List.append_assoc, resourceOf_append, objectPath, hname]
    simp [hc]
  rw [targetOf, hresource, if_neg (List.cons_ne_nil _ _), hslash]
  simp

/-- The file-level handlers that change a file run for the root only. -/
theorem root_of_routeOf {stored : Stored} {req : Request}
    (h : routeOf stored req = .createFile ∨ routeOf stored req = .deleteFile) :
    req.resource = lit "/" := by
  have hcomes := comesTo_routeOf stored req
  rcases h with h | h <;> rw [h] at hcomes <;> exact hcomes.2

/-! ## The handlers -/

theorem Survives.refl (stored : Stored) : Survives stored stored :=
  fun file h => ⟨file, h, fun _ stored hstored => ⟨stored, hstored, rfl, rfl⟩⟩

/-- A write of a value keeps every dataset's extent and size. -/
theorem survives_writeValue (granted : Bool) (h5path : Text) (buffer : Memory UInt8)
    (stored : Stored) : Survives stored (writeValue granted h5path buffer stored).stored := by
  rintro file rfl
  refine ⟨_, rfl, fun path dataset hdataset => ?_⟩
  cases granted with
  | false => exact ⟨dataset, hdataset, rfl, rfl⟩
  | true =>
      change ∃ stored', (xrdWriteToDataset file h5path buffer).1.dataset path = some stored' ∧ _
      by_cases hpath : path = components h5path
      · rw [hpath] at hdataset ⊢
        exact ⟨_, (xrdWriteToDataset_same hdataset).1, rfl, rfl⟩
      · rw [xrdWriteToDataset_other path hpath]
        exact ⟨dataset, hdataset, rfl, rfl⟩

/-- A creation of a dataset leaves the others. -/
theorem survives_createDataset {granted : Bool} {text : Text} {stored : Stored} {reply : Reply}
    (h : createDataset granted text stored = some reply) : Survives stored reply.stored := by
  obtain ⟨result, -, rfl⟩ := Option.map_eq_some_iff.mp h
  rintro file rfl
  cases result with
  | none => exact Survives.refl _ file rfl
  | some new => exact ⟨_, rfl, fun path dataset hdataset =>
      ⟨dataset, h5dcreate_dataset hdataset, rfl, rfl⟩⟩

/-- Only the handlers that create and delete a file end what it holds. -/
theorem survives_of_routeOf {around : Surroundings} {stored : Stored} {req : Request}
    {reply : Reply} (hcreate : routeOf stored req ≠ .createFile)
    (hdelete : routeOf stored req ≠ .deleteFile)
    (h : processReq around stored req = some reply) : Survives stored reply.stored := by
  rw [processReq] at h
  cases hroute : routeOf stored req <;> rw [hroute] at h
  case createFile => exact absurd hroute hcreate
  case deleteFile => exact absurd hroute hdelete
  case writeValue =>
    obtain ⟨buffer, -, rfl⟩ := Option.map_eq_some_iff.mp h
    exact survives_writeValue _ _ _ _
  case createDataset =>
    obtain ⟨buffer, -, hreply⟩ := Option.bind_eq_some_iff.mp h
    exact survives_createDataset hreply
  all_goals
    obtain rfl := Option.some.inj h
    exact Survives.refl _

/-! ## Runs -/

/-- A request that is not a PUT or DELETE of the root keeps the file. -/
theorem survives_of_request {around : Surroundings} {stored : Stored} {req : Request}
    {reply : Reply} (h : req.verb = lit "GET" ∨ req.resource ≠ lit "/")
    (hreply : processReq around stored req = some reply) : Survives stored reply.stored := by
  have hcomes := comesTo_routeOf stored req
  refine survives_of_routeOf (fun hroute => ?_) (fun hroute => ?_) hreply <;>
    rw [hroute] at hcomes
  · rcases h with hget | hroot
    · exact verbs_ne.2.2.1 (hcomes.1.symm.trans hget)
    · exact hroot hcomes.2
  · rcases h with hget | hroot
    · exact verbs_ne.2.2.2.2.1 (hcomes.1.symm.trans hget)
    · exact hroot hcomes.2

/-- A PUT that is not granted leaves an HDF5 file as it is. -/
theorem stored_of_not_granted {around : Surroundings} {file : H5File} {req : Request}
    {reply : Reply} (hverb : req.verb = lit "PUT") (hgranted : around.granted = false)
    (hreply : processReq around (.hdf5 file) req = some reply) : reply.stored = .hdf5 file := by
  have hcomes := comesTo_routeOf (.hdf5 file) req
  obtain ⟨-, hpost, hget, -⟩ := verbs_ne
  rw [processReq] at hreply
  cases hroute : routeOf (.hdf5 file) req <;> rw [hroute] at hreply hcomes
  case createFile =>
    obtain ⟨_, -, rfl⟩ := Option.map_eq_some_iff.mp hreply
    rw [hgranted]
    rfl
  case writeValue =>
    obtain ⟨buffer, -, rfl⟩ := Option.map_eq_some_iff.mp hreply
    rw [hgranted]
    rfl
  case deleteFile => exact absurd (hverb.symm.trans hcomes.1) verbs_ne.1
  case createDataset => exact absurd (hverb.symm.trans hcomes.1) hpost
  all_goals
    obtain rfl := Option.some.inj hreply
    rfl

/-- One operation under the condition. -/
theorem keepsFile_of_sparesFile {s : Endpoint} {stored : Stored} {event : FileEvent}
    (h : SparesFile stored event) : KeepsFile s stored event := by
  intro reply hreply
  cases hstored : stored with
  | absent => exact ⟨fun file hfile => (by cases hfile), fun _ hhdf5 => (by cases hhdf5)⟩
  | other => exact ⟨fun file hfile => (by cases hfile), fun _ hhdf5 => (by cases hhdf5)⟩
  | hdf5 file =>
      rw [← hstored]
      obtain ⟨hcreate, hflush⟩ := h (by rw [hstored]; rfl)
      refine ⟨?_, fun hop => absurd hop hcreate⟩
      obtain ⟨request, hrequest, hreply⟩ := Option.bind_eq_some_iff.mp hreply
      cases hop : event.op <;> rw [hop] at hrequest
      case createExclusive => exact absurd hop hcreate
      case openFile =>
        obtain rfl := Option.some.inj hrequest
        exact survives_of_request (Or.inl rfl) hreply
      case flush isFile =>
        cases isFile with
        | false => cases hrequest
        | true =>
            obtain rfl := Option.some.inj hrequest
            rw [hstored] at hreply ⊢
            rw [stored_of_not_granted rfl (hflush hop) hreply]
            exact Survives.refl _
      case objectFlush => cases hrequest
      case storageSize => cases hrequest
      case findObject query =>
        obtain rfl := Option.some.inj hrequest
        exact survives_of_request (Or.inl rfl) hreply
      case object verb collection segments query =>
        obtain rfl := Option.some.inj hrequest
        exact survives_of_request (Or.inr (targetOf_object s _ _ _)) hreply

end XHDF5.Exchange
