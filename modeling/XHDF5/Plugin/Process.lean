/-
# Requests at the plugin

`ProcessReq` runs the handler that its cascade selects and answers with a status. Whether the
operating system and the HDF5 library grant what a handler asks for is given with the request, and
so is the status of a read, whose two processes are modelled on their own.
-/

import XHDF5.Plugin.Create

namespace XHDF5.Plugin

open XHDF5.Math XHDF5.Client

/-- What is found at the path of a request: nothing, a file without the HDF5 signature, or an
HDF5 file. -/
inductive Stored
  | absent
  | other
  | hdf5 (file : H5File)

/-- `is_hdf5_file`. -/
def Stored.isHdf5File : Stored → Bool
  | .hdf5 _ => true
  | _ => false

/-- A request as `ProcessReq` gets it. -/
structure Request where
  verb : Text
  resource : Text
  query : Text
  body : Body

/-- What the request meets: whether the call that changes the file or looks it up succeeds, and
how a read is answered. -/
structure Surroundings where
  granted : Bool
  readStatus : Nat

/-- The handler that ran, the status of the answer, and the file afterwards. -/
structure Reply where
  handler : Route
  status : Nat
  stored : Stored

/-- A file after `H5Fcreate`. -/
def H5File.empty : H5File := ⟨fun _ => none, rfl⟩

/-- `PUT /`: `Xrd_create_file` always truncates, and looks only whether there is a file then. -/
def createFile (granted : Bool) (stored : Stored) : Reply :=
  if granted then ⟨.createFile, 201, .hdf5 .empty⟩
  else
    match stored with
    | .absent => ⟨.createFile, 400, .absent⟩
    | stored => ⟨.createFile, 201, stored⟩

/-- `DELETE /`. -/
def deleteFile (granted : Bool) (stored : Stored) : Reply :=
  if granted then ⟨.deleteFile, 200, .absent⟩ else ⟨.deleteFile, 400, stored⟩

/-- The body as the C string that `post_data` is. -/
def bodyText (len : Nat) (buffer : Memory UInt8) : Text :=
  ((buffer.read 0 (len + 1)).takeWhile (· ≠ 0)).map fun byte => Char.ofNat byte.toNat

/-- `PUT` of a value. A file that cannot be opened makes every call of the library fail, which
nothing checks. -/
def writeValue (granted : Bool) (h5path : Text) (buffer : Memory UInt8) (stored : Stored) : Reply :=
  match stored with
  | .hdf5 file =>
      ⟨.writeValue, 200,
        .hdf5 (if granted then (xrdWriteToDataset file h5path buffer).1 else file)⟩
  | stored => ⟨.writeValue, 200, stored⟩

/-- `POST /datasets`. -/
def createDataset (granted : Bool) (text : Text) (stored : Stored) : Option Reply :=
  (xrdCreateDataset text).map fun
    | none => ⟨.createDataset, 400, stored⟩
    | some new =>
        match stored with
        | .hdf5 file => ⟨.createDataset, 201, .hdf5 (h5dcreate granted file new)⟩
        | stored => ⟨.createDataset, 201, stored⟩

/-- The end of the cascade that a request comes to. -/
def routeOf (stored : Stored) (req : Request) : Route :=
  let (h5path, select) := parseQuery req.query
  route stored.isHdf5File req.verb req.resource h5path select

/-- `ProcessReq`; there is no result when `std::stoi` throws or a token is missing. -/
def processReq (around : Surroundings) (stored : Stored) (req : Request) : Option Reply :=
  match routeOf stored req with
  | .notHdf5 => some ⟨.notHdf5, 404, stored⟩
  | .createFile =>
      req.body.terminated.map fun _ => createFile around.granted stored
  | .writeValue =>
      req.body.terminated.map fun buffer =>
        writeValue around.granted (parseQuery req.query).1 buffer stored
  | .deleteFile => some (deleteFile around.granted stored)
  | .createDataset =>
      req.body.terminated.bind fun buffer =>
        createDataset around.granted (bodyText req.body.bytes.length buffer) stored
  | .rootInfo => some ⟨.rootInfo, if around.granted then 200 else 400, stored⟩
  | .datasetInfo => some ⟨.datasetInfo, around.readStatus, stored⟩
  | .readValue => some ⟨.readValue, around.readStatus, stored⟩
  | .readSelection => some ⟨.readSelection, around.readStatus, stored⟩
  | .parameterError => some ⟨.parameterError, 400, stored⟩

/-! ## Which requests the plugin serves -/

/-- `/datasets/<id>/value`. -/
def IsValue (resource : Text) : Prop :=
  ∃ id, id ≠ [] ∧ '/' ∉ id ∧ resource = lit "/datasets/" ++ (id ++ lit "/value")

/-- The combinations of a verb and a resource that have a handler. -/
def Served (verb resource : Text) : Prop :=
  (verb ∈ [lit "PUT", lit "GET"] ∧ IsValue resource) ∨
    (verb ∈ [lit "PUT", lit "GET", lit "DELETE"] ∧ resource = lit "/") ∨
      (verb = lit "POST" ∧ resource = lit "/datasets")

/-- Every handler runs only for its own resource, and what has no handler is refused without a
change. -/
structure RoutedSoundly (around : Surroundings) (stored : Stored) (req : Request) : Prop where
  write : routeOf stored req = .writeValue → req.verb = lit "PUT" ∧ IsValue req.resource
  read : routeOf stored req ∈ [.readValue, .readSelection] →
    req.verb = lit "GET" ∧ IsValue req.resource
  root : routeOf stored req ∈ [.createFile, .deleteFile, .rootInfo, .datasetInfo] →
    req.resource = lit "/"
  refused : ¬ Served req.verb req.resource →
    ∃ reply, processReq around stored req = some reply ∧ 400 ≤ reply.status ∧
      reply.stored = stored

/-- A PUT that the cascade takes for the write of a value. -/
def TakenForWrite (req : Request) : Prop :=
  req.verb = lit "PUT" ∧ req.resource ≠ lit "/" ∧ idOf req.resource ≠ [] ∧ ¬ IsValue req.resource

/-- A GET of an HDF5 file that the cascade takes for a read or a query. -/
def TakenForRead (stored : Stored) (req : Request) : Prop :=
  req.verb = lit "GET" ∧ stored.isHdf5File = true ∧ req.resource ≠ lit "/" ∧
    ¬ IsValue req.resource

/-! ## The cascade -/

/-- What is known of a request at each end of the cascade. -/
def ComesTo (stored : Stored) (req : Request) : Route → Prop
  | .createFile => req.verb = lit "PUT" ∧ req.resource = lit "/"
  | .writeValue => req.verb = lit "PUT" ∧ req.resource ≠ lit "/" ∧ idOf req.resource ≠ []
  | .deleteFile => req.verb = lit "DELETE" ∧ req.resource = lit "/"
  | .createDataset => req.verb = lit "POST" ∧ req.resource = lit "/datasets"
  | .rootInfo | .datasetInfo =>
      req.verb = lit "GET" ∧ stored.isHdf5File = true ∧ idOf req.resource = []
  | .readValue | .readSelection =>
      req.verb = lit "GET" ∧ stored.isHdf5File = true ∧ idOf req.resource ≠ []
  | .notHdf5 | .parameterError => True

theorem comesTo_routeOf (stored : Stored) (req : Request) :
    ComesTo stored req (routeOf stored req) := by
  rw [routeOf]
  simp only [route]
  have hhdf5 (hverb : req.verb = lit "GET")
      (h : ¬ (req.verb ≠ lit "PUT" ∧ (!stored.isHdf5File) = true)) : stored.isHdf5File = true := by
    by_contra hnot
    exact h ⟨by rw [hverb]; exact verbs_ne.2.2.1.symm, by simpa using hnot⟩
  split_ifs with hnot hcreate hwrite hdelete hpost hget hroot hinfo hvalue
  · trivial
  · exact hcreate
  · exact ⟨hwrite.1, fun hroot => hcreate ⟨hwrite.1, hroot⟩, hwrite.2⟩
  · exact hdelete
  · exact hpost
  · exact ⟨hget, hhdf5 hget hnot, hroot.2⟩
  · exact ⟨hget, hhdf5 hget hnot, hinfo⟩
  · exact ⟨hget, hhdf5 hget hnot, hinfo⟩
  · exact ⟨hget, hhdf5 hget hnot, hinfo⟩
  · trivial

/-- The root has no third part. -/
theorem idOf_root : idOf (lit "/") = [] := by
  unfold lit
  decide +kernel

theorem IsValue.idOf_ne_nil {resource : Text} (h : IsValue resource) : idOf resource ≠ [] := by
  obtain ⟨id, hne, hclean, rfl⟩ := h
  rw [idOf, partsOf_value hclean]
  exact hne

/-- A GET of an HDF5 file comes to a read or a query. -/
theorem routeOf_get {stored : Stored} {req : Request} (hverb : req.verb = lit "GET")
    (hhdf5 : stored.isHdf5File = true) :
    routeOf stored req ∈ [.readValue, .readSelection] ∨
      routeOf stored req ∈ [.createFile, .deleteFile, .rootInfo, .datasetInfo] := by
  obtain ⟨-, -, hput, -, hdelete, hpost⟩ := verbs_ne
  rw [routeOf]
  simp only [route, hverb, hhdf5, hput.symm, hdelete.symm, hpost.symm, false_and, if_false, if_true,
    Bool.not_true, Bool.false_eq_true, and_false]
  split_ifs <;> simp

/-- A request is routed soundly exactly when the cascade does not take it for another one. -/
theorem routedSoundly_iff (around : Surroundings) (stored : Stored) (req : Request) :
    RoutedSoundly around stored req ↔ ¬ TakenForWrite req ∧ ¬ TakenForRead stored req := by
  have hcomes := comesTo_routeOf stored req
  constructor
  · intro h
    constructor
    · rintro ⟨hverb, hroot, hid, hvalue⟩
      apply hvalue
      refine (h.write ?_).2
      rw [routeOf, hverb]
      exact route_put hroot hid
    · rintro ⟨hverb, hhdf5, hroot, hvalue⟩
      rcases routeOf_get hverb hhdf5 with hread | hquery
      · exact hvalue (h.read hread).2
      · exact hroot (h.root hquery)
  · rintro ⟨hwrite, hread⟩
    have hvalue (hid : idOf req.resource ≠ []) (hverb : req.verb = lit "GET")
        (hhdf5 : stored.isHdf5File = true) : IsValue req.resource := by
      by_contra hnot
      refine hread ⟨hverb, hhdf5, ?_, hnot⟩
      rintro hroot
      exact hid (hroot ▸ idOf_root)
    have hfile (hid : idOf req.resource = []) (hverb : req.verb = lit "GET")
        (hhdf5 : stored.isHdf5File = true) : req.resource = lit "/" := by
      by_contra hroot
      exact hread ⟨hverb, hhdf5, hroot, fun h => h.idOf_ne_nil hid⟩
    constructor
    · intro hroute
      rw [hroute] at hcomes
      refine ⟨hcomes.1, ?_⟩
      by_contra hnot
      exact hwrite ⟨hcomes.1, hcomes.2.1, hcomes.2.2, hnot⟩
    · intro hroute
      rcases List.mem_pair.mp hroute with hroute | hroute <;> rw [hroute] at hcomes <;>
        exact ⟨hcomes.1, hvalue hcomes.2.2 hcomes.1 hcomes.2.1⟩
    · intro hroute
      simp only [List.mem_cons, List.not_mem_nil, or_false] at hroute
      rcases hroute with hroute | hroute | hroute | hroute <;> rw [hroute] at hcomes
      · exact hcomes.2
      · exact hcomes.2
      · exact hfile hcomes.2.2 hcomes.1 hcomes.2.1
      · exact hfile hcomes.2.2 hcomes.1 hcomes.2.1
    · intro hserved
      rw [processReq]
      cases hroute : routeOf stored req <;> rw [hroute] at hcomes
      case notHdf5 => exact ⟨_, rfl, Nat.le_add_right 400 4, rfl⟩
      case parameterError => exact ⟨_, rfl, Nat.le_refl 400, rfl⟩
      all_goals refine absurd ?_ hserved
      case createFile => exact Or.inr (Or.inl ⟨List.mem_cons.mpr (Or.inl hcomes.1), hcomes.2⟩)
      case writeValue =>
        refine Or.inl ⟨List.mem_cons.mpr (Or.inl hcomes.1), ?_⟩
        by_contra hnot
        exact hwrite ⟨hcomes.1, hcomes.2.1, hcomes.2.2, hnot⟩
      case deleteFile =>
        rw [hcomes.1, hcomes.2]
        exact Or.inr (Or.inl ⟨List.mem_of_getLast? rfl, rfl⟩)
      case createDataset => exact Or.inr (Or.inr hcomes)
      case rootInfo | datasetInfo =>
        refine Or.inr (Or.inl ⟨?_, hfile hcomes.2.2 hcomes.1 hcomes.2.1⟩)
        exact List.mem_cons_of_mem _ (List.mem_cons.mpr (Or.inl hcomes.1))
      case readValue | readSelection =>
        refine Or.inl ⟨?_, hvalue hcomes.2.2 hcomes.1 hcomes.2.1⟩
        exact List.mem_cons_of_mem _ (List.mem_cons.mpr (Or.inl hcomes.1))

/-- The creation of a link comes to the handler that writes values. -/
theorem not_routedSoundly_linkCreate :
    ¬ RoutedSoundly ⟨true, 200⟩ (.hdf5 .empty)
      ⟨lit "PUT", lit "/groups/g-1/links/x", lit "", ⟨[], 0, fun _ => 0⟩⟩ := by
  intro h
  have hroute : routeOf (.hdf5 .empty)
      ⟨lit "PUT", lit "/groups/g-1/links/x", lit "", ⟨[], 0, fun _ => 0⟩⟩ = .writeValue := by
    unfold lit
    decide +kernel
  obtain ⟨id, -, -, heq⟩ := (h.write hroute).2
  change lit "/groups/g-1/links/x" = _ at heq
  have hgroups : (lit "/groups/g-1/links/x")[1]? = some 'g' := by
    unfold lit
    rfl
  have hdatasets : lit "/datasets/" = '/' :: 'd' :: lit "atasets/" := by
    unfold lit
    rfl
  rw [heq, hdatasets] at hgroups
  simp at hgroups

end XHDF5.Plugin
