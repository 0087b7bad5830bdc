/-
# Renaming an attribute

The client renames an attribute by five requests: it opens the old attribute, creates the new one with its
datatype and dataspace, copies the value by a read and a write, and deletes the old one. Nothing is undone
when one of the later requests fails, and the objects that are closed at the end can fail the call, too.

What the server makes of datatypes, dataspaces and values is a parameter: its texts are not part of the
repository. So is the JSON parser. A request may be answered, refused, or fail for the client although the
server did what it asks for.
-/

import XHDF5.Client.AttributeValues
import XHDF5.Client.DataspaceJson
import XHDF5.Client.Datatype

namespace XHDF5.Exchange.AttributeRename

open XHDF5.Math XHDF5.Client XHDF5.Client.AttributeValues

/-! ## The server -/

variable {V : Type}

/-- An attribute of an object on the server. -/
structure StoredAttr (V : Type) where
  type : Datatype
  space : Dataspace
  value : V

/-- The attributes of an object. -/
abbrev Attrs (V : Type) := Text → Option (StoredAttr V)

/-- What the server sends and takes: the description of an attribute, the body of a creation, the value of
a new attribute, and values in the two forms of a transfer. -/
structure AttrServer (V : Type) where
  describe : Datatype → Dataspace → Text
  understand : Text → Option (Datatype × Dataspace)
  initial : Datatype → Dataspace → V
  send : StoredAttr V → Bool → List UInt8
  take : Datatype → Dataspace → Bool → List UInt8 → Option V

namespace AttrServer

variable (server : AttrServer V) (attrs : Attrs V) (name : Text)

/-- A PUT request for a new attribute. -/
def create (body : Text) : Option (Attrs V) :=
  match attrs name, server.understand body with
  | none, some (type, space) =>
      some (Function.update attrs name (some ⟨type, space, server.initial type space⟩))
  | _, _ => none

/-- A PUT request for a value. -/
def put (isTransferBinary : Bool) (body : List UInt8) : Option (Attrs V) :=
  (attrs name).bind fun a =>
    (server.take a.type a.space isTransferBinary body).map fun value =>
      Function.update attrs name (some { a with value })

end AttrServer

/-- A DELETE request. -/
def delete (attrs : Attrs V) (name : Text) : Option (Attrs V) :=
  (attrs name).map fun _ => Function.update attrs name none

/-- What becomes of a request that is sent. -/
inductive Fate
  | answered
  | refused
  | lost
deriving DecidableEq

/-- A request: whether the client goes on, and the attributes behind it. -/
def request (fate : Fate) (result : Option (Attrs V)) (attrs : Attrs V) : Bool × Attrs V :=
  match fate, result with
  | .answered, some attrs' => (true, attrs')
  | .lost, some attrs' => (false, attrs')
  | _, _ => (false, attrs)

section Requests

variable {fate : Fate} {result : Option (Attrs V)} {attrs : Attrs V}

/-- What a request may leave. -/
theorem request_keeps {P : Attrs V → Prop} (hattrs : P attrs)
    (hresult : ∀ attrs', result = some attrs' → P attrs') : P (request fate result attrs).2 := by
  cases result with
  | none => cases fate <;> exact hattrs
  | some attrs' =>
      cases fate with
      | answered | lost => exact hresult attrs' rfl
      | refused => exact hattrs

/-- The client goes on behind what was done and answered. -/
theorem request_eq_true_iff {after : Attrs V} :
    request fate result attrs = (true, after) ↔ fate = .answered ∧ result = some after := by
  cases result with
  | none => cases fate <;> simp [request]
  | some attrs' => cases fate <;> simp [request]

/-- Nothing is done when the request is refused on the way or by the server. -/
theorem request_of_none (h : fate = .refused ∨ result = none) :
    request fate result attrs = (false, attrs) := by
  rcases h with rfl | rfl
  · rfl
  · cases fate <;> rfl

end Requests

/-! ## The call -/

/-- The object whose attribute is renamed: the location itself, or one found by name. Then the search
gives its type and URI, and the open may fail; with an external link on the path it is in another domain. -/
inductive Location
  | bySelf
  | byName (validLapl : Bool) (found : Option (ParentType × Text)) (opens sameDomain : Bool)
  | other

/-- What `RV_attr_close` does: it fails before or behind the release of the memory. -/
inductive Close
  | closed
  | kept
  | freed
deriving DecidableEq

/-- A call of H5Arename or H5Arename_by_name, with what becomes of its requests and of the objects that it
closes. `deliver` tells how the answer to the read reaches the client, if it does. -/
structure RenameCall (V : Type) where
  server : AttrServer V
  parse : Text → Option Json
  escape : EasyEscape
  baseURL : Text
  objType : ParentType
  objURI : Text
  location : Location
  server080 : Bool
  writeIntent : Bool
  oldName : Text
  newName : Text
  openFate : Fate
  createFate : Fate
  deliver : List UInt8 → Response
  buffer : SharedBuffer
  writeFate : Fate
  closesAttr : Close
  deleteFate : Fate
  closesRenamed : Bool
  closesParent : Bool
  resetsRequest : Bool

/-- A datatype whose values are not transferred in binary form. -/
def isVariable : Datatype → Bool
  | .string none _ _ => true
  | _ => false

/-- `H5Sget_simple_extent_npoints`. -/
def simpleExtentNpoints : Dataspace → Nat
  | .null => 0
  | .scalar => 1
  | .simple extent => (extent.map Prod.fst).prod

/-- The shape in the body of a creation; there are no maximum dimension sizes. -/
def shapeBody : Dataspace → Outcome (Option Text)
  | .scalar => .ok none
  | .null =>
      (printAll (appended (lit "\"shape\": \"H5S_NULL\"")) (.empty dataspaceShapeBufferDefaultSize)).bind
        fun b => .ok (some b.text)
  | .simple extent =>
      if extent = [] then .fail
      else
        (printAll (shapeSteps (extent.map Prod.fst)) (.empty dataspaceShapeBufferDefaultSize)).bind
          fun b => .ok (some b.text)

namespace RenameCall

variable (call : RenameCall V) (attrs : Attrs V)

/-- The object whose attribute is renamed: its type and its URI. -/
def parent : Option (ParentType × Text) :=
  if call.objType = .other then none
  else
    match call.location with
    | .bySelf => some (call.objType, call.objURI)
    | .byName validLapl found opens _ =>
        if validLapl = false then none
        else found.bind fun object =>
          if object.1 = .other ∨ opens = false then none else some object
    | .other => none

/-- The URL of an attribute. -/
def attrUrl (object : ParentType × Text) (name : Text) : Option Text :=
  object.1.collection.bind fun collection =>
    checkUrl (call.baseURL ++ collection ++ object.2 ++ lit "/attributes/" ++
      curlEasyEscape call.escape name)

/-- `RV_attr_open` of the old attribute: its datatype and its dataspace. -/
def openOriginal (object : ParentType × Text) : Outcome (Datatype × Dataspace) :=
  if call.attrUrl object call.oldName = none ∨ call.openFate ≠ .answered then .fail
  else
    match attrs call.oldName with
    | none => .fail
    | some a =>
        let response := call.server.describe a.type a.space
        (rvParseDataspace call.parse response).bind fun space =>
          (rvParseDatatype call.parse response).bind fun type => .ok (type, space)

/-- `RV_attr_create` of the new attribute, up to the body of its request. -/
def createRequestBody (object : ParentType × Text) (type : Datatype) (space : Dataspace) :
    Outcome Text :=
  if call.writeIntent = false ∨ (object.1 = .datatype ∧ call.server080 = false) then .fail
  else
    (rvConvertDatatypeToJson false type).bind fun datatypeBody =>
      (shapeBody space).bind fun shape =>
        if call.attrUrl object call.newName = none then .fail
        else .ok ('\x7b' :: (datatypeBody ++ ((shape.map fun text => ',' :: text).getD [] ++ ['\x7d'])))

/-- An attribute handle on the object. -/
def handle (object : ParentType × Text) (space : Dataspace) (name : Text) : Attribute where
  isAttr := true
  writeIntent := call.writeIntent
  npoints := simpleExtentNpoints space
  parentType := object.1
  parentURI := object.2
  attrName := name

/-- The memory datatype of the copy. -/
def memoryType (type : Datatype) (h : 0 < type.size) : MemoryType := ⟨type.size, isVariable type, h⟩

/-- The old value, as it is read. -/
def readValue (object : ParentType × Text) (type : Datatype) (space : Dataspace) :
    Outcome (List UInt8) :=
  match attrs call.oldName with
  | none => .fail
  | some a =>
      if h : 0 < type.size then
        let response := call.deliver (call.server.send a !(isVariable type))
        (rvAttrRead call.baseURL call.escape (call.handle object space call.oldName)
          (memoryType type h) response call.buffer).2
      else .fail

/-- The request that writes the value. -/
def writeRequest (object : ParentType × Text) (type : Datatype) (space : Dataspace)
    (bytes : List UInt8) : Outcome AttrPut :=
  if h : 0 < type.size then
    rvAttrWrite call.baseURL call.escape (call.handle object space call.newName)
      (memoryType type h) (some bytes)
  else .fail

/-- The DELETE request is for the object's domain. -/
def sameDomain : Bool :=
  match call.location with
  | .byName _ _ _ sameDomain => sameDomain
  | _ => true

/-- The end of `RV_attr_specific` behind a rename. For a datatype that was opened by name the `switch`
runs on into its default. -/
def cleansUp (object : ParentType × Text) : Bool :=
  call.closesRenamed && call.resetsRequest &&
    match call.location with
    | .byName _ _ _ _ => call.closesParent && object.1 != .datatype
    | _ => true

/-- The rename once the new attribute is there. An attribute that could not be closed is closed again. -/
def finish (object : ParentType × Text) (type : Datatype) (space : Dataspace) (created : Attrs V) :
    Outcome Unit × Attrs V :=
  match call.readValue attrs object type space with
  | .undefined => (.undefined, created)
  | .fail => (.fail, created)
  | .ok bytes =>
      match call.writeRequest object type space bytes with
      | .undefined => (.undefined, created)
      | .fail => (.fail, created)
      | .ok put =>
          let written := request call.writeFate
            (call.server.put created call.newName put.isTransferBinary put.body) created
          if written.1 = false then (.fail, written.2)
          else
            match call.closesAttr with
            | .freed => (.undefined, written.2)
            | .kept => (.fail, written.2)
            | .closed =>
                let deleted := request call.deleteFate
                  (if call.sameDomain then delete written.2 call.oldName else none) written.2
                if deleted.1 ∧ call.cleansUp object then (.ok (), deleted.2) else (.fail, deleted.2)

/-- The rename of `RV_attr_specific`, with the attributes of the object behind it. -/
def rvAttrSpecificRename : Outcome Unit × Attrs V :=
  match call.parent with
  | none => (.fail, attrs)
  | some object =>
      match call.openOriginal attrs object with
      | .undefined => (.undefined, attrs)
      | .fail => (.fail, attrs)
      | .ok (type, space) =>
          match call.createRequestBody object type space with
          | .undefined => (.undefined, attrs)
          | .fail => (.fail, attrs)
          | .ok body =>
              let created := request call.createFate
                (call.server.create attrs call.newName body) attrs
              if created.1 = false then (.fail, created.2)
              else call.finish attrs object type space created.2

/-- Success: just the new name is there, with all of the old attribute. An error: nothing has changed. -/
def Right : Outcome Unit × Attrs V → Prop
  | (.undefined, _) => False
  | (.fail, after) => after = attrs
  | (.ok (), after) => ∃ a, attrs call.oldName = some a ∧
      after = Function.update (Function.update attrs call.oldName none) call.newName (some a)

/-- A rename is all or nothing. -/
def AllOrNothing : Prop := call.Right attrs (call.rvAttrSpecificRename attrs)

/-! ## What it needs -/

/-- Nothing fails behind the creation, the attribute's domain is that of the location, and the server takes
the bytes that are copied for the old value. -/
def Completes (object : ParentType × Text) (type : Datatype) (space : Dataspace) (a : StoredAttr V) :
    Prop :=
  (∃ bytes put, call.readValue attrs object type space = .ok bytes ∧
    call.writeRequest object type space bytes = .ok put ∧
      call.server.take a.type a.space put.isTransferBinary put.body = some a.value) ∧
    (call.writeFate = .answered ∧ call.deleteFate = .answered) ∧
      call.closesAttr = .closed ∧ call.sameDomain = true ∧ call.cleansUp object = true

/-- The call is refused before the new attribute is there; or the server makes of the creation an attribute
like the old one, and nothing fails behind it. -/
def RefusedOrCompletes : Prop :=
  call.parent = none ∨ ∃ object, call.parent = some object ∧
    (call.openOriginal attrs object = .fail ∨ ∃ type space,
      call.openOriginal attrs object = .ok (type, space) ∧
        (call.createRequestBody object type space = .fail ∨ ∃ body,
          call.createRequestBody object type space = .ok body ∧
            (call.createFate = .refused ∨ call.server.create attrs call.newName body = none ∨
              call.createFate = .answered ∧ ∃ a, attrs call.oldName = some a ∧
                call.server.understand body = some (a.type, a.space) ∧
                  call.Completes attrs object type space a)))

/-! ## Behind the creation -/

section Behind

variable {call attrs} {object : ParentType × Text} {type : Datatype} {space : Dataspace}
  {created : Attrs V}

/-- A value that is put leaves the attributes there. -/
theorem put_ne_none {put : AttrPut} {after : Attrs V} {name : Text} (hnew : created name ≠ none)
    (h : call.server.put created call.newName put.isTransferBinary put.body = some after) :
    after name ≠ none := by
  obtain ⟨a, -, ha⟩ := Option.bind_eq_some_iff.mp h
  obtain ⟨value, -, rfl⟩ := Option.map_eq_some_iff.mp ha
  by_cases hname : name = call.newName
  · rw [hname, Function.update_self]
    exact Option.some_ne_none _
  · rwa [Function.update_of_ne hname]

/-- The attributes behind the write of the value. -/
theorem written_new_ne_none (put : AttrPut) (hnew : created call.newName ≠ none) :
    (request call.writeFate (call.server.put created call.newName put.isTransferBinary put.body)
      created).2 call.newName ≠ none :=
  @request_keeps V _ _ _ (fun attrs => attrs call.newName ≠ none) hnew
    fun _ hafter => put_ne_none hnew hafter

/-- The attributes behind the deletion of the old one. -/
theorem deleted_new_ne_none {written : Attrs V} (hne : call.newName ≠ call.oldName)
    (hnew : written call.newName ≠ none) :
    (request call.deleteFate (if call.sameDomain then delete written call.oldName else none)
      written).2 call.newName ≠ none := by
  refine @request_keeps V _ _ _ (fun attrs => attrs call.newName ≠ none) hnew fun after hafter => ?_
  split at hafter
  · obtain ⟨a, -, rfl⟩ := Option.map_eq_some_iff.mp hafter
    rwa [Function.update_of_ne hne]
  · cases hafter

/-- The new attribute stays, whatever fails. -/
theorem finish_new_ne_none (hne : call.newName ≠ call.oldName) (hnew : created call.newName ≠ none) :
    (call.finish attrs object type space created).2 call.newName ≠ none := by
  unfold finish
  cases call.readValue attrs object type space with
  | undefined | fail => exact hnew
  | ok bytes =>
      simp only
      cases call.writeRequest object type space bytes with
      | undefined | fail => exact hnew
      | ok put =>
          have hwritten := written_new_ne_none put hnew
          simp only
          generalize request call.writeFate _ created = written at hwritten ⊢
          by_cases hgoes : written.1 = false
          · rw [if_pos hgoes]
            exact hwritten
          · rw [if_neg hgoes]
            cases call.closesAttr with
            | freed | kept => exact hwritten
            | closed =>
                have hdeleted := deleted_new_ne_none hne hwritten
                simp only
                generalize request call.deleteFate _ written.2 = deleted at hdeleted ⊢
                split <;> exact hdeleted

/-- The deletion and the end of the call succeed when nothing fails. -/
theorem deleted_eq_ok_iff {written after : Attrs V} {ends : Bool} :
    (let deleted := request call.deleteFate
        (if call.sameDomain then delete written call.oldName else none) written
      if deleted.1 ∧ ends then ((.ok (), deleted.2) : Outcome Unit × Attrs V) else (.fail, deleted.2)) =
        (.ok (), after) ↔
      call.deleteFate = .answered ∧ call.sameDomain = true ∧
        delete written call.oldName = some after ∧ ends = true := by
  have hrequest := @request_eq_true_iff V call.deleteFate
    (if call.sameDomain then delete written call.oldName else none) written after
  have hresult : (if call.sameDomain then delete written call.oldName else none) = some after ↔
      call.sameDomain = true ∧ delete written call.oldName = some after := by
    cases call.sameDomain <;> simp
  rw [hresult] at hrequest
  rw [← and_assoc, ← and_assoc, and_assoc (a := call.deleteFate = .answered), ← hrequest]
  generalize request call.deleteFate _ written = deleted
  obtain ⟨goes, left⟩ := deleted
  cases goes <;> cases ends <;> simp

/-- The end of a rename, from the attributes behind the write, succeeds when nothing fails. -/
theorem written_eq_ok_iff {put : AttrPut} {after : Attrs V} :
    (let written := request call.writeFate
        (call.server.put created call.newName put.isTransferBinary put.body) created
      if written.1 = false then ((.fail, written.2) : Outcome Unit × Attrs V)
      else
        match call.closesAttr with
        | .freed => (.undefined, written.2)
        | .kept => (.fail, written.2)
        | .closed =>
            let deleted := request call.deleteFate
              (if call.sameDomain then delete written.2 call.oldName else none) written.2
            if deleted.1 ∧ call.cleansUp object then (.ok (), deleted.2) else (.fail, deleted.2)) =
        (.ok (), after) ↔
      call.writeFate = .answered ∧ ∃ written,
        call.server.put created call.newName put.isTransferBinary put.body = some written ∧
          call.closesAttr = .closed ∧ call.deleteFate = .answered ∧ call.sameDomain = true ∧
            delete written call.oldName = some after ∧ call.cleansUp object = true := by
  have hrequest (written : Attrs V) := @request_eq_true_iff V call.writeFate
    (call.server.put created call.newName put.isTransferBinary put.body) created written
  simp only [← exists_and_left, ← and_assoc]
  simp only [← hrequest]
  generalize request call.writeFate _ created = written
  obtain ⟨goes, left⟩ := written
  cases goes with
  | false => simp
  | true =>
      have hdeleted := @deleted_eq_ok_iff V call left after (call.cleansUp object)
      cases call.closesAttr with
      | freed | kept => simp
      | closed => simpa [and_assoc] using hdeleted

/-- A rename succeeds when nothing fails. -/
theorem finish_eq_ok_iff {after : Attrs V} :
    call.finish attrs object type space created = (.ok (), after) ↔
      ∃ bytes put, call.readValue attrs object type space = .ok bytes ∧
        call.writeRequest object type space bytes = .ok put ∧ call.writeFate = .answered ∧
          ∃ written, call.server.put created call.newName put.isTransferBinary put.body = some written ∧
            call.closesAttr = .closed ∧ call.deleteFate = .answered ∧ call.sameDomain = true ∧
              delete written call.oldName = some after ∧ call.cleansUp object = true := by
  unfold finish
  cases hread : call.readValue attrs object type space with
  | undefined | fail => simp
  | ok bytes =>
      cases hwrite : call.writeRequest object type space bytes with
      | undefined | fail =>
          refine iff_of_false (by simp [hwrite]) ?_
          rintro ⟨_, put, hbytes, hput, -⟩
          cases hbytes
          rw [hwrite] at hput
          cases hput
      | ok put =>
          have hend := @written_eq_ok_iff V call object created put after
          constructor
          · intro h
            simp only [hwrite] at h
            exact ⟨bytes, put, rfl, hwrite, hend.mp h⟩
          · rintro ⟨_, put', hbytes, hput, hrest⟩
            cases hbytes
            rw [hwrite] at hput
            cases hput
            simp only [hwrite]
            exact hend.mpr hrest

/-- What an error behind the creation leaves is not what there was. -/
theorem finish_ne (hne : call.newName ≠ call.oldName) (hfree : attrs call.newName = none)
    (hnew : created call.newName ≠ none) :
    (call.finish attrs object type space created).2 ≠ attrs := by
  intro h
  have hkept := @finish_new_ne_none V call attrs object type space created hne hnew
  rw [h] at hkept
  exact hkept hfree

/-- A value that is put for a new attribute. -/
theorem put_update_eq_some_iff {put : AttrPut} {b : StoredAttr V} {written : Attrs V} :
    call.server.put (Function.update attrs call.newName (some b)) call.newName put.isTransferBinary
        put.body = some written ↔
      ∃ value, call.server.take b.type b.space put.isTransferBinary put.body = some value ∧
        written = Function.update attrs call.newName (some { b with value }) := by
  unfold AttrServer.put
  rw [Function.update_self, Option.bind_some, Option.map_eq_some_iff]
  simp only [Function.update_idem, eq_comm]

/-- The deletion of the old attribute leaves the right one under the new name. -/
theorem delete_update_eq_some_iff {a c : StoredAttr V} (hne : call.newName ≠ call.oldName)
    (hold : attrs call.oldName = some a) :
    delete (Function.update attrs call.newName (some c)) call.oldName =
        some (Function.update (Function.update attrs call.oldName none) call.newName (some a)) ↔
      c = a := by
  unfold delete
  rw [Function.update_of_ne hne.symm, hold, Option.map_some, Function.update_comm hne.symm,
    Option.some_inj]
  constructor
  · intro h
    have hnew := congrFun h call.newName
    rw [Function.update_of_ne hne, Function.update_self, Function.update_of_ne hne,
      Function.update_self] at hnew
    exact Option.some.inj hnew
  · rintro rfl
    rfl

end Behind

/-- What is opened is there. -/
theorem openOriginal_eq_ok {call : RenameCall V} {attrs : Attrs V} {object : ParentType × Text}
    {opened : Datatype × Dataspace} (h : call.openOriginal attrs object = .ok opened) :
    ∃ a, attrs call.oldName = some a := by
  unfold openOriginal at h
  split at h
  · cases h
  · cases hold : attrs call.oldName with
    | none => simp [hold] at h
    | some a => exact ⟨a, rfl⟩

/-! ## All or nothing -/

section Iff

variable {call attrs} {object : ParentType × Text} {type : Datatype} {space : Dataspace}

/-- Behind a creation, the rename is right exactly when it completes. -/
theorem right_finish_iff {a b : StoredAttr V} (hold : attrs call.oldName = some a)
    (hfree : attrs call.newName = none) :
    call.Right attrs
        (call.finish attrs object type space (Function.update attrs call.newName (some b))) ↔
      (b.type = a.type ∧ b.space = a.space) ∧ call.Completes attrs object type space a := by
  have hne : call.newName ≠ call.oldName := fun h => by simp [← h, hfree] at hold
  set created := Function.update attrs call.newName (some b) with hcreated
  have hnew : created call.newName ≠ none := by simp [hcreated]
  constructor
  · intro h
    cases hfinish : call.finish attrs object type space created with
    | mk result after =>
        rw [hfinish] at h
        cases result with
        | undefined => exact h.elim
        | fail =>
            refine absurd ?_ (@finish_ne V call attrs object type space created hne hfree hnew)
            rw [hfinish]
            exact h
        | ok done =>
            obtain ⟨a', ha', rfl⟩ := h
            rw [hold] at ha'
            cases ha'
            obtain ⟨bytes, put, hread, hwrite, hwriteFate, written, hput, hcloses, hdeleteFate, hdomain,
              hdelete, hcleans⟩ := finish_eq_ok_iff.mp hfinish
            obtain ⟨value, htake, rfl⟩ := put_update_eq_some_iff.mp hput
            cases (delete_update_eq_some_iff hne hold).mp hdelete
            exact ⟨⟨rfl, rfl⟩, ⟨bytes, put, hread, hwrite, htake⟩, ⟨hwriteFate, hdeleteFate⟩, hcloses,
              hdomain, hcleans⟩
  · rintro ⟨⟨htype, hspace⟩, ⟨bytes, put, hread, hwrite, htake⟩, ⟨hwriteFate, hdeleteFate⟩, hcloses,
      hdomain, hcleans⟩
    rw [← htype, ← hspace] at htake
    have hput := (@put_update_eq_some_iff V call attrs put b _).mpr ⟨a.value, htake, rfl⟩
    have hsame : ({ b with value := a.value } : StoredAttr V) = a := by
      rw [htype, hspace]
    have hdelete := (delete_update_eq_some_iff hne hold).mpr hsame
    rw [finish_eq_ok_iff.mpr ⟨bytes, put, hread, hwrite, hwriteFate, _, hput, hcloses, hdeleteFate,
      hdomain, hdelete, hcleans⟩]
    exact ⟨a, hold, rfl⟩

/-- What the server makes of a creation. -/
theorem create_eq_some_iff {server : AttrServer V} {name body : Text} {after : Attrs V} :
    server.create attrs name body = some after ↔
      attrs name = none ∧ ∃ type space, server.understand body = some (type, space) ∧
        after = Function.update attrs name (some ⟨type, space, server.initial type space⟩) := by
  unfold AttrServer.create
  cases attrs name with
  | some a => simp
  | none => cases server.understand body <;> simp [eq_comm, Prod.ext_iff]

/-- The request of the creation, and the rename behind it. -/
theorem right_created_iff {body : Text} {a : StoredAttr V} (hold : attrs call.oldName = some a) :
    call.Right attrs
        (let created := request call.createFate (call.server.create attrs call.newName body) attrs
          if created.1 = false then (.fail, created.2)
          else call.finish attrs object type space created.2) ↔
      call.createFate = .refused ∨ call.server.create attrs call.newName body = none ∨
        call.createFate = .answered ∧ call.server.understand body = some (a.type, a.space) ∧
          call.Completes attrs object type space a := by
  cases hcreate : call.server.create attrs call.newName body with
  | none => simp [request_of_none (Or.inr rfl), Right]
  | some created =>
      obtain ⟨hfree, type', space', hunderstand, rfl⟩ := create_eq_some_iff.mp hcreate
      cases hfate : call.createFate with
      | refused => simp [request, Right]
      | lost =>
          refine iff_of_false (fun h => ?_) (by simp)
          have hnew : Function.update attrs call.newName _ = attrs := h
          have hgone := congrFun hnew call.newName
          rw [hfree, Function.update_self] at hgone
          cases hgone
      | answered =>
          have hright := @right_finish_iff V call attrs object type space _
            ⟨type', space', call.server.initial type' space'⟩ hold hfree
          simpa [request, hunderstand] using hright

end Iff

end RenameCall

/-! ## A DELETE request that is refused -/

/-- A scalar attribute of one byte. -/
def byteAttr : StoredAttr (List UInt8) := ⟨.integer ⟨1, .little, true⟩, .scalar, [7]⟩

/-- A server of such attributes. -/
def byteServer : AttrServer (List UInt8) where
  describe _ _ :=
    lit "\x7b\"type\": \x7b\"class\": \"H5T_INTEGER\", \"base\": \"H5T_STD_I8LE\"\x7d, " ++
      lit "\"shape\": \x7b\"class\": \"H5S_SCALAR\"\x7d\x7d"
  understand _ := some (byteAttr.type, byteAttr.space)
  initial _ _ := [0]
  send a _ := a.value
  take _ _ _ body := if body.length = 1 then some body else none

/-- The attribute `a` of a group is renamed to `b`; the DELETE request is refused. -/
def deleteRefused : RenameCall (List UInt8) where
  server := byteServer
  parse := Json.readJson
  escape := plainEscape
  baseURL := ['h']
  objType := .group
  objURI := ['g']
  location := .bySelf
  server080 := true
  writeIntent := true
  oldName := ['a']
  newName := ['b']
  openFate := .answered
  createFate := .answered
  deliver body := ⟨[body], true, 200, 4096⟩
  buffer := initBuffer fun _ => 0
  writeFate := .answered
  closesAttr := .closed
  deleteFate := .refused
  closesRenamed := true
  closesParent := true
  resetsRequest := true

/-- The only attribute is `a`. -/
def onlyA : Attrs (List UInt8) := fun name => if name = ['a'] then some byteAttr else none

/-- The rename fails, and there are two attributes. -/
theorem rename_deleteRefused : (deleteRefused.rvAttrSpecificRename onlyA).1 = .fail ∧
    ((deleteRefused.rvAttrSpecificRename onlyA).2 ['b']).isSome := by
  decide +kernel

end XHDF5.Exchange.AttributeRename
