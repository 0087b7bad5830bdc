/-
# A server with links

A domain has objects, which are known by their URIs, and groups with named links. Servers before
version 0.8.0 answer for one link of a group, for one object, and for the object that a path of hard
links leads to; they do not traverse symbolic links. HDF5 itself resolves a path link by link.
-/

import XHDF5.Client.CreateBody
import XHDF5.Client.Objects
import XHDF5.Math.LinkGraph

namespace XHDF5.Links

open XHDF5.Math XHDF5.Client

/-- A link. -/
inductive Link
  | hard (uri : Text)
  | soft (path : Text)
  | external (file path : Text)
deriving DecidableEq

/-- The objects of a file and the links of its groups. Hard links lead to objects. -/
structure Domain where
  root : Text
  objects : Text → Option ObjType
  links : Text → Text → Option Link
  root_group : objects root = some .group
  links_group : ∀ uri name link, links uri name = some link → objects uri = some .group
  hard_exists : ∀ uri name target, links uri name = some (.hard target) → ∃ type,
    objects target = some type

/-- An object of a file. -/
structure ObjectRef where
  domain : Text
  uri : Text
deriving DecidableEq

/-- A server, the functions for escaping on both sides, and its files. -/
structure LinkServer where
  baseURL : Text
  escape : EasyEscape
  unescape : Text → Text
  store : Text → Option Domain

/-! ## HDF5 -/

section Graph

variable (s : LinkServer)

/-- A link of an object as a link of the graph: a relative soft link starts at the group that has it,
an absolute one at the root group, and an external one at the root group of its file. -/
def graphLink (n : ObjectRef) (d : Domain) : Link → GraphLink ObjectRef Text
  | .hard uri => .hard ⟨n.domain, uri⟩
  | .soft path =>
      .symbolic (if path.head? = some '/' then some ⟨n.domain, d.root⟩ else none) (components path)
  | .external file path =>
      match s.store file with
      | none => .broken
      | some target => .symbolic (some ⟨file, target.root⟩) (components path)

/-- All links of all files. -/
def LinkServer.graph : LinkGraph ObjectRef Text := fun n name =>
  (s.store n.domain).bind fun d => (d.links n.uri name).map (graphLink s n d)

end Graph

/-! ## Requests -/

/-- What a lookup needs of an `RV_object_t`: the domain, the URI and the type, which is not that of
an attribute. -/
structure LocObject where
  domain : Text
  uri : Text
  type : ObjType
  type_ne : type ≠ .attr

/-- `RV_set_object_type_header`. -/
def rvSetObjectTypeHeader : ObjType → Option Text
  | .file | .group => some (lit "groups")
  | .datatype => some (lit "datatypes")
  | .dataset => some (lit "datasets")
  | .attr => none

/-- The type of the objects in a collection. -/
def collectionType (type : ObjType) : ObjType := if type = .file then .group else type

namespace LinkServer

variable (s : LinkServer)

/-- The link of a name in an object. -/
def linkAt (object : ObjectRef) (name : Text) : Option Link :=
  (s.store object.domain).bind fun d => d.links object.uri name

/-- The URL of a link, if it is not too long. -/
def linkUrl (group name : Text) : Option Text :=
  checkUrl (s.baseURL ++ lit "/groups/" ++ group ++ lit "/links/" ++ curlEasyEscape s.escape name)

/-- `GET /groups/<id>/links/<name>`. The name arrives as it was before `curl_easy_escape`. -/
def getLink (domain group name : Text) : Option Link :=
  (s.linkUrl group name).bind fun _ => s.linkAt ⟨domain, group⟩ name

/-- An object of a type. -/
def getObject (type : ObjType) (object : ObjectRef) : Option ObjectRef :=
  (s.store object.domain).bind fun d =>
    if d.objects object.uri = some type then some object else none

/-- The object of a type that a path of hard links leads to, from a group or from the root group. -/
def getByPath (type : ObjType) (domain : Text) (group : Option Text) (path : Text) :
    Option ObjectRef :=
  (s.store domain).bind fun d =>
    (hardWalk s.graph ⟨domain, group.getD d.root⟩ (components path)).bind (s.getObject type)

/-- The request for an object of a known type: for `.` and `/` the parent object itself, for other
paths what the server finds behind the path. -/
def request (parent : LocObject) (path : Text) (isRelative : Bool) (type : ObjType) :
    Option ObjectRef :=
  (rvSetObjectTypeHeader type).bind fun header =>
    let isGroup := type = .group ∨ type = .file
    if path = ['.'] ∨ path = ['/'] then
      (checkUrl (s.baseURL ++ lit "/" ++ header ++ lit "/" ++ parent.uri)).bind fun _ =>
        s.getObject (collectionType type) ⟨parent.domain, parent.uri⟩
    else
      let encoded := h5RestUrlEncodePath s.escape path
      (checkUrl (s.baseURL ++ lit "/" ++ header ++ lit "/" ++
        (if isRelative ∧ isGroup then parent.uri else []) ++ lit "?" ++
        (if isRelative ∧ ¬isGroup then lit "grpid=" ++ parent.uri ++ lit "&" else []) ++
        lit "h5path=" ++ encoded)).bind fun _ =>
          s.getByPath (collectionType type) parent.domain
            (if isRelative then some parent.uri else none) (s.unescape encoded)

end LinkServer

end XHDF5.Links
