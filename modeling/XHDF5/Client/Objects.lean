/-
# Open objects and the files that hold them

Every object the connector hands out is an allocated `RV_object_t` with a pointer to its file, the
domain, whose `ref_count` counts the file's own handle and the objects in it. Open and create calls
count the new object first and close it again when they fail; closing the last one frees the file.
Each type has a table of its open objects, whose keys are the objects themselves read as strings.

An event is one call with what the arguments, the server and the allocator decide about it. Reading
freed or uninitialised memory is no step.
-/

import Mathlib.Logic.Function.Basic
import XHDF5.Math.Bytes
import XHDF5.Math.Run

namespace XHDF5.Client

open XHDF5.Math

/-! ## Objects -/

/-- A pointer to an allocated object. -/
abbrev Addr := Nat

/-- A key of the hash tables, the bytes of a string without its NUL. -/
abbrev Key := List UInt8

/-- The types of the connector's objects. -/
inductive ObjType
  | file
  | group
  | datatype
  | dataset
  | attr
deriving DecidableEq

/-- The values of `H5I_type_t`. -/
def ObjType.code : ObjType → Nat
  | file => 1
  | group => 2
  | datatype => 3
  | dataset => 5
  | attr => 7

/-- An `RV_object_t`: its domain, its type, whether its `handle_path` is set, and a file's
`ref_count`. -/
structure RVObject where
  domain : Addr
  objType : ObjType
  hasPath : Bool
  refCount : UInt32
deriving DecidableEq

/-- The string that starts with the bytes of a domain pointer and of a type. -/
def keyOf (domain : Addr) (t : ObjType) : Key :=
  (littleEndian 8 domain ++ littleEndian 4 t.code).takeWhile (· ≠ 0)

/-- An object cast to `char *`. -/
def RVObject.key (o : RVObject) : Key := keyOf o.domain o.objType

/-- A file object, which is its own domain. -/
def newFile (f : Addr) : RVObject where
  domain := f
  objType := .file
  hasPath := true
  refCount := 1

/-- The allocated objects, the table of each type, and the handles the application holds. -/
structure Connector where
  objects : Addr → Option RVObject
  table : ObjType → Key → Option Addr
  handles : List Addr

namespace Connector

/-- The connector before the first call. -/
def empty : Connector where
  objects _ := none
  table _ _ := none
  handles := []

/-- Write an object to memory. -/
def store (s : Connector) (p : Addr) (o : RVObject) : Connector :=
  { s with objects := Function.update s.objects p (some o) }

/-- `RV_free`. -/
def free (s : Connector) (p : Addr) : Connector :=
  { s with objects := Function.update s.objects p none }

/-- `rv_hash_table_insert`: an equal key is overwritten. -/
def insert (s : Connector) (t : ObjType) (k : Key) (p : Addr) : Connector :=
  { s with table := Function.update s.table t (Function.update (s.table t) k (some p)) }

/-- `rv_hash_table_remove`. -/
def remove (s : Connector) (t : ObjType) (k : Key) : Connector :=
  { s with table := Function.update s.table t (Function.update (s.table t) k none) }

end Connector

/-! ## Closing -/

/-- `RV_file_close`, with whether it succeeds. -/
def rvFileClose (f : Addr) (s : Connector) : Option (Connector × Bool) :=
  match s.objects f with
  | none => none
  | some file =>
      if file.objType ≠ .file then some (s, false)
      else if file.refCount - 1 = 0 then some ((s.remove .file file.key).free f, true)
      else some (s.store f { file with refCount := file.refCount - 1 }, true)

/-- The close functions of the objects in a file. Only some of them keep the object when its
domain cannot be closed. -/
def closeObject (keeps : Bool) (t : ObjType) (p : Addr) (s : Connector) : Option Connector :=
  match s.objects p with
  | none => none
  | some o =>
      if o.objType ≠ t then some s
      else
        (rvFileClose o.domain (s.remove t o.key)).map fun result =>
          if keeps && !result.2 then result.1 else result.1.free p

/-- `RV_group_close`. -/
def rvGroupClose : Addr → Connector → Option Connector := closeObject false .group

/-- `RV_dataset_close`. -/
def rvDatasetClose : Addr → Connector → Option Connector := closeObject false .dataset

/-- `RV_datatype_close`. -/
def rvDatatypeClose : Addr → Connector → Option Connector := closeObject false .datatype

/-- `RV_attr_close`, which jumps to `done` when the domain cannot be closed. -/
def rvAttrClose : Addr → Connector → Option Connector := closeObject true .attr

/-- The close function of a type. -/
def rvClose : ObjType → Addr → Connector → Option Connector
  | .file => fun p s => (rvFileClose p s).map Prod.fst
  | .group => rvGroupClose
  | .datatype => rvDatatypeClose
  | .dataset => rvDatasetClose
  | .attr => rvAttrClose

/-! ## Files -/

/-- How far a file call gets: an error before the allocation, one before the domain is set, where
the memory still holds something else, a later one, or none. -/
inductive FileResult
  | refused
  | unset (garbage : Addr)
  | failed
  | completed
deriving DecidableEq

/-- The part that creating and opening a file have in common. -/
def setupFile (f : Addr) (result : FileResult) (s : Connector) : Option (Connector × Bool) :=
  match result with
  | .refused => some (s, false)
  | .unset garbage =>
      (rvFileClose f (s.store f { newFile f with domain := garbage })).map fun r => (r.1, false)
  | .failed => (rvFileClose f (s.store f (newFile f))).map fun r => (r.1, false)
  | .completed => some ((s.store f (newFile f)).insert .file (newFile f).key f, true)

/-- `RV_file_create`. -/
def rvFileCreate : Addr → FileResult → Connector → Option (Connector × Bool) := setupFile

/-- `RV_file_open`. -/
def rvFileOpen : Addr → FileResult → Connector → Option (Connector × Bool) := setupFile

/-! ## Objects in a file -/

/-- What the arguments and the surroundings decide about a call: whether the checks before the
allocation pass, whether a name is given, the files that `RV_find_object_by_path` opens and closes
again on old servers, and whether everything else succeeds. -/
structure Call where
  parent : Addr
  addr : Addr
  admitted : Bool
  named : Bool
  detours : List Addr
  completes : Bool

/-- How the search for an object ends: not found, an error in `RV_copy_object_loc_info_callback`
before it replaces the domain or after it, found in the same domain, or found in another one. -/
inductive Search
  | missed
  | aborted (newDomain : Addr) (refCount : UInt32)
  | lost (newDomain : Addr)
  | inside
  | external (newDomain : Addr)
deriving DecidableEq

/-- The parents of groups, datasets and datatypes. -/
def containers : List ObjType := [.file, .group]

/-- The parents of attributes. -/
def attributeOwners : List ObjType := [.file, .group, .datatype, .dataset]

/-- The new object points to its parent's domain and is counted there. -/
def attach (t : ObjType) (call : Call) (d : Addr) (domain : RVObject) (s : Connector) :
    Connector :=
  (s.store call.addr
      { domain := d, objType := t, hasPath := call.named, refCount := 0 }).store d
    { domain with refCount := domain.refCount + 1 }

/-- A file referenced by an external link is open while the search goes through it. -/
def detour (s : Connector) (f : Addr) : Option Connector :=
  (rvFileOpen f .completed s).bind fun opened => (rvFileClose f opened.1).map Prod.fst

/-- The call's last part: the object is put in its table, or closed after an error. -/
def finish (t : ObjType) (p : Addr) (succeeds : Bool) (s : Connector) :
    Option (Connector × Bool) :=
  if succeeds then
    (s.objects p).map fun o => (s.insert t o.key p, true)
  else (rvClose t p s).map fun closed => (closed, false)

/-- The checks before the allocation, then the rest of the call with the parent and its domain. -/
def admitCall (types : List ObjType) (call : Call) (s : Connector)
    (rest : RVObject → RVObject → Option (Connector × Bool)) : Option (Connector × Bool) :=
  (s.objects call.parent).bind fun parent =>
    if call.admitted && decide (parent.objType ∈ types) then
      (s.objects parent.domain).bind fun domain => rest parent domain
    else some (s, false)

/-- The part that creating a dataset, a datatype and a group have in common. The parent may have
to be searched, and further calls may be made in between. -/
def createObject (t : ObjType) (call : Call) (d : Addr) (domain : RVObject)
    (between : Connector → Option (Connector × Bool)) (s : Connector) :
    Option (Connector × Bool) :=
  (call.detours.foldlM detour (attach t call d domain s)).bind fun s' =>
    (between s').bind fun result =>
      finish t call.addr (result.2 && call.completes) result.1

/-- `RV_dataset_create`. -/
def rvDatasetCreate (call : Call) (s : Connector) : Option (Connector × Bool) :=
  admitCall containers call s fun parent domain =>
    createObject .dataset call parent.domain domain (fun s' => some (s', true)) s

/-- `RV_datatype_commit`. When the type cannot be copied the object is closed with a `handle_path`
that was never written. -/
def rvDatatypeCommit (call : Call) (typeCopied : Bool) (s : Connector) :
    Option (Connector × Bool) :=
  admitCall containers call s fun parent domain =>
    if typeCopied then
      createObject .datatype call parent.domain domain (fun s' => some (s', true)) s
    else none

/-- `RV_group_create`, with the calls of itself that create the intermediate groups, the outermost
call first. The parent's path is checked when the group is allocated but nothing in it is set. -/
def rvGroupCreate (call : Call) (s : Connector) : List Call → Option (Connector × Bool)
  | [] =>
      admitCall containers call s fun parent domain =>
        if parent.hasPath then
          createObject .group call parent.domain domain (fun s' => some (s', true)) s
        else none
  | intermediate :: rest =>
      admitCall containers call s fun parent domain =>
        if parent.hasPath then
          createObject .group call parent.domain domain
            (fun s' => (rvGroupCreate intermediate s' rest).bind fun result =>
              if result.2 then
                (rvGroupClose intermediate.addr result.1).map fun closed => (closed, true)
              else some result) s
        else none

/-- `RV_find_object_by_path` with `RV_copy_object_loc_info_callback`: another domain replaces the
one of the object, and the reference to that one is given back. -/
def locate (t : ObjType) (call : Call) (d : Addr) (search : Search) (s : Connector) :
    Option (Connector × Bool) :=
  match search with
  | .missed => some (s, false)
  | .aborted newDomain refCount =>
      some (s.store newDomain { newFile newDomain with refCount }, false)
  | .lost newDomain =>
      (rvFileClose d (s.store newDomain (newFile newDomain))).map fun r => (r.1, false)
  | .inside => some (s, true)
  | .external newDomain =>
      (rvFileClose d (s.store newDomain (newFile newDomain))).map fun r =>
        (r.1.store call.addr
          { domain := newDomain, objType := t, hasPath := call.named, refCount := 0 }, true)

/-- The part that opening a group, a dataset and a datatype have in common. -/
def openObject (t : ObjType) (call : Call) (search : Search) (d : Addr) (domain : RVObject)
    (s : Connector) : Option (Connector × Bool) :=
  createObject t call d domain (locate t call d search) s

/-- `RV_group_open`, which needs the parent's path. -/
def rvGroupOpen (call : Call) (search : Search) (s : Connector) : Option (Connector × Bool) :=
  admitCall containers call s fun parent domain =>
    if parent.hasPath then openObject .group call search parent.domain domain s
    else some (s, false)

/-- `RV_dataset_open`. -/
def rvDatasetOpen (call : Call) (search : Search) (s : Connector) : Option (Connector × Bool) :=
  admitCall containers call s fun parent domain =>
    openObject .dataset call search parent.domain domain s

/-- `RV_datatype_open`. -/
def rvDatatypeOpen (call : Call) (search : Search) (s : Connector) : Option (Connector × Bool) :=
  admitCall containers call s fun parent domain =>
    openObject .datatype call search parent.domain domain s

/-- The part that creating and opening an attribute have in common. When its path cannot be set
it is closed with a `parent_name` that was never written. -/
def setupAttribute (call : Call) (pathSet : Bool) (s : Connector) : Option (Connector × Bool) :=
  admitCall attributeOwners call s fun parent domain =>
    if pathSet then
      createObject .attr call parent.domain domain (fun s' => some (s', true)) s
    else none

/-- `RV_attr_create`. -/
def rvAttrCreate : Call → Bool → Connector → Option (Connector × Bool) := setupAttribute

/-- `RV_attr_open`. -/
def rvAttrOpen : Call → Bool → Connector → Option (Connector × Bool) := setupAttribute

/-! ## Runs -/

/-- The application's calls. -/
inductive Event
  | fileCreate (f : Addr) (result : FileResult)
  | fileOpen (f : Addr) (result : FileResult)
  | groupCreate (call : Call) (intermediates : List Call)
  | datasetCreate (call : Call)
  | datatypeCommit (call : Call) (typeCopied : Bool)
  | groupOpen (call : Call) (search : Search)
  | datasetOpen (call : Call) (search : Search)
  | datatypeOpen (call : Call) (search : Search)
  | attrCreate (call : Call) (pathSet : Bool)
  | attrOpen (call : Call) (pathSet : Bool)
  | close (p : Addr)

/-- A call that succeeds hands its object to the application. -/
def handOut (p : Addr) (result : Connector × Bool) : Connector :=
  if result.2 then { result.1 with handles := p :: result.1.handles } else result.1

/-- One call. -/
def connectorStep (s : Connector) : Event → Option Connector
  | .fileCreate f result => (rvFileCreate f result s).map (handOut f)
  | .fileOpen f result => (rvFileOpen f result s).map (handOut f)
  | .groupCreate call intermediates =>
      (rvGroupCreate call s intermediates).map (handOut call.addr)
  | .datasetCreate call => (rvDatasetCreate call s).map (handOut call.addr)
  | .datatypeCommit call typeCopied =>
      (rvDatatypeCommit call typeCopied s).map (handOut call.addr)
  | .groupOpen call search => (rvGroupOpen call search s).map (handOut call.addr)
  | .datasetOpen call search => (rvDatasetOpen call search s).map (handOut call.addr)
  | .datatypeOpen call search => (rvDatatypeOpen call search s).map (handOut call.addr)
  | .attrCreate call pathSet => (rvAttrCreate call pathSet s).map (handOut call.addr)
  | .attrOpen call pathSet => (rvAttrOpen call pathSet s).map (handOut call.addr)
  | .close p =>
      (s.objects p).bind fun o =>
        (rvClose o.objType p s).map fun closed =>
          { closed with handles := closed.handles.erase p }

end XHDF5.Client
