/-
# Queries on open objects

A query starts from an open file, group, dataset or datatype. Most of them only search and ask the server.
Some need a handle for the object they work on: `H5Aiterate` and `H5Ovisit` copy the object byte by byte,
count what the copy refers to and close it again through the ordinary close routine; the calls by name open
the object and close it. `H5Gget_info_by_name` stores the domain that its search found into the location.

How far a call gets, and what the server and the allocator answer, is data. Identifiers and property lists
that are made for temporary objects are new ones and are not followed. The groups below a visited group are
counted one after the other: that the outer ones stay counted meanwhile makes no difference.
-/

import XHDF5.Client.Lifecycle
import XHDF5.Math.Printing

namespace XHDF5.Client.Queries

open XHDF5.Math XHDF5.Client

/-! ## Open objects -/

/-- An `hid_t`. -/
abbrev Hid := Nat

/-- The identifiers that an object holds. -/
inductive Ids
  | file (fapl fcpl : Hid)
  | group (gapl gcpl : Hid)
  | dataset (space dtype dcpl dapl : Hid)
  | datatype (dtype tapl tcpl : Hid)
deriving DecidableEq

/-- The type of the object. -/
def Ids.objType : Ids → ObjType
  | .file _ _ => .file
  | .group _ _ => .group
  | .dataset _ _ _ _ => .dataset
  | .datatype _ _ _ => .datatype

/-- All identifiers of an object. -/
def Ids.all : Ids → List Hid
  | .file fapl fcpl => [fapl, fcpl]
  | .group gapl gcpl => [gapl, gcpl]
  | .dataset space dtype dcpl dapl => [space, dtype, dcpl, dapl]
  | .datatype dtype tapl tcpl => [dtype, tapl, tcpl]

/-- The other fields of an object. -/
structure Fields where
  uri : Text
  handlePath : Text
  ids : Ids

/-- The connector, the fields of its objects, and the reference counts of identifiers. -/
structure Session where
  conn : Connector
  fields : Addr → Fields
  refs : Hid → Nat

/-- The default property lists. -/
structure DefaultLists where
  gapl : Hid
  gcpl : Hid
  dapl : Hid
  dcpl : Hid
  tapl : Hid
  tcpl : Hid

/-- What must not change for the object that a query starts from. -/
structure View where
  domain : Addr
  uri : Text
  handlePath : Text
  fileCount : UInt32
  refs : List Nat
  registered : Bool
deriving DecidableEq

/-- What there is to see of an object. -/
def Session.view (s : Session) (p : Addr) : Option View :=
  (s.conn.objects p).bind fun o =>
    (s.conn.objects o.domain).map fun domain =>
      { domain := o.domain
        uri := (s.fields p).uri
        handlePath := (s.fields p).handlePath
        fileCount := domain.refCount
        refs := (s.fields p).ids.all.map s.refs
        registered := decide (s.conn.table o.objType o.key = some p) }

/-- An open object: its domain is a file that counts it, and its identifiers are referenced. -/
structure Open (s : Session) (p : Addr) (o domain : RVObject) : Prop where
  object : s.conn.objects p = some o
  kind : (s.fields p).ids.objType = o.objType
  located : s.conn.objects o.domain = some domain
  file : domain.objType = .file
  own : o.objType = .file → o.domain = p
  counted : domain.refCount ≠ 0
  referenced : ∀ id ∈ (s.fields p).ids.all, 0 < s.refs id

/-! ## Searches -/

/-- A search with `RV_copy_object_loc_info_callback`. -/
structure Lookup where
  detours : List Addr
  search : Search

/-- `RV_group_get` for `H5Gget_info_by_name`, whose location takes over the domain that was found. -/
def rvGroupGetInfoByName (p : Addr) (lookup : Lookup) (s : Connector) : Option Connector :=
  (s.objects p).bind fun o =>
    if o.objType ∉ containers then some s
    else
      (lookup.detours.foldlM detour s).bind fun s' =>
        match lookup.search with
        | .missed | .inside => some s'
        | .aborted newDomain refCount =>
            some (s'.store newDomain { newFile newDomain with refCount })
        | .lost newDomain =>
            (rvFileClose o.domain (s'.store newDomain (newFile newDomain))).map Prod.fst
        | .external newDomain =>
            (rvFileClose o.domain (s'.store newDomain (newFile newDomain))).bind fun closed =>
              (closed.1.objects p).map fun o' => closed.1.store p { o' with domain := newDomain }

/-- The searches of `RV_object_get` one after the other, and the close of the domain at their end. -/
def searchAll : List Lookup → Addr → Connector → Option Connector
  | [], domain, s => (rvFileClose domain s).map Prod.fst
  | lookup :: rest, domain, s =>
      (lookup.detours.foldlM detour s).bind fun s' =>
        match lookup.search with
        | .missed => (rvFileClose domain s').map Prod.fst
        | .inside => searchAll rest domain s'
        | .aborted newDomain refCount =>
            (rvFileClose domain (s'.store newDomain { newFile newDomain with refCount })).map Prod.fst
        | .lost newDomain =>
            (rvFileClose domain (s'.store newDomain (newFile newDomain))).bind fun closed =>
              (rvFileClose newDomain closed.1).map Prod.fst
        | .external newDomain =>
            (rvFileClose domain (s'.store newDomain (newFile newDomain))).bind fun closed =>
              searchAll rest newDomain closed.1

/-- A file with one more reference. -/
def count (d : Addr) (s : Connector) : Option Connector :=
  (s.objects d).map fun domain => s.store d domain.counted

/-- `RV_object_get`: no search by self, one by name, two by index. -/
def rvObjectGet (p : Addr) (lookups : List Lookup) (s : Connector) : Option Connector :=
  (s.objects p).bind fun o => (count o.domain s).bind (searchAll lookups o.domain)

/-! ## Objects that are opened and closed -/

/-- How an object that a query opens comes about, and whether it gets a handle in the end. Whether the path
can be set matters for attributes. -/
structure Opening where
  addr : Addr
  named : Bool
  pathSet : Bool
  detours : List Addr
  search : Search
  completes : Bool
  registers : Bool

/-- The call that opens the object. -/
def Opening.call (opening : Opening) (p : Addr) : Call where
  parent := p
  addr := opening.addr
  admitted := true
  named := opening.named
  detours := opening.detours
  completes := opening.completes

/-- Opening an object of the type that was found. -/
def openFound (found : ObjType) (call : Call) (search : Search) (s : Connector) :
    Option (Connector × Bool) :=
  match found with
  | .file | .group => rvGroupOpen call search s
  | .dataset => rvDatasetOpen call search s
  | .datatype => rvDatatypeOpen call search s
  | .attr => some (s, false)

/-- `RV_build_object_table`, as far as it counts and closes: for each group below, whether its path can be
set. Then the file is counted; the group is closed in any case. -/
def rvBuildObjectTable (d : Addr) : List Bool → Connector → Option Connector
  | [], s => some s
  | pathSet :: rest, s =>
      (if pathSet then count d s else some s).bind fun counted =>
        (rvFileClose d (counted.remove .group (keyOf d .group))).bind fun closed =>
          if pathSet then rvBuildObjectTable d rest closed.1 else some closed.1

/-- The part of the calls by name behind their search: the object is opened, gets a handle of the type that
was found, is worked on, and is closed through its handle. Without a handle it stays. -/
def openAndClose (found : ObjType) (opening : Opening) (below : List Bool) (p : Addr) (s : Connector) :
    Option Connector :=
  (openFound found (opening.call p) opening.search s).bind fun opened =>
    if opened.2 && opening.registers then
      (opened.1.objects opening.addr).bind fun o =>
        (rvBuildObjectTable o.domain below opened.1).bind (rvClose found opening.addr)
    else some opened.1

/-! ## Objects that are copied -/

section Copies

variable (D : DefaultLists)

/-- An identifier that is not a default one. -/
def unlessDefault (default id : Hid) : List Hid := if id = default then [] else [id]

/-- What `H5Aiterate` counts. -/
def takenByIterate : Ids → List Hid
  | .file _ _ => []
  | .group gapl gcpl => unlessDefault D.gcpl gcpl ++ unlessDefault D.gapl gapl
  | .dataset space dtype dcpl dapl => [dtype, space, dapl, dcpl]
  | .datatype dtype tapl tcpl =>
      dtype :: (unlessDefault D.tcpl tcpl ++ unlessDefault D.tapl tapl)

/-- What `H5Ovisit` counts. -/
def takenByVisit : Ids → List Hid
  | .file _ _ => []
  | .group _ gcpl => unlessDefault D.gcpl gcpl
  | .dataset space dtype dcpl dapl => [dtype, space, dapl, dcpl]
  | .datatype dtype _ tcpl => [dtype, tcpl]

/-- What the close routines give back. The property lists of a copied file are copies, too. -/
def givenBack : Ids → List Hid
  | .file _ _ => []
  | .group gapl gcpl => unlessDefault D.gapl gapl ++ unlessDefault D.gcpl gcpl
  | .dataset space dtype dcpl dapl =>
      dtype :: space :: (unlessDefault D.dapl dapl ++ unlessDefault D.dcpl dcpl)
  | .datatype dtype tapl tcpl =>
      dtype :: (unlessDefault D.tapl tapl ++ unlessDefault D.tcpl tcpl)

/-- `H5Iinc_ref` on some identifiers. -/
def incRefs (ids : List Hid) (refs : Hid → Nat) : Hid → Nat := fun id => refs id + ids.count id

/-- `H5Idec_ref` on some identifiers. -/
def decRefs (ids : List Hid) (refs : Hid → Nat) : Hid → Nat := fun id => refs id - ids.count id

/-- How far a copy gets: an error before the file is counted, one after some identifiers are, one before the
copy has a handle, or none. -/
inductive CopyExit
  | refused
  | during (taken : Nat)
  | unregistered
  | registered
deriving DecidableEq

/-- A copy of the location, with the count that the copy of a file starts with. The copy of a file is not
counted in the end. A copy that gets no handle is not closed. An object without a path cannot be copied. -/
def copyObject (taken : Ids → List Hid) (fileCount : UInt32 → UInt32) (below : List Bool)
    (copy : Addr) (exit : CopyExit) (p : Addr) (s : Session) : Option Session :=
  (s.conn.objects p).bind fun o =>
    (s.conn.objects o.domain).bind fun domain =>
      let ids := (s.fields p).ids
      let counted := s.conn.store o.domain domain.counted
      let settled :=
        if o.objType = .file then
          counted.store o.domain { domain.counted with refCount := domain.counted.refCount - 1 }
        else counted
      match exit with
      | .refused => some s
      | .during k => some { s with conn := counted, refs := incRefs ((taken ids).take k) s.refs }
      | .unregistered =>
          if o.hasPath then some { s with conn := settled, refs := incRefs (taken ids) s.refs } else none
      | .registered =>
          if o.hasPath then
            (rvBuildObjectTable o.domain below
              (settled.store copy { o with refCount := fileCount o.refCount })).bind fun worked =>
                (rvClose o.objType copy worked).map fun closed =>
                  { conn := closed
                    fields := Function.update s.fields copy (s.fields p)
                    refs := decRefs (givenBack D ids) (incRefs (taken ids) s.refs) }
          else none

end Copies

/-! ## Queries -/

/-- A query with what decides about it. `copies` stands for the calls that only copy, ask the server or are
refused; a `lookup` by name only fetches a URI. A visit by name of what is not found tries an attribute. -/
inductive Query
  | copies
  | lookup (detours : List Addr)
  | groupInfoByName (lookup : Lookup)
  | objectGet (lookups : List Lookup)
  | linkIterate (opening : Opening)
  | attrIterate (copy : Addr) (exit : CopyExit)
  | attrIterateByName (detours : List Addr) (found : Option ObjType) (opening : Opening)
  | visit (copy : Addr) (exit : CopyExit) (below : List Bool)
  | visitByName (detours : List Addr) (found : Option ObjType) (opening : Opening) (below : List Bool)

/-- The groups below an object that is visited. -/
def groupsBelow (t : ObjType) (below : List Bool) : List Bool :=
  if t = .file ∨ t = .group then below else []

/-- The attribute that a visit takes a name for is opened and closed. -/
def visitAttribute (opening : Opening) (p : Addr) (s : Connector) : Option Connector :=
  (rvAttrOpen (opening.call p) opening.pathSet s).bind fun opened =>
    if opened.2 then rvAttrClose opening.addr opened.1 else some opened.1

/-- The effect of a query on the connector's objects. -/
def queryConnector (p : Addr) : Query → Connector → Option Connector
  | .lookup detours, s => detours.foldlM detour s
  | .groupInfoByName lookup, s => rvGroupGetInfoByName p lookup s
  | .objectGet lookups, s => rvObjectGet p lookups s
  | .linkIterate opening, s => openAndClose .group opening [] p s
  | .attrIterateByName detours found opening, s =>
      (detours.foldlM detour s).bind fun s' =>
        match found with
        | none => some s'
        | some t => openAndClose t opening [] p s'
  | .visitByName detours found opening below, s =>
      (detours.foldlM detour s).bind fun s' =>
        match found with
        | none => visitAttribute opening p s'
        | some t => openAndClose t opening (groupsBelow t below) p s'
  | .copies, s | .attrIterate _ _, s | .visit _ _ _, s => some s

/-- A query. -/
def query (D : DefaultLists) (p : Addr) (q : Query) (s : Session) : Option Session :=
  match q with
  | .attrIterate copy exit => copyObject D (takenByIterate D) id [] copy exit p s
  | .visit copy exit below =>
      (s.conn.objects p).bind fun o =>
        copyObject D (takenByVisit D) (fun _ => 1) (groupsBelow o.objType below) copy exit p s
  | q => (queryConnector p q s.conn).map fun conn => { s with conn }

/-- The query is defined and leaves the object that it starts from as it was. -/
def Unchanged (D : DefaultLists) (p : Addr) (q : Query) (s : Session) : Prop :=
  ∃ s', query D p q s = some s' ∧ s'.view p = s.view p

/-! ## What it needs -/

/-- The addresses that an opening allocates are free. -/
def Opening.Fresh (opening : Opening) (s : Connector) : Prop :=
  s.objects opening.addr = none ∧
    (∀ f ∈ opening.detours, s.objects f = none ∧ f ≠ opening.addr) ∧
      ∀ newDomain, opening.search.newDomain? = some newDomain →
        s.objects newDomain = none ∧ newDomain ≠ opening.addr

/-- The addresses that a search allocates are free. -/
def Lookup.Fresh (lookup : Lookup) (s : Connector) : Prop :=
  (∀ f ∈ lookup.detours, s.objects f = none) ∧
    ∀ newDomain, lookup.search.newDomain? = some newDomain → s.objects newDomain = none

/-- A domain that an earlier search left is still allocated in a later one. -/
def Lookup.Before (earlier later : Lookup) : Prop :=
  ∀ newDomain, earlier.search.newDomain? = some newDomain →
    newDomain ∉ later.detours ∧ later.search.newDomain? ≠ some newDomain

/-- Memory that a query allocates is not in use. -/
def Fresh (s : Connector) : Query → Prop
  | .copies => True
  | .lookup detours => ∀ f ∈ detours, s.objects f = none
  | .groupInfoByName lookup => lookup.Fresh s
  | .objectGet lookups => (∀ lookup ∈ lookups, lookup.Fresh s) ∧ lookups.Pairwise Lookup.Before
  | .linkIterate opening => opening.Fresh s
  | .attrIterate copy _ | .visit copy _ _ => s.objects copy = none
  | .attrIterateByName detours _ opening | .visitByName detours _ opening _ =>
      (∀ f ∈ detours, s.objects f = none) ∧ opening.Fresh s

/-- The entries of the files that a search opens and closes. -/
def filesOf (detours : List Addr) : List (ObjType × Key) :=
  detours.map fun f => (.file, keyOf f .file)

/-- The entries that the searches of `RV_object_get` remove. -/
def searchEntries : List Lookup → List (ObjType × Key)
  | [] => []
  | lookup :: rest => filesOf lookup.detours ++
      match lookup.search with
      | .missed | .aborted _ _ => []
      | .inside => searchEntries rest
      | .lost newDomain => [(.file, keyOf newDomain .file)]
      | .external newDomain => (.file, keyOf newDomain .file) :: searchEntries rest

/-- The domain of the location is not replaced. -/
def KeepsDomain : Search → Prop
  | .missed | .inside | .aborted _ _ => True
  | .lost _ | .external _ => False

/-- The type of the object that is opened. -/
def openedType (found : ObjType) : ObjType := if found = .file then .group else found

/-- A count that has come round to zero is not counted further. -/
def HasRoom (refCount : UInt32) (below : List Bool) : Prop :=
  refCount ≠ 0 ∨ below.head? ≠ some true

/-- The open call allocates an object. -/
def Opens (found : ObjType) (o : RVObject) : Prop :=
  found ≠ .attr ∧ o.objType ∈ containers ∧ (openedType found = .group → o.hasPath = true)

section Harmless

variable (spared : List (ObjType × Key) → Prop)

/-- An opening that leaves the location as it was: the domain is not lost on the way; an object in the
location's file is closed, through a handle of its own type, and as often as it is counted; and the entries
that are overwritten or removed are not the location's. -/
def Opening.Harmless (opening : Opening) (found : ObjType) (below : List Bool) (o domain : RVObject) :
    Prop :=
  let t := openedType found
  match opening.search with
  | .lost _ => False
  | .missed | .aborted _ _ => spared ((t, keyOf o.domain t) :: filesOf opening.detours)
  | .inside => spared ((t, keyOf o.domain t) :: filesOf opening.detours) ∧
      (opening.completes = true →
        opening.registers = true ∧ (found = t ↔ ∀ pathSet ∈ below, pathSet = true) ∧
          HasRoom (domain.refCount + 1) below)
  | .external newDomain =>
      if opening.completes = true ∧ (opening.registers = false ∨ found ≠ t) then
        spared ((t, keyOf newDomain t) :: ((if opening.registers = true ∧ false ∈ below then
          [(.file, keyOf newDomain .file)] else []) ++ filesOf opening.detours))
      else
        spared ((t, keyOf newDomain t) :: (.file, keyOf newDomain .file) :: filesOf opening.detours) ∧
          (opening.completes = true → ∀ pathSet ∈ below, pathSet = true)

/-- A copy that leaves the location as it was: it is not made; or it is one of a file and gets no handle; or
closing it gives back just what was taken, and does not remove the location's entry. -/
def CopyExit.Harmless (D : DefaultLists) (taken : Ids → List Hid) (removes : Prop) (below : List Bool)
    (ids : Ids) (o domain : RVObject) : CopyExit → Prop
  | .refused => True
  | .during _ => False
  | .unregistered => o.objType = .file ∧ o.hasPath = true
  | .registered => o.hasPath = true ∧ (taken ids).Perm (givenBack D ids) ∧
      (∀ pathSet ∈ below, pathSet = true) ∧
        (o.objType ≠ .file → HasRoom (domain.refCount + 1) below) ∧
          (removes → spared [(o.objType, o.key)])

end Harmless

/-- The location's entry, if it has one, is not one of these. -/
def Spared (s : Session) (p : Addr) (o : RVObject) (entries : List (ObjType × Key)) : Prop :=
  s.conn.table o.objType o.key = some p → (o.objType, o.key) ∉ entries

/-- The queries that leave the object they start from as it was. -/
def Harmless (D : DefaultLists) (s : Session) (p : Addr) (o domain : RVObject) : Query → Prop
  | .copies => True
  | .lookup detours => Spared s p o (filesOf detours)
  | .groupInfoByName lookup => o.objType ∈ containers →
      KeepsDomain lookup.search ∧ Spared s p o (filesOf lookup.detours)
  | .objectGet lookups => Spared s p o (searchEntries lookups)
  | .linkIterate opening => Opens .group o → opening.Harmless (Spared s p o) .group [] o domain
  | .attrIterate _ exit =>
      exit.Harmless (Spared s p o) D (takenByIterate D) (o.objType = .file → o.refCount = 1) []
        (s.fields p).ids o domain
  | .visit _ exit below =>
      exit.Harmless (Spared s p o) D (takenByVisit D) True (groupsBelow o.objType below)
        (s.fields p).ids o domain
  | .attrIterateByName detours found opening => Spared s p o (filesOf detours) ∧
      ∀ t, found = some t → Opens t o → opening.Harmless (Spared s p o) t [] o domain
  | .visitByName detours found opening below => Spared s p o (filesOf detours) ∧
      match found with
      | none => opening.pathSet = true ∧ Spared s p o (filesOf opening.detours)
      | some t => Opens t o → opening.Harmless (Spared s p o) t (groupsBelow t below) o domain

end XHDF5.Client.Queries
