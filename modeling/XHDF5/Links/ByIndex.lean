/-
# Links and attributes by index

An entry of a group or of an object is asked for by its index. The server lists the entries, a
callback takes the name at the index, and what has the name is looked up. The callback for links
counts from the end with the length of another member of a union, the one for attributes compares
the index with the length before it is set, and the name of a link is looked up from the location
that the call was given and not from the group that the path leads to.
-/

import XHDF5.Client.Url
import XHDF5.Links.Find
import XHDF5.Links.Traverse
import XHDF5.Math.Document

namespace XHDF5.Links

open XHDF5.Math XHDF5.Client

/-! ## The callbacks -/

/-- The index of an `H5VL_loc_by_idx_t`, its order, and whether it counts by creation order. -/
structure IndexParams where
  n : Nat
  order : IterOrder
  byCreation : Bool

/-- The loop over the members of a link: the last title, where every title is a string. -/
def linkTitle : List (Text × Text × Text × Doc) → Option Text → Option Text
  | [], parsed => parsed
  | (_, key, _, value) :: members, parsed =>
      if key = lit "title" then value.string?.bind fun title => linkTitle members (some title)
      else linkTitle members parsed

/-- `RV_copy_link_name_by_index`, given the parse tree of the response. -/
def rvCopyLinkNameByIndex (tree : Option Doc) (idx : IndexParams) : Outcome Text :=
  match (tree.bind fun tree => tree.member (lit "links")).bind Doc.items? with
  | none => .fail
  | some items =>
      if items.length = 0 then .fail
      else if idx.n ≥ items.length then .fail
      else
        match idx.order with
        -- `u.object.len` of a value whose union holds an array.
        | .dec => .undefined
        | .native | .inc =>
            match items[idx.n]? with
            | some (.object members _) =>
                match linkTitle members none with
                | none => .fail
                | some title => .ok title
            | _ => .undefined

/-- The key at an index, if there is one. -/
def keyAt (keys : List Text) (index : Nat) : Outcome Text :=
  match keys[index]? with
  | none => .undefined
  | some key => .ok key

/-- The keys of an object. -/
def objectKeys : Doc → Option (List Text)
  | .object members _ => some (members.map fun m => m.2.1)
  | _ => none

/-- `RV_copy_attribute_name_by_index`, given the parse tree of the response. The index is still zero
when it is compared with the number of attributes, and a difference below zero wraps. -/
def rvCopyAttributeNameByIndex (tree : Option Doc) (idx : IndexParams) : Outcome Text :=
  match (tree.bind fun tree => tree.member (lit "attributes")).bind objectKeys with
  | none => .fail
  | some keys =>
      let index := 0
      if keys.length = 0 then .fail
      else if index ≥ keys.length then .fail
      else
        let index := idx.n
        match idx.order with
        | .dec =>
            if index ≤ keys.length - 1 then keyAt keys (keys.length - 1 - index) else .undefined
        | .native | .inc => keyAt keys index

/-! ## Listings -/

/-- An object of a listing, with one title. -/
def IsLinkEntry (entry : Doc) (name : Text) : Prop :=
  ∃ before lead colon after close, entry =
      .object (before ++ (lead, lit "title", colon, .string name) :: after) close ∧
    ∀ m ∈ before ++ after, m.2.1 ≠ lit "title"

/-- The links of a group as the server lists them. -/
structure LinkListing where
  tree : Doc
  names : List Text
  lists : ∃ items close, tree.member (lit "links") = some (.array items close) ∧
    List.Forall₂ (fun item name => IsLinkEntry item.2 name) items names

/-- The attributes of an object as the server lists them. -/
structure AttributeListing where
  tree : Doc
  names : List Text
  lists : ∃ members close, tree.member (lit "attributes") = some (.object members close) ∧
    names = members.map fun m => m.2.1

/-- The entry at an index, counted from the start or from the end. -/
def entryAt (names : List Text) (idx : IndexParams) : Option Text :=
  match idx.order with
  | .dec => names.reverse[idx.n]?
  | .native | .inc => names[idx.n]?

/-- What a callback is to return. -/
def namedOrFail : Option Text → Outcome Text
  | none => .fail
  | some name => .ok name

section Listings

variable {idx : IndexParams}

theorem entryAt_eq_none_iff {names : List Text} :
    entryAt names idx = none ↔ names.length ≤ idx.n := by
  rw [entryAt]
  cases idx.order with
  | dec => rw [List.getElem?_eq_none_iff, List.length_reverse]
  | native | inc => exact List.getElem?_eq_none_iff

theorem linkTitle_of_ne {members : List (Text × Text × Text × Doc)} {parsed : Option Text}
    (h : ∀ m ∈ members, m.2.1 ≠ lit "title") : linkTitle members parsed = parsed := by
  induction members with
  | nil => rfl
  | cons m members ih =>
      obtain ⟨hm, hmembers⟩ := List.forall_mem_cons.mp h
      obtain ⟨lead, key, colon, value⟩ := m
      rw [linkTitle, if_neg hm, ih hmembers]

/-- The title of an entry is found. -/
theorem linkTitle_entry {before after : List (Text × Text × Text × Doc)} {lead colon name : Text}
    {parsed : Option Text} (h : ∀ m ∈ before ++ after, m.2.1 ≠ lit "title") :
    linkTitle (before ++ (lead, lit "title", colon, .string name) :: after) parsed = some name := by
  induction before with
  | nil =>
      rw [List.nil_append, linkTitle, if_pos rfl]
      exact linkTitle_of_ne h
  | cons m before ih =>
      obtain ⟨hm, hrest⟩ := List.forall_mem_cons.mp h
      obtain ⟨mlead, key, mcolon, value⟩ := m
      rw [List.cons_append, linkTitle, if_neg hm]
      exact ih hrest

/-- What the callback for links does with a listing. -/
theorem rvCopyLinkNameByIndex_eq (l : LinkListing) (idx : IndexParams) :
    rvCopyLinkNameByIndex (some l.tree) idx =
      if idx.n < l.names.length ∧ idx.order = .dec then .undefined
      else namedOrFail (entryAt l.names idx) := by
  obtain ⟨items, close, hitems, hentries⟩ := l.lists
  have hlen : (items.map Prod.snd).length = l.names.length := by
    rw [List.length_map, hentries.length_eq]
  rw [rvCopyLinkNameByIndex, Option.bind_some, hitems, Option.bind_some, Doc.items?]
  simp only [hlen]
  by_cases hn : idx.n < l.names.length
  · have hzero : ¬ l.names.length = 0 := by omega
    have hbound : ¬ idx.n ≥ l.names.length := by omega
    rw [if_neg hzero, if_neg hbound]
    have hitem (h : idx.order ≠ .dec) : entryAt l.names idx = some l.names[idx.n] := by
      rw [entryAt]
      cases horder : idx.order with
      | dec => exact absurd horder h
      | native | inc => exact List.getElem?_eq_getElem hn
    have hindex : idx.n < items.length := by rwa [hentries.length_eq]
    obtain ⟨before, lead, colon, after, close, hentry, htitle⟩ := hentries.get hindex hn
    have hobject : (items.map Prod.snd)[idx.n]? = some (.object
        (before ++ (lead, lit "title", colon, .string l.names[idx.n]) :: after) close) := by
      rw [List.getElem?_map, List.getElem?_eq_getElem hindex, Option.map_some]
      exact congrArg some hentry
    cases horder : idx.order with
    | dec => rw [if_pos ⟨hn, rfl⟩]
    | native | inc =>
        rw [if_neg (by simp), hitem (by rw [horder]; decide)]
        simp only [hobject, linkTitle_entry htitle, namedOrFail]
  · have hbound : idx.n ≥ l.names.length := Nat.le_of_not_lt hn
    rw [if_neg fun h : idx.n < l.names.length ∧ idx.order = .dec => hn h.1,
      entryAt_eq_none_iff.mpr hbound, if_pos hbound, ite_self]
    rfl

/-- What the callback for attributes does with a listing. -/
theorem rvCopyAttributeNameByIndex_eq (l : AttributeListing) (idx : IndexParams) :
    rvCopyAttributeNameByIndex (some l.tree) idx =
      if l.names ≠ [] ∧ l.names.length ≤ idx.n then .undefined
      else namedOrFail (entryAt l.names idx) := by
  obtain ⟨members, close, hmembers, hnames⟩ := l.lists
  rw [rvCopyAttributeNameByIndex, Option.bind_some, hmembers, Option.bind_some, objectKeys,
    ← hnames]
  simp only
  by_cases hempty : l.names = []
  · have hzero : l.names.length = 0 := by rw [hempty, List.length_nil]
    rw [if_pos hzero, if_neg fun h : l.names ≠ [] ∧ l.names.length ≤ idx.n => h.1 hempty,
      entryAt_eq_none_iff.mpr (by omega)]
    rfl
  · have hpos := List.length_pos_iff.mpr hempty
    have hzero : ¬ l.names.length = 0 := by omega
    have hbound : ¬ 0 ≥ l.names.length := by omega
    rw [if_neg hzero, if_neg hbound]
    by_cases hn : idx.n < l.names.length
    · have hinside : ¬ (l.names ≠ [] ∧ l.names.length ≤ idx.n) := fun h => by omega
      have hwrap : idx.n ≤ l.names.length - 1 := by omega
      rw [if_neg hinside, entryAt]
      cases idx.order with
      | dec =>
          simp only
          rw [if_pos hwrap, keyAt, List.getElem?_reverse hn, List.getElem?_eq_getElem (by omega)]
          rfl
      | native | inc =>
          simp only
          rw [keyAt, List.getElem?_eq_getElem hn]
          rfl
    · have hwrap : ¬ idx.n ≤ l.names.length - 1 := by omega
      rw [if_pos (⟨hempty, by omega⟩ : l.names ≠ [] ∧ l.names.length ≤ idx.n)]
      cases idx.order with
      | dec =>
          simp only
          rw [if_neg hwrap]
      | native | inc =>
          simp only
          rw [keyAt, List.getElem?_eq_none (by omega)]

end Listings

/-! ## The operations -/

/-- A server, with what a version from 0.8.0 on finds behind a path, which is what HDF5 finds, and
with its answers to the requests for the links of a group and for an object with its attributes. -/
structure IndexServer extends LinkServer where
  modern : Bool
  resolve : ObjectRef → List Text → Option ObjectRef
  resolve_iff : ∀ start path object, resolve start path = some object ↔
    Resolves toLinkServer.graph start path object
  links : ObjectRef → Option LinkListing
  attributes : Text → ObjectRef → Option AttributeListing

/-- `request_idx_type`. -/
def IndexParams.requestIdxType (idx : IndexParams) : Text :=
  if idx.byCreation then lit "&CreateOrder=1" else []

/-- What a lookup found: an object and its type. -/
abbrev Found := Option (ObjectRef × ObjType)

/-- The object that an attribute is attached to: the location for `.`, or what the lookup of the
path found. -/
def attachedTo (loc : LocObject) (path : Text) (found : Found) : Found :=
  if path = ['.'] then some (⟨loc.domain, loc.uri⟩, loc.type) else found

namespace IndexServer

variable (s : IndexServer) (loc : LocObject) (idx : IndexParams)

/-- The type of an object. -/
def typeOf (object : ObjectRef) : Option ObjType :=
  (s.store object.domain).bind fun d => d.objects object.uri

/-- `RV_find_object_by_path` with a type that is not `H5I_UNINIT`. -/
def findTyped (path : Text) (type : ObjType) : Found :=
  if s.modern then
    (rvFindObjectByPathUrl s.escape s.baseURL loc.uri path).bind fun _ =>
      (s.store loc.domain).bind fun d =>
        (s.resolve ⟨loc.domain, if (preparePath path).2 then loc.uri else d.root⟩
          (components (s.unescape (h5RestUrlEncodePath s.escape (preparePath path).1)))).bind
            fun object => (s.typeOf object).map fun type => (object, type)
  else
    (requestedType loc path (some type)).bind fun asked =>
      (answerOf s.toLinkServer loc path asked).map fun object => (object, asked)

/-- The URL of the links of a group. -/
def linksUrl (group : Text) : Option Text :=
  checkUrl (s.baseURL ++ lit "/groups/" ++ group ++ lit "/links?" ++ idx.requestIdxType)

/-- The URL of an object. -/
def objectUrl (object : ObjectRef) (type : ObjType) : Option Text :=
  (rvSetObjectTypeHeader type).bind fun header =>
    checkUrl (s.baseURL ++ lit "/" ++ header ++ lit "/" ++ object.uri)

/-- The second part of `RV_object_get` for `H5Oget_info_by_idx`: the name of the entry is looked up
from the location, with the type that the first lookup left. -/
def infoOfEntry (type : ObjType) (name : Text) : Outcome (ObjectRef × ObjType) :=
  match s.findTyped loc name type with
  | none => .fail
  | some (object, type) =>
      match s.objectUrl object type with
      | none => .fail
      | some _ =>
          if type = .group ∨ type = .datatype ∨ type = .dataset then .ok (object, type) else .fail

/-- `RV_object_get` for `H5Oget_info_by_idx`, given what the lookup of the path found: the object
that the info is from. The links are asked for in the domain of the location. -/
def rvObjectGetInfoByIdx : Found → Outcome (ObjectRef × ObjType)
  | none => .fail
  | some (group, type) =>
      if type ≠ .group ∧ type ≠ .file then .fail
      else if idx.byCreation = true ∧ s.modern = false then .fail
      else
        match s.linksUrl idx group.uri, s.links ⟨loc.domain, group.uri⟩ with
        | some _, some listing =>
            (rvCopyLinkNameByIndex (some listing.tree) idx).bind (s.infoOfEntry loc type)
        | _, _ => .fail

/-- The URL of an object with its attributes. -/
def attributesUrl (header object : Text) : Option Text :=
  checkUrl (s.baseURL ++ lit "/" ++ header ++ lit "/" ++ object ++ lit "?" ++ idx.requestIdxType ++
    lit "&include_attrs=1")

/-- The URL of an attribute. -/
def attributeUrl (header object name : Text) : Option Text :=
  checkUrl (s.baseURL ++ lit "/" ++ header ++ lit "/" ++ object ++ lit "/attributes/" ++
    curlEasyEscape s.escape name)

/-- The second part of `RV_attr_open` for `H5Aopen_by_idx`: all requests go to the domain of the
location. -/
def openNamed (header object name : Text) : Outcome (ObjectRef × Text) :=
  match s.attributeUrl header object name with
  | none => .fail
  | some _ => .ok (⟨loc.domain, object⟩, name)

/-- `RV_attr_open` for `H5Aopen_by_idx`: the object and the name of the attribute that is opened. -/
def rvAttrOpenByIdx (path : Text) (found : Found) : Outcome (ObjectRef × Text) :=
  if idx.byCreation = true ∧ s.modern = false then .fail
  else
    match attachedTo loc path found with
    | none => .fail
    | some (object, type) =>
        match rvSetObjectTypeHeader type with
        | none => .fail
        | some header =>
            match s.attributesUrl idx header object.uri,
              s.attributes header ⟨loc.domain, object.uri⟩ with
            | some _, some listing =>
                (rvCopyAttributeNameByIndex (some listing.tree) idx).bind
                  (s.openNamed loc header object.uri)
            | _, _ => .fail

end IndexServer

/-! ## Acting on the entry -/

/-- An index by creation order needs a server that knows it. -/
def IndexServer.Supports (s : IndexServer) (idx : IndexParams) : Prop :=
  idx.byCreation = true → s.modern = true

/-- There is info about groups, datatypes and datasets. -/
def HasInfo (type : ObjType) : Prop := type = .group ∨ type = .datatype ∨ type = .dataset

section Entries

variable (s : IndexServer) (loc : LocObject) (idx : IndexParams)

/-- The entry at the index of a group leads to an object. -/
def LeadsFromGroup (group : ObjectRef) (object : ObjectRef × ObjType) : Prop :=
  ∃ listing name, s.links group = some listing ∧ entryAt listing.names idx = some name ∧
    Resolves s.graph group [name] object.1 ∧ s.typeOf object.1 = some object.2 ∧ HasInfo object.2

/-- The path leads to a group whose entry at the index leads to the object. -/
def EntryObject (found : Found) (object : ObjectRef × ObjType) : Prop :=
  ∃ group type, found = some (group, type) ∧ (type = .group ∨ type = .file) ∧ s.Supports idx ∧
    LeadsFromGroup s idx group object

/-- The attribute at the index of an object, whose type has a collection. -/
def AttributeOf (object : ObjectRef) (header : Text) (opened : ObjectRef × Text) : Prop :=
  ∃ listing name, s.attributes header object = some listing ∧
    entryAt listing.names idx = some name ∧ opened = (object, name)

/-- The path leads to an object with the attribute at the index. -/
def EntryAttribute (found : Found) (opened : ObjectRef × Text) : Prop :=
  ∃ object type header, found = some (object, type) ∧ rvSetObjectTypeHeader type = some header ∧
    s.Supports idx ∧ AttributeOf s idx object header opened

/-- A name leads from the location to an object: over all links on a new server, over hard links and
only to an object of the type that is asked for on an old one. -/
def LeadsFrom (name : Text) (type : ObjType) (object : ObjectRef × ObjType) : Prop :=
  if s.modern then
    (rvFindObjectByPathUrl s.escape s.baseURL loc.uri name).isSome ∧
      ∃ d, s.store loc.domain = some d ∧
        Resolves s.graph ⟨loc.domain, if (preparePath name).2 then loc.uri else d.root⟩
          (components (s.unescape (h5RestUrlEncodePath s.escape (preparePath name).1))) object.1 ∧
        s.typeOf object.1 = some object.2
  else
    requestedType loc name (some type) = some object.2 ∧
      answerOf s.toLinkServer loc name object.2 = some object.1

/-- The list that is asked for in the domain of the location has a name at the index, and the name
leads from the location to the object; the URLs are not too long. -/
def LeadsFromLocation (group : ObjectRef) (type : ObjType) (object : ObjectRef × ObjType) : Prop :=
  ∃ listing name, (s.linksUrl idx group.uri).isSome ∧
    s.links ⟨loc.domain, group.uri⟩ = some listing ∧ entryAt listing.names idx = some name ∧
    LeadsFrom s loc name type object ∧ (s.objectUrl object.1 object.2).isSome ∧ HasInfo object.2

end Entries

/-- A callback on a listing, or a call with a location, a path and what the lookup of it found. -/
inductive IndexCall
  | linkName (listing : LinkListing)
  | attributeName (listing : AttributeListing)
  | objectInfo (s : IndexServer) (loc : LocObject) (found : Found)
  | attributeOpen (s : IndexServer) (loc : LocObject) (path : Text) (found : Found)

/-- The callbacks return the name of the entry at the index and fail where there is none; the calls
act on the object or the attribute of this entry and fail where there is none. -/
def ActsOnEntry (idx : IndexParams) : IndexCall → Prop
  | .linkName listing =>
      rvCopyLinkNameByIndex (some listing.tree) idx = namedOrFail (entryAt listing.names idx)
  | .attributeName listing =>
      rvCopyAttributeNameByIndex (some listing.tree) idx = namedOrFail (entryAt listing.names idx)
  | .objectInfo s loc found =>
      s.rvObjectGetInfoByIdx loc idx found ≠ .undefined ∧ ∀ object,
        s.rvObjectGetInfoByIdx loc idx found = .ok object ↔ EntryObject s idx found object
  | .attributeOpen s loc path found =>
      s.rvAttrOpenByIdx loc idx path found ≠ .undefined ∧ ∀ opened,
        s.rvAttrOpenByIdx loc idx path found = .ok opened ↔
          EntryAttribute s idx (attachedTo loc path found) opened

/-- The list of links that is asked for is not counted from the end. -/
def LinksFit (s : IndexServer) (loc : LocObject) (idx : IndexParams) (group : Text) : Prop :=
  ∀ listing, (s.linksUrl idx group).isSome → s.links ⟨loc.domain, group⟩ = some listing →
    idx.order = .dec → listing.names.length ≤ idx.n

/-- The index is in the list of attributes that is asked for, or the list is empty. -/
def AttributesFit (s : IndexServer) (loc : LocObject) (idx : IndexParams) (header object : Text) :
    Prop :=
  ∀ listing, (s.attributesUrl idx header object).isSome →
    s.attributes header ⟨loc.domain, object⟩ = some listing → listing.names ≠ [] →
      idx.n < listing.names.length

/-- The attribute at the index of the list that is asked for in the domain of the location; the URLs
are not too long. -/
def AttributeAtLocation (s : IndexServer) (loc : LocObject) (idx : IndexParams)
    (header object : Text) (opened : ObjectRef × Text) : Prop :=
  AttributeOf s idx ⟨loc.domain, object⟩ header opened ∧
    (s.attributesUrl idx header object).isSome ∧ (s.attributeUrl header object opened.2).isSome

/-- Links are not counted from the end, and attributes not beyond their last. An object is found
when the name of the entry leads to it from the location and from the group or from neither, and
an attribute when it is one of the object with this URI in the domain of the location, with URLs
that are not too long, and one of the object that the path leads to, or neither. -/
def IndexFits (idx : IndexParams) : IndexCall → Prop
  | .linkName listing => idx.order = .dec → listing.names.length ≤ idx.n
  | .attributeName listing => listing.names ≠ [] → idx.n < listing.names.length
  | .objectInfo s loc found => ∀ group type, found = some (group, type) →
      (type = .group ∨ type = .file) → s.Supports idx →
        LinksFit s loc idx group.uri ∧
        ∀ object, LeadsFromLocation s loc idx group type object ↔ LeadsFromGroup s idx group object
  | .attributeOpen s loc path found => ∀ object type header,
      attachedTo loc path found = some (object, type) → rvSetObjectTypeHeader type = some header →
        s.Supports idx →
          AttributesFit s loc idx header object.uri ∧
          ∀ opened, AttributeAtLocation s loc idx header object.uri opened ↔
            AttributeOf s idx object header opened

/-! ## When the calls act on the entry -/

section Exact

variable {s : IndexServer} {loc : LocObject} {idx : IndexParams}

theorem namedOrFail_ok_iff {entry : Option Text} {name : Text} :
    namedOrFail entry = .ok name ↔ entry = some name := by
  cases entry with
  | none => exact iff_of_false nofun nofun
  | some other => exact ⟨fun h => congrArg some (Outcome.ok.inj h), fun h => by cases h; rfl⟩

theorem namedOrFail_ne_undefined (entry : Option Text) : namedOrFail entry ≠ .undefined := by
  cases entry with
  | none | some name => nofun

/-- What the second lookup finds. -/
theorem findTyped_iff {name : Text} {type : ObjType} {object : ObjectRef × ObjType} :
    s.findTyped loc name type = some object ↔ LeadsFrom s loc name type object := by
  obtain ⟨ref, asked⟩ := object
  rw [IndexServer.findTyped, LeadsFrom]
  cases s.modern with
  | true =>
      simp only [if_true, Option.bind_eq_some_iff, Option.map_eq_some_iff, s.resolve_iff,
        Option.isSome_iff_exists, Prod.mk.injEq]
      constructor
      · rintro ⟨url, hurl, d, hd, found, hfound, other, htype, rfl, rfl⟩
        exact ⟨⟨url, hurl⟩, d, hd, hfound, htype⟩
      · rintro ⟨⟨url, hurl⟩, d, hd, hfound, htype⟩
        exact ⟨url, hurl, d, hd, ref, hfound, asked, htype, rfl, rfl⟩
  | false =>
      simp only [Bool.false_eq_true, if_false, Option.bind_eq_some_iff, Option.map_eq_some_iff,
        Prod.mk.injEq]
      constructor
      · rintro ⟨other, hother, found, hfound, rfl, rfl⟩
        exact ⟨hother, hfound⟩
      · rintro ⟨hasked, hanswer⟩
        exact ⟨asked, hasked, ref, hanswer, rfl, rfl⟩

/-- What the call does with the name of an entry. -/
theorem infoOfEntry_ok_iff {type : ObjType} {name : Text} {object : ObjectRef × ObjType} :
    s.infoOfEntry loc type name = .ok object ↔
      LeadsFrom s loc name type object ∧ (s.objectUrl object.1 object.2).isSome ∧
        HasInfo object.2 := by
  rw [← findTyped_iff, IndexServer.infoOfEntry]
  cases hfound : s.findTyped loc name type with
  | none => exact iff_of_false (by rintro ⟨⟩) fun h => by cases h.1
  | some other =>
      obtain ⟨ref, asked⟩ := other
      simp only
      cases hurl : s.objectUrl ref asked with
      | none =>
          refine iff_of_false (by rintro ⟨⟩) fun h => ?_
          obtain ⟨hobject, hsome, -⟩ := h
          cases hobject
          rw [hurl] at hsome
          cases hsome
      | some url =>
          simp only
          by_cases hinfo : HasInfo asked
          · have hinfo' : asked = .group ∨ asked = .datatype ∨ asked = .dataset := hinfo
            rw [if_pos hinfo', Outcome.ok.injEq, Option.some.injEq]
            refine ⟨fun h => ⟨h, ?_⟩, And.left⟩
            subst h
            exact ⟨by rw [hurl]; rfl, hinfo⟩
          · have hinfo' : ¬ (asked = .group ∨ asked = .datatype ∨ asked = .dataset) := hinfo
            rw [if_neg hinfo']
            refine iff_of_false (by rintro ⟨⟩) fun h => ?_
            obtain ⟨hobject, -, hother⟩ := h
            cases hobject
            exact hinfo hother

theorem infoOfEntry_ne_undefined (type : ObjType) (name : Text) :
    s.infoOfEntry loc type name ≠ .undefined := by
  rw [IndexServer.infoOfEntry]
  cases s.findTyped loc name type with
  | none => rintro ⟨⟩
  | some other =>
      simp only
      cases s.objectUrl other.1 other.2 with
      | none => rintro ⟨⟩
      | some url =>
          simp only
          split
          · rintro ⟨⟩
          · rintro ⟨⟩

theorem not_refused (h : s.Supports idx) : ¬ (idx.byCreation = true ∧ s.modern = false) := by
  rintro ⟨hcreation, hmodern⟩
  rw [h hcreation] at hmodern
  cases hmodern

theorem refused (h : ¬ s.Supports idx) : idx.byCreation = true ∧ s.modern = false := by
  rw [IndexServer.Supports, Classical.not_imp] at h
  exact ⟨h.1, Bool.eq_false_iff.mpr h.2⟩

section Entry

variable {α : Type} {bad : Prop} [Decidable bad] {entry : Option Text} {act : Text → Outcome α}

/-- Acting on what a callback returns is defined when the callback is. -/
theorem bind_entry_ne_undefined_iff (hact : ∀ name, act name ≠ .undefined) :
    Outcome.bind (if bad then .undefined else namedOrFail entry) act ≠ .undefined ↔ ¬ bad := by
  by_cases hbad : bad
  · rw [if_pos hbad]
    exact iff_of_false (fun h => h rfl) fun h => h hbad
  · rw [if_neg hbad]
    exact iff_of_true
      (Outcome.bind_ne_undefined (namedOrFail_ne_undefined entry) fun name _ => hact name) hbad

theorem bind_entry_ok_iff {result : α} (hbad : ¬ bad) :
    Outcome.bind (if bad then .undefined else namedOrFail entry) act = .ok result ↔
      ∃ name, entry = some name ∧ act name = .ok result := by
  rw [if_neg hbad, Outcome.bind_eq_ok_iff]
  exact exists_congr fun name => and_congr_left fun _ => namedOrFail_ok_iff

end Entry

theorem rvObjectGetInfoByIdx_ne_undefined_iff {group : ObjectRef} {type : ObjType}
    (htype : type = .group ∨ type = .file) (hsupports : s.Supports idx) :
    s.rvObjectGetInfoByIdx loc idx (some (group, type)) ≠ .undefined ↔
      LinksFit s loc idx group.uri := by
  have hgroup : ¬ (type ≠ .group ∧ type ≠ .file) := fun h => htype.elim h.1 h.2
  simp only [IndexServer.rvObjectGetInfoByIdx]
  rw [if_neg hgroup, if_neg (not_refused hsupports), LinksFit]
  cases s.linksUrl idx group.uri with
  | none => exact iff_of_true nofun nofun
  | some url =>
      cases s.links ⟨loc.domain, group.uri⟩ with
      | none => exact iff_of_true nofun nofun
      | some listing =>
          simp only [rvCopyLinkNameByIndex_eq]
          rw [bind_entry_ne_undefined_iff fun name => infoOfEntry_ne_undefined type name]
          constructor
          · rintro h other - hother horder
            cases hother
            exact Nat.le_of_not_lt fun hn => h ⟨hn, horder⟩
          · rintro h ⟨hn, horder⟩
            exact absurd hn (Nat.not_lt.mpr (h listing rfl rfl horder))

theorem rvObjectGetInfoByIdx_ok_iff {group : ObjectRef} {type : ObjType}
    {object : ObjectRef × ObjType} (htype : type = .group ∨ type = .file)
    (hsupports : s.Supports idx) (hlinks : LinksFit s loc idx group.uri) :
    s.rvObjectGetInfoByIdx loc idx (some (group, type)) = .ok object ↔
      LeadsFromLocation s loc idx group type object := by
  have hgroup : ¬ (type ≠ .group ∧ type ≠ .file) := fun h => htype.elim h.1 h.2
  simp only [IndexServer.rvObjectGetInfoByIdx]
  rw [if_neg hgroup, if_neg (not_refused hsupports), LeadsFromLocation]
  rw [LinksFit] at hlinks
  cases hurl : s.linksUrl idx group.uri with
  | none => exact iff_of_false nofun fun ⟨_, _, h, _⟩ => nomatch h
  | some url =>
      cases hlisting : s.links ⟨loc.domain, group.uri⟩ with
      | none => exact iff_of_false nofun fun ⟨_, _, _, h, _⟩ => nomatch h
      | some listing =>
          have hbad : ¬ (idx.n < listing.names.length ∧ idx.order = .dec) := fun h =>
            Nat.not_lt.mpr (hlinks listing (by rw [hurl]; rfl) hlisting h.2) h.1
          simp only [rvCopyLinkNameByIndex_eq]
          rw [bind_entry_ok_iff hbad]
          constructor
          · rintro ⟨name, hname, hinfo⟩
            exact ⟨listing, name, rfl, rfl, hname, infoOfEntry_ok_iff.mp hinfo⟩
          · rintro ⟨other, name, -, hother, hname, hinfo⟩
            cases hother
            exact ⟨name, hname, infoOfEntry_ok_iff.mpr hinfo⟩

theorem openNamed_ok_iff {header object name : Text} {opened : ObjectRef × Text} :
    s.openNamed loc header object name = .ok opened ↔
      opened = (⟨loc.domain, object⟩, name) ∧ (s.attributeUrl header object opened.2).isSome := by
  rw [IndexServer.openNamed]
  cases hurl : s.attributeUrl header object name with
  | none =>
      refine iff_of_false nofun fun h => ?_
      obtain ⟨rfl, hsome⟩ := h
      rw [hurl] at hsome
      cases hsome
  | some url =>
      refine ⟨fun h => ?_, fun h => by rw [h.1]⟩
      cases h
      exact ⟨rfl, by rw [hurl]; rfl⟩

theorem openNamed_ne_undefined (header object name : Text) :
    s.openNamed loc header object name ≠ .undefined := by
  rw [IndexServer.openNamed]
  cases s.attributeUrl header object name with
  | none | some url => nofun

theorem rvAttrOpenByIdx_ne_undefined_iff {path header : Text} {found : Found} {object : ObjectRef}
    {type : ObjType} (hfound : attachedTo loc path found = some (object, type))
    (hheader : rvSetObjectTypeHeader type = some header) (hsupports : s.Supports idx) :
    s.rvAttrOpenByIdx loc idx path found ≠ .undefined ↔
      AttributesFit s loc idx header object.uri := by
  simp only [IndexServer.rvAttrOpenByIdx, hfound, hheader]
  rw [if_neg (not_refused hsupports), AttributesFit]
  cases s.attributesUrl idx header object.uri with
  | none => exact iff_of_true nofun nofun
  | some url =>
      cases s.attributes header ⟨loc.domain, object.uri⟩ with
      | none => exact iff_of_true nofun nofun
      | some listing =>
          simp only [rvCopyAttributeNameByIndex_eq]
          rw [bind_entry_ne_undefined_iff fun name => openNamed_ne_undefined header object.uri name]
          constructor
          · rintro h other - hother hnames
            cases hother
            exact Nat.lt_of_not_le fun hn => h ⟨hnames, hn⟩
          · rintro h ⟨hnames, hn⟩
            exact absurd (h listing rfl rfl hnames) (Nat.not_lt.mpr hn)

theorem rvAttrOpenByIdx_ok_iff {path header : Text} {found : Found} {object : ObjectRef}
    {type : ObjType} {opened : ObjectRef × Text}
    (hfound : attachedTo loc path found = some (object, type))
    (hheader : rvSetObjectTypeHeader type = some header) (hsupports : s.Supports idx)
    (hattributes : AttributesFit s loc idx header object.uri) :
    s.rvAttrOpenByIdx loc idx path found = .ok opened ↔
      AttributeAtLocation s loc idx header object.uri opened := by
  simp only [IndexServer.rvAttrOpenByIdx, hfound, hheader]
  rw [if_neg (not_refused hsupports), AttributeAtLocation, AttributeOf]
  rw [AttributesFit] at hattributes
  cases hurl : s.attributesUrl idx header object.uri with
  | none => exact iff_of_false nofun fun ⟨_, h, _⟩ => nomatch h
  | some url =>
      cases hlisting : s.attributes header ⟨loc.domain, object.uri⟩ with
      | none => exact iff_of_false nofun fun ⟨⟨_, _, h, _⟩, _⟩ => nomatch h
      | some listing =>
          have hbad : ¬ (listing.names ≠ [] ∧ listing.names.length ≤ idx.n) := fun h =>
            Nat.not_le.mpr (hattributes listing (by rw [hurl]; rfl) hlisting h.1) h.2
          simp only [rvCopyAttributeNameByIndex_eq]
          rw [bind_entry_ok_iff hbad]
          constructor
          · rintro ⟨name, hname, hopened⟩
            obtain ⟨hopened, hsome⟩ := openNamed_ok_iff.mp hopened
            exact ⟨⟨listing, name, rfl, hname, hopened⟩, rfl, hsome⟩
          · rintro ⟨⟨other, name, hother, hname, hopened⟩, -, hsome⟩
            cases hother
            exact ⟨name, hname, openNamed_ok_iff.mpr ⟨hopened, hsome⟩⟩

theorem rvObjectGetInfoByIdx_eq_fail {found : Found}
    (h : ¬ ∃ group type, found = some (group, type) ∧ (type = .group ∨ type = .file) ∧
      s.Supports idx) :
    s.rvObjectGetInfoByIdx loc idx found = .fail := by
  cases found with
  | none => rfl
  | some found =>
      obtain ⟨group, type⟩ := found
      by_cases htype : type = .group ∨ type = .file
      · have hgroup : ¬ (type ≠ .group ∧ type ≠ .file) := fun h => htype.elim h.1 h.2
        have hrefused := refused fun hsupports => h ⟨group, type, rfl, htype, hsupports⟩
        simp only [IndexServer.rvObjectGetInfoByIdx]
        rw [if_neg hgroup, if_pos hrefused]
      · have hgroup : type ≠ .group ∧ type ≠ .file := not_or.mp htype
        simp only [IndexServer.rvObjectGetInfoByIdx]
        rw [if_pos hgroup]

theorem rvAttrOpenByIdx_eq_fail {path : Text} {found : Found}
    (h : ¬ ∃ object type header, attachedTo loc path found = some (object, type) ∧
      rvSetObjectTypeHeader type = some header ∧ s.Supports idx) :
    s.rvAttrOpenByIdx loc idx path found = .fail := by
  rw [IndexServer.rvAttrOpenByIdx]
  split
  · rfl
  · next hsupports =>
      have hsupports : s.Supports idx := Classical.byContradiction fun h => hsupports (refused h)
      cases hattached : attachedTo loc path found with
      | none => rfl
      | some object =>
          obtain ⟨object, type⟩ := object
          simp only
          cases hheader : rvSetObjectTypeHeader type with
          | none => rfl
          | some header => exact absurd ⟨object, type, header, hattached, hheader, hsupports⟩ h

theorem entryObject_iff {group : ObjectRef} {type : ObjType} {object : ObjectRef × ObjType}
    (htype : type = .group ∨ type = .file) (hsupports : s.Supports idx) :
    EntryObject s idx (some (group, type)) object ↔ LeadsFromGroup s idx group object := by
  constructor
  · rintro ⟨group', type', hfound, -, -, hleads⟩
    cases hfound
    exact hleads
  · exact fun hleads => ⟨group, type, rfl, htype, hsupports, hleads⟩

theorem entryAttribute_iff {object : ObjectRef} {type : ObjType} {header : Text}
    {opened : ObjectRef × Text} (hheader : rvSetObjectTypeHeader type = some header)
    (hsupports : s.Supports idx) :
    EntryAttribute s idx (some (object, type)) opened ↔ AttributeOf s idx object header opened := by
  constructor
  · rintro ⟨object', type', header', hfound, hheader', -, hopened⟩
    cases hfound
    cases hheader.symm.trans hheader'
    exact hopened
  · exact fun hopened => ⟨object, type, header, rfl, hheader, hsupports, hopened⟩

theorem actsOnEntry_linkName_iff {listing : LinkListing} :
    ActsOnEntry idx (.linkName listing) ↔ IndexFits idx (.linkName listing) := by
  rw [ActsOnEntry, IndexFits, rvCopyLinkNameByIndex_eq]
  by_cases hbad : idx.n < listing.names.length ∧ idx.order = .dec
  · rw [if_pos hbad]
    exact iff_of_false (fun h => namedOrFail_ne_undefined _ h.symm) fun h =>
      Nat.not_lt.mpr (h hbad.2) hbad.1
  · rw [if_neg hbad]
    exact iff_of_true rfl fun horder => Nat.le_of_not_lt fun hn => hbad ⟨hn, horder⟩

theorem actsOnEntry_attributeName_iff {listing : AttributeListing} :
    ActsOnEntry idx (.attributeName listing) ↔ IndexFits idx (.attributeName listing) := by
  rw [ActsOnEntry, IndexFits, rvCopyAttributeNameByIndex_eq]
  by_cases hbad : listing.names ≠ [] ∧ listing.names.length ≤ idx.n
  · rw [if_pos hbad]
    exact iff_of_false (fun h => namedOrFail_ne_undefined _ h.symm) fun h =>
      Nat.not_le.mpr (h hbad.1) hbad.2
  · rw [if_neg hbad]
    exact iff_of_true rfl fun hnames => Nat.lt_of_not_le fun hn => hbad ⟨hnames, hn⟩

theorem actsOnEntry_objectInfo_iff {found : Found} :
    ActsOnEntry idx (.objectInfo s loc found) ↔ IndexFits idx (.objectInfo s loc found) := by
  rw [ActsOnEntry, IndexFits]
  constructor
  · rintro ⟨hdefined, hentry⟩ group type rfl htype hsupports
    have hlinks := (rvObjectGetInfoByIdx_ne_undefined_iff htype hsupports).mp hdefined
    refine ⟨hlinks, fun object => ?_⟩
    rw [← rvObjectGetInfoByIdx_ok_iff htype hsupports hlinks, hentry,
      entryObject_iff htype hsupports]
  · intro hfits
    by_cases h : ∃ group type, found = some (group, type) ∧ (type = .group ∨ type = .file) ∧
        s.Supports idx
    · obtain ⟨group, type, rfl, htype, hsupports⟩ := h
      obtain ⟨hlinks, hleads⟩ := hfits group type rfl htype hsupports
      refine ⟨(rvObjectGetInfoByIdx_ne_undefined_iff htype hsupports).mpr hlinks, fun object => ?_⟩
      rw [rvObjectGetInfoByIdx_ok_iff htype hsupports hlinks, hleads,
        entryObject_iff htype hsupports]
    · rw [rvObjectGetInfoByIdx_eq_fail h]
      refine ⟨nofun, fun object => iff_of_false nofun ?_⟩
      rintro ⟨group, type, hfound, htype, hsupports, -⟩
      exact h ⟨group, type, hfound, htype, hsupports⟩

theorem actsOnEntry_attributeOpen_iff {path : Text} {found : Found} :
    ActsOnEntry idx (.attributeOpen s loc path found) ↔
      IndexFits idx (.attributeOpen s loc path found) := by
  rw [ActsOnEntry, IndexFits]
  constructor
  · rintro ⟨hdefined, hentry⟩ object type header hfound hheader hsupports
    have hattributes := (rvAttrOpenByIdx_ne_undefined_iff hfound hheader hsupports).mp hdefined
    refine ⟨hattributes, fun opened => ?_⟩
    rw [← rvAttrOpenByIdx_ok_iff hfound hheader hsupports hattributes, hentry, hfound,
      entryAttribute_iff hheader hsupports]
  · intro hfits
    by_cases h : ∃ object type header, attachedTo loc path found = some (object, type) ∧
        rvSetObjectTypeHeader type = some header ∧ s.Supports idx
    · obtain ⟨object, type, header, hfound, hheader, hsupports⟩ := h
      obtain ⟨hattributes, hopens⟩ := hfits object type header hfound hheader hsupports
      refine ⟨(rvAttrOpenByIdx_ne_undefined_iff hfound hheader hsupports).mpr hattributes,
        fun opened => ?_⟩
      rw [rvAttrOpenByIdx_ok_iff hfound hheader hsupports hattributes, hopens, hfound,
        entryAttribute_iff hheader hsupports]
    · rw [rvAttrOpenByIdx_eq_fail h]
      refine ⟨nofun, fun opened => iff_of_false nofun ?_⟩
      rintro ⟨object, type, header, hfound, hheader, hsupports, -⟩
      exact h ⟨object, type, header, hfound, hheader, hsupports⟩

/-- The calls by index act on the entry at the index exactly when the index is one that the
callbacks count to, and what they then look up at the location is what the path and the entry lead
to. -/
theorem actsOnEntry_iff (idx : IndexParams) (call : IndexCall) :
    ActsOnEntry idx call ↔ IndexFits idx call := by
  cases call with
  | linkName listing => exact actsOnEntry_linkName_iff
  | attributeName listing => exact actsOnEntry_attributeName_iff
  | objectInfo s loc found => exact actsOnEntry_objectInfo_iff
  | attributeOpen s loc path found => exact actsOnEntry_attributeOpen_iff

end Exact

/-- The list of one attribute. -/
def oneAttribute : AttributeListing where
  tree := .object [([], lit "attributes", [], .object [([], ['a'], [], .object [] [])] [])] []
  names := [['a']]
  lists := ⟨[([], ['a'], [], .object [] [])], [], by simp [Doc.member], rfl⟩

/-- The attribute after the last one is read. -/
theorem not_actsOnEntry_oneAttribute :
    ¬ ∀ idx call, ActsOnEntry idx call := by
  intro h
  have hfits := actsOnEntry_attributeName_iff.mp (h ⟨1, .inc, false⟩ (.attributeName oneAttribute))
  exact absurd (hfits (by decide)) (by decide)

end XHDF5.Links
