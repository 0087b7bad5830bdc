/-
# Creating, finding and deleting a link

All calls get a location and the path of a link. `RV_link_get` and `RV_link_specific` look up the
group that the directory part of the path leads to, and go to the link there. `RV_link_create` takes
the base name alone and puts the link into the location itself.
-/

import XHDF5.Links.Find

namespace XHDF5.Links

open XHDF5.Math XHDF5.Client

/-! ## Changing the links of a group -/

/-- A hard link needs an object to lead to. -/
def Domain.Present (d : Domain) : Link → Prop
  | .hard uri => d.objects uri ≠ none
  | _ => True

instance (d : Domain) : (link : Link) → Decidable (d.Present link)
  | .hard uri => inferInstanceAs (Decidable (d.objects uri ≠ none))
  | .soft _ => isTrue trivial
  | .external _ _ => isTrue trivial

/-- A link can be put where there is none, under a name, into a group. -/
def Domain.Admits (d : Domain) (group name : Text) (link : Link) : Prop :=
  d.objects group = some .group ∧ d.links group name = none ∧ name ≠ [] ∧ d.Present link

instance (d : Domain) (group name : Text) (link : Link) : Decidable (d.Admits group name link) :=
  inferInstanceAs (Decidable (_ ∧ _ ∧ _ ∧ _))

/-- The domain with one more link. -/
def Domain.addLink (d : Domain) (group name : Text) (link : Link) (h : d.Admits group name link) :
    Domain :=
  { d with
    links := fun uri other => if uri = group ∧ other = name then some link else d.links uri other
    links_group := fun uri other found hlink => by
      split at hlink
      · next heq => rw [heq.1, h.1]
      · exact d.links_group uri other found hlink
    hard_exists := fun uri other target hlink => by
      split at hlink
      · cases hlink
        exact Option.ne_none_iff_exists'.mp h.2.2.2
      · exact d.hard_exists uri other target hlink }

/-- The domain without a link. -/
def Domain.removeLink (d : Domain) (group name : Text) : Domain :=
  { d with
    links := fun uri other => if uri = group ∧ other = name then none else d.links uri other
    links_group := fun uri other found hlink => by
      split at hlink
      · cases hlink
      · exact d.links_group uri other found hlink
    hard_exists := fun uri other target hlink => by
      split at hlink
      · cases hlink
      · exact d.hard_exists uri other target hlink }

namespace LinkServer

variable (s : LinkServer)

/-- The server with another state of a file. -/
def setDomain (domain : Text) (d : Domain) : LinkServer :=
  { s with store := Function.update s.store domain (some d) }

/-- `PUT /groups/<id>/links/<name>`: an existing link is not replaced. -/
def putLink (domain group name : Text) (link : Link) : Option LinkServer :=
  (s.store domain).bind fun d =>
    if h : d.Admits group name link then some (s.setDomain domain (d.addLink group name link h))
    else none

/-- `DELETE /groups/<id>/links/<name>`. -/
def deleteLink (domain group name : Text) : Option LinkServer :=
  (s.store domain).bind fun d =>
    if d.links group name = none then none
    else some (s.setDomain domain (d.removeLink group name))

end LinkServer

/-! ## The code -/

/-- The target of a hard link: an object itself, or what `RV_find_object_by_path` finds for its
name. -/
inductive HardTarget
  | bySelf
  | byName (found : Option Text)

/-- `H5VL_link_create_args_t`. The object of a hard link is absent where it is `H5L_SAME_LOC`; of the
user-defined links only external ones are supported. -/
inductive LinkCreateArgs
  | hard (currObj : Option LocObject) (target : HardTarget)
  | soft (target : Text)
  | ud (isExternal : Bool) (filePath linkTarget : Text)

/-- The location of the new link: for a hard link without one it is that of the target. -/
def newLinkLoc (obj : Option LocObject) : LinkCreateArgs → Option LocObject
  | .hard currObj _ => obj <|> currObj
  | _ => obj

/-- `create_request_body`. -/
def createRequestBody (loc : LocObject) : LinkCreateArgs → Option Text
  | .hard currObj target =>
      let targetObj := currObj.getD loc
      if loc.domain ≠ targetObj.domain then none
      else
        (match target with
          | .bySelf => some targetObj.uri
          | .byName found => found).map fun uri => lit "\x7b\"id\": \"" ++ uri ++ lit "\"\x7d"
  | .soft target => some (lit "\x7b\"h5path\": \"" ++ target ++ lit "\"\x7d")
  | .ud isExternal filePath linkTarget =>
      if isExternal then
        some (lit "\x7b\"h5domain\": \"" ++ filePath ++ lit "\", \"h5path\": \"" ++ linkTarget ++
          lit "\"\x7d")
      else none

section Calls

variable (s : LinkServer)

/-- `RV_link_create`. The server reads the link from the body. -/
def rvLinkCreate (readLink : Text → Option Link) (writable : Bool) (obj : Option LocObject)
    (args : LinkCreateArgs) (name : Text) : Option LinkServer :=
  (newLinkLoc obj args).bind fun loc =>
    if loc.type ∉ containers ∨ ¬writable then none
    else
      (createRequestBody loc args).bind fun body =>
        (s.linkUrl loc.uri (h5RestBasename name)).bind fun _ =>
          (readLink body).bind fun link => s.putLink loc.domain loc.uri (h5RestBasename name) link

/-- What `RV_find_object_by_path` answers for the path of a group, with `follow` for the servers that
follow links themselves. -/
def findGroup (follow : LinkServer → LocObject → Text → Option Text) (version : ServerApiVersion)
    (loc : LocObject) (path : Text) : Option Text :=
  if serverVersionMatchesOrExceeds version 0 8 0 then
    (rvFindObjectByPathUrl s.escape s.baseURL loc.uri path).bind fun _ => follow s loc path
  else (typedAnswer s loc path .group).map ObjectRef.uri

variable (follow : LinkServer → LocObject → Text → Option Text) (version : ServerApiVersion)
  (loc : LocObject) (name : Text)

/-- The group that is to have the link. -/
def linkGroup : Option Text :=
  if h5RestDirname name = [] then some loc.uri
  else findGroup s follow version loc (h5RestDirname name)

/-- The link that `RV_link_get` gets the information or the value of, with its group and its name. -/
def rvLinkGet : Option (ObjectRef × Text × Link) :=
  (linkGroup s follow version loc name).bind fun uri =>
    (s.getLink loc.domain uri (h5RestBasename name)).map fun link =>
      (⟨loc.domain, uri⟩, h5RestBasename name, link)

/-- `RV_link_specific` with `H5VL_LINK_EXISTS`. -/
def rvLinkExists : Option Bool :=
  if loc.type ∉ containers then none
  else
    (linkGroup s follow version loc name).bind fun uri =>
      (s.linkUrl uri (h5RestBasename name)).map fun _ =>
        (s.linkAt ⟨loc.domain, uri⟩ (h5RestBasename name)).isSome

/-- `RV_link_specific` with `H5VL_LINK_DELETE`. -/
def rvLinkDelete : Option LinkServer :=
  if loc.type ∉ containers then none
  else
    (linkGroup s follow version loc name).bind fun uri =>
      (s.linkUrl uri (h5RestBasename name)).bind fun _ =>
        s.deleteLink loc.domain uri (h5RestBasename name)

end Calls

/-! ## Creation and lookup -/

section Agrees

variable (s : LinkServer) (readLink : Text → Option Link) (writable : Bool)
  (follow : LinkServer → LocObject → Text → Option Text) (version : ServerApiVersion)
  (obj : Option LocObject) (args : LinkCreateArgs) (name : Text)

/-- A link that was created, in a group that HDF5 finds for the directory part of its path, is there
for the location and the path it was created with, nothing else has changed, and when it was deleted
it is no longer there. -/
def LinkAgrees : Prop :=
  ∀ loc target after, newLinkLoc obj args = some loc → s.Reaches loc (h5RestDirname name) target →
    s.getObject .group target = some target →
    rvLinkCreate s readLink writable obj args name = some after →
      ∃ link, (createRequestBody loc args).bind readLink = some link ∧
        rvLinkExists after follow version loc name = some true ∧
        rvLinkGet after follow version loc name = some (target, h5RestBasename name, link) ∧
        (∀ object other, (object, other) ≠ (target, h5RestBasename name) →
          after.linkAt object other = s.linkAt object other) ∧
        ∀ deleted, rvLinkDelete after follow version loc name = some deleted →
          rvLinkExists deleted follow version loc name ≠ some true ∧
            rvLinkGet deleted follow version loc name = none

/-- The directory part of the path leads back to the location: HDF5 ends there, and so does the search
for the group with the new link in place. -/
def LeadsBack : Prop :=
  ∀ loc target after, newLinkLoc obj args = some loc → s.Reaches loc (h5RestDirname name) target →
    s.getObject .group target = some target →
    rvLinkCreate s readLink writable obj args name = some after →
      target = ⟨loc.domain, loc.uri⟩ ∧ linkGroup after follow version loc name = some loc.uri

end Agrees

/-- A server that follows links leads to the same group after a link was added. -/
def KeepsPaths (follow : LinkServer → LocObject → Text → Option Text) : Prop :=
  ∀ (s after : LinkServer) (domain group name : Text) (link : Link) (loc : LocObject)
    (path uri : Text), s.putLink domain group name link = some after →
      follow s loc path = some uri → follow after loc path = some uri

/-! ## A link that was put -/

/-- A hard link of the graph is one of the server. -/
theorem graph_hard_iff (s : LinkServer) (n m : ObjectRef) (name : Text) :
    s.graph n name = some (.hard m) ↔
      s.linkAt n name = some (.hard m.uri) ∧ m.domain = n.domain := by
  rw [LinkServer.graph, LinkServer.linkAt]
  cases s.store n.domain with
  | none => simp
  | some d =>
      simp only [Option.bind_some, Option.map_eq_some_iff]
      constructor
      · rintro ⟨link, hlink, hgraph⟩
        cases link with
        | hard uri =>
            cases hgraph
            exact ⟨hlink, rfl⟩
        | soft path => cases hgraph
        | external file path =>
            rw [graphLink] at hgraph
            split at hgraph <;> cases hgraph
      · rintro ⟨hlink, hdomain⟩
        refine ⟨_, hlink, ?_⟩
        rw [graphLink, ← hdomain]

section Put

variable {s after : LinkServer} {domain group name : Text} {link : Link}

/-- What a server has after a link was put. -/
structure Added (s after : LinkServer) (domain group name : Text) (link : Link) (d : Domain) : Prop
    where
  store : s.store domain = some d
  admits : d.Admits group name link
  after_eq : after = s.setDomain domain (d.addLink group name link admits)

theorem added_of_putLink (h : s.putLink domain group name link = some after) :
    ∃ d, Added s after domain group name link d := by
  obtain ⟨d, hstore, hd⟩ := Option.bind_eq_some_iff.mp h
  split at hd
  · next hadmits => exact ⟨d, hstore, hadmits, (Option.some.inj hd).symm⟩
  · cases hd

variable {d : Domain} (h : Added s after domain group name link d)

include h

/-- One more link, and nothing else. -/
theorem Added.linkAt_eq (object : ObjectRef) (other : Text) : after.linkAt object other =
    if object = ⟨domain, group⟩ ∧ other = name then some link else s.linkAt object other := by
  obtain ⟨file, uri⟩ := object
  rw [h.after_eq, LinkServer.linkAt, LinkServer.linkAt, LinkServer.setDomain]
  by_cases hfile : file = domain
  · subst hfile
    simp only [Function.update_self, Option.bind_some, h.store, Domain.addLink,
      ObjectRef.mk.injEq, true_and]
  · simp only [Function.update_of_ne hfile, ObjectRef.mk.injEq, hfile, false_and, if_false]

theorem Added.linkAt_new : after.linkAt ⟨domain, group⟩ name = some link := by
  rw [h.linkAt_eq, if_pos ⟨rfl, rfl⟩]

theorem Added.linkAt_before : s.linkAt ⟨domain, group⟩ name = none := by
  rw [LinkServer.linkAt, h.store]
  exact h.admits.2.1

/-- Deleting the link gives back what was there. -/
theorem Added.deleteLink_eq : after.deleteLink domain group name = some s := by
  have hdomain : (d.addLink group name link h.admits).removeLink group name = d := by
    have hlinks : (fun uri other => if uri = group ∧ other = name then none
        else if uri = group ∧ other = name then some link else d.links uri other) = d.links := by
      funext uri other
      split
      · next heq => rw [heq.1, heq.2, h.admits.2.1]
      · rfl
    cases d
    simp only [Domain.addLink, Domain.removeLink, Domain.mk.injEq, true_and]
    exact hlinks
  have hnew : (d.addLink group name link h.admits).links group name = some link :=
    if_pos ⟨rfl, rfl⟩
  rw [h.after_eq, LinkServer.deleteLink, LinkServer.setDomain]
  simp only [Function.update_self, Option.bind_some, hnew, reduceCtorEq, if_false,
    LinkServer.setDomain, hdomain, Function.update_idem]
  rw [← h.store, Function.update_eq_self]

theorem Added.getObject_eq (type : ObjType) (object : ObjectRef) :
    after.getObject type object = s.getObject type object := by
  obtain ⟨file, uri⟩ := object
  rw [h.after_eq, LinkServer.getObject, LinkServer.getObject, LinkServer.setDomain]
  by_cases hfile : file = domain
  · subst hfile
    simp only [Function.update_self, Option.bind_some, h.store]
    rfl
  · simp only [Function.update_of_ne hfile]

/-- A path of hard links leads to the same object as before. -/
theorem Added.typedAnswer_eq {loc : LocObject} {path : Text} {type : ObjType} {object : ObjectRef}
    (hanswer : typedAnswer s loc path type = some object) :
    typedAnswer after loc path type = some object := by
  have hwalk {n o : ObjectRef} {links : List Text} (hs : hardWalk s.graph n links = some o) :
      hardWalk after.graph n links = some o := by
    refine hardWalk_mono (fun n name m hlink => ?_) hs
    rw [graph_hard_iff] at hlink ⊢
    rw [h.linkAt_eq, if_neg, hlink.1]
    · exact ⟨rfl, hlink.2⟩
    · rintro ⟨rfl, rfl⟩
      rw [h.linkAt_before] at hlink
      cases hlink.1
  have hroot (file : Text) (d' : Domain) (hs : s.store file = some d') :
      ∃ d'', after.store file = some d'' ∧ d''.root = d'.root := by
    rw [h.after_eq]
    by_cases hfile : file = domain
    · subst hfile
      rw [h.store] at hs
      cases hs
      exact ⟨_, Function.update_self _ _ _, rfl⟩
    · exact ⟨d', (Function.update_of_ne hfile _ _).trans hs, rfl⟩
  have hsame : after.baseURL = s.baseURL ∧ after.escape = s.escape ∧ after.unescape = s.unescape := by
    rw [h.after_eq]
    exact ⟨rfl, rfl, rfl⟩
  obtain ⟨asked, hasked, hrequest⟩ := Option.bind_eq_some_iff.mp hanswer
  rw [typedAnswer, hasked, Option.bind_some, answerOf, LinkServer.request]
  rw [answerOf, LinkServer.request] at hrequest
  obtain ⟨header, hheader, hrequest⟩ := Option.bind_eq_some_iff.mp hrequest
  rw [hheader, Option.bind_some]
  simp only [hsame.1, hsame.2.1, hsame.2.2] at hrequest ⊢
  split at hrequest
  · next hspecial =>
      rw [if_pos hspecial, h.getObject_eq]
      exact hrequest
  · next hspecial =>
      rw [if_neg hspecial]
      obtain ⟨url, hurl, hpath⟩ := Option.bind_eq_some_iff.mp hrequest
      obtain ⟨d', hstore, hfound⟩ := Option.bind_eq_some_iff.mp hpath
      obtain ⟨reached, hreached, hobject⟩ := Option.bind_eq_some_iff.mp hfound
      obtain ⟨d'', hstore', hroot'⟩ := hroot _ _ hstore
      rw [hurl, Option.bind_some, LinkServer.getByPath, hstore', Option.bind_some, hroot',
        hwalk hreached, Option.bind_some, h.getObject_eq]
      exact hobject

/-- The group of a path is still found, and it is the same. -/
theorem Added.linkGroup_eq {follow : LinkServer → LocObject → Text → Option Text}
    (hfollow : KeepsPaths follow) (hput : s.putLink domain group name link = some after)
    {version : ServerApiVersion} {loc : LocObject} {path uri : Text}
    (hgroup : linkGroup s follow version loc path = some uri) :
    linkGroup after follow version loc path = some uri := by
  have hsame : after.baseURL = s.baseURL ∧ after.escape = s.escape := by
    rw [h.after_eq]
    exact ⟨rfl, rfl⟩
  rw [linkGroup] at hgroup ⊢
  split
  · next hdir => rwa [if_pos hdir] at hgroup
  · next hdir =>
      rw [if_neg hdir, findGroup] at hgroup
      rw [findGroup, hsame.1, hsame.2]
      split at hgroup
      · next hversion =>
          obtain ⟨url, hurl, hfound⟩ := Option.bind_eq_some_iff.mp hgroup
          rw [if_pos hversion, hurl, Option.bind_some]
          exact hfollow _ _ _ _ _ _ _ _ _ hput hfound
      · next hversion =>
          obtain ⟨object, hobject, rfl⟩ := Option.map_eq_some_iff.mp hgroup
          rw [if_neg hversion, h.typedAnswer_eq hobject]
          rfl

end Put

/-! ## The paths that lead back -/

section Back

variable {s after : LinkServer} {readLink : Text → Option Link} {writable : Bool}
  {follow : LinkServer → LocObject → Text → Option Text} {version : ServerApiVersion}
  {obj : Option LocObject} {args : LinkCreateArgs} {name : Text} {loc : LocObject}

/-- What a creation that succeeded has done. -/
theorem created_of_rvLinkCreate (hloc : newLinkLoc obj args = some loc)
    (h : rvLinkCreate s readLink writable obj args name = some after) :
    loc.type ∈ containers ∧ ∃ url link, s.linkUrl loc.uri (h5RestBasename name) = some url ∧
      (createRequestBody loc args).bind readLink = some link ∧
      s.putLink loc.domain loc.uri (h5RestBasename name) link = some after := by
  rw [rvLinkCreate, hloc, Option.bind_some] at h
  split at h
  · cases h
  · next hadmitted =>
      obtain ⟨body, hbody, h⟩ := Option.bind_eq_some_iff.mp h
      obtain ⟨url, hurl, h⟩ := Option.bind_eq_some_iff.mp h
      obtain ⟨link, hlink, hput⟩ := Option.bind_eq_some_iff.mp h
      refine ⟨not_not.mp (not_or.mp hadmitted).1, url, link, hurl, ?_, hput⟩
      rw [hbody]
      exact hlink

/-- With the path leading back everything is as it should be. -/
theorem linkAgrees_of_leadsBack (hfollow : KeepsPaths follow)
    (h : LeadsBack s readLink writable follow version obj args name) :
    LinkAgrees s readLink writable follow version obj args name := by
  intro loc target after hloc htarget hgroup hcreate
  obtain ⟨rfl, hlead⟩ := h loc target after hloc htarget hgroup hcreate
  obtain ⟨htype, url, link, hurl, hbody, hput⟩ := created_of_rvLinkCreate hloc hcreate
  obtain ⟨d, hadded⟩ := added_of_putLink hput
  have hurl' : after.linkUrl loc.uri (h5RestBasename name) = some url := by
    rw [hadded.after_eq]
    exact hurl
  refine ⟨link, hbody, ?_, ?_, fun object other hne => ?_, fun deleted hdelete => ?_⟩
  · rw [rvLinkExists, if_neg (not_not.mpr htype), hlead, Option.bind_some, hurl', Option.map_some,
      hadded.linkAt_new]
    rfl
  · rw [rvLinkGet, hlead, Option.bind_some, LinkServer.getLink, hurl', Option.bind_some,
      hadded.linkAt_new]
    rfl
  · rw [hadded.linkAt_eq, if_neg fun heq => hne (Prod.ext heq.1 heq.2)]
  · rw [rvLinkDelete, if_neg (not_not.mpr htype), hlead, Option.bind_some, hurl', Option.bind_some,
      hadded.deleteLink_eq] at hdelete
    cases hdelete
    -- Without the link the search finds the location or nothing.
    cases hbefore : linkGroup s follow version loc name with
    | none =>
        constructor
        · rw [rvLinkExists, if_neg (not_not.mpr htype), hbefore]
          exact nofun
        · rw [rvLinkGet, hbefore]
          rfl
    | some uri =>
        have hsame := hadded.linkGroup_eq hfollow hput hbefore
        rw [hlead] at hsame
        cases hsame
        constructor
        · rw [rvLinkExists, if_neg (not_not.mpr htype), hbefore, Option.bind_some, hurl,
            Option.map_some, hadded.linkAt_before]
          exact nofun
        · rw [rvLinkGet, hbefore, Option.bind_some, LinkServer.getLink, hurl, Option.bind_some,
            hadded.linkAt_before]
          rfl

theorem leadsBack_of_linkAgrees
    (h : LinkAgrees s readLink writable follow version obj args name) :
    LeadsBack s readLink writable follow version obj args name := by
  intro loc target after hloc htarget hgroup hcreate
  obtain ⟨link, -, -, hget, hothers, -⟩ := h loc target after hloc htarget hgroup hcreate
  obtain ⟨htype, url, put, hurl, -, hput⟩ := created_of_rvLinkCreate hloc hcreate
  obtain ⟨d, hadded⟩ := added_of_putLink hput
  have hback : target = ⟨loc.domain, loc.uri⟩ := by
    by_contra hne
    have hsame := hothers ⟨loc.domain, loc.uri⟩ (h5RestBasename name)
      fun heq => hne (Prod.ext_iff.mp heq).1.symm
    rw [hadded.linkAt_new, hadded.linkAt_before] at hsame
    cases hsame
  refine ⟨hback, ?_⟩
  obtain ⟨uri, huri, hlink⟩ := Option.bind_eq_some_iff.mp hget
  obtain ⟨found, -, hfound⟩ := Option.map_eq_some_iff.mp hlink
  rw [huri]
  have htarget := congrArg ObjectRef.uri (Prod.ext_iff.mp hfound).1
  rw [hback] at htarget
  exact congrArg some htarget

end Back

/-- A server whose files have no symbolic links follows hard links. -/
def followHard (s : LinkServer) (loc : LocObject) (path : Text) : Option Text :=
  (typedAnswer s loc path .group).map ObjectRef.uri

theorem keepsPaths_followHard : KeepsPaths followHard := by
  intro s after domain group name link loc path uri hput hfound
  obtain ⟨d, hadded⟩ := added_of_putLink hput
  obtain ⟨object, hobject, rfl⟩ := Option.map_eq_some_iff.mp hfound
  rw [followHard, hadded.typedAnswer_eq hobject]
  rfl

/-- The reading of the body of a soft link to `t`. -/
def readSoft (body : Text) : Option Link :=
  if body = lit "\x7b\"h5path\": \"t\"\x7d" then some (.soft ['t']) else none

/-- A file whose root group has the group `a`. -/
def oneGroup : Domain where
  root := ['g']
  objects uri := if uri = ['g'] ∨ uri = ['k'] then some .group else none
  links uri name := if uri = ['g'] ∧ name = ['a'] then some (.hard ['k']) else none
  root_group := rfl
  links_group uri name link h := by
    split at h
    · next hlink => rw [if_pos (Or.inl hlink.1)]
    · cases h
  hard_exists uri name target h := by
    split at h
    · cases h
      exact ⟨.group, rfl⟩
    · cases h

/-- A server with this file. -/
def groupServer : LinkServer := { smallServer with
  store := fun domain => if domain = ['f'] then some oneGroup else none }

end XHDF5.Links
