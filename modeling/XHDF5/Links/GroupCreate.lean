/-
# Creating a group with the groups above it

`RV_group_create` sends one request, which makes a group and links it into the group that the
directory part of the name leads to. When there is no such group and the link creation property list
asks for intermediate groups, it first creates the directory part in the same way, and searches
again. On a path of plain names this makes the missing groups from the first to the last.
-/

import Mathlib.Data.List.Induction
import Mathlib.Data.List.Infix
import XHDF5.Links.Create
import XHDF5.Math.PathMaking

namespace XHDF5.Links

open XHDF5.Math XHDF5.Client

/-! ## The server -/

/-- The file with one more group, which nothing leads to. -/
def Domain.addGroup (d : Domain) (uri : Text) (h : d.objects uri = none) : Domain :=
  { d with
    objects := Function.update d.objects uri (some .group)
    root_group := by
      rw [Function.update_of_ne, d.root_group]
      rintro rfl
      rw [d.root_group] at h
      cases h
    links_group := fun other name link hlink => by
      have hgroup := d.links_group other name link hlink
      rw [Function.update_of_ne, hgroup]
      rintro rfl
      rw [h] at hgroup
      cases hgroup
    hard_exists := fun other name target hlink => by
      by_cases heq : target = uri
      · exact ⟨.group, by rw [heq, Function.update_self]⟩
      · rw [Function.update_of_ne heq]
        exact d.hard_exists other name target hlink }

theorem Domain.addGroup_objects (d : Domain) (uri : Text) (h : d.objects uri = none) (other : Text) :
    (d.addGroup uri h).objects other = if other = uri then some .group else d.objects other :=
  Function.update_apply _ _ _ _

/-- The id is free, and the link can be made: its group is there and its name is not taken. -/
def Domain.Allows (d : Domain) (uri group name : Text) : Prop :=
  d.objects uri = none ∧ d.objects group = some .group ∧ d.links group name = none ∧ name ≠ []

instance (d : Domain) (uri group name : Text) : Decidable (d.Allows uri group name) :=
  inferInstanceAs (Decidable (_ ∧ _ ∧ _ ∧ _))

theorem Domain.Allows.admits {d : Domain} {uri group name : Text} (h : d.Allows uri group name) :
    (d.addGroup uri h.1).Admits group name (.hard uri) := by
  have hgroup : (d.addGroup uri h.1).objects group = some .group := by
    rw [d.addGroup_objects, h.2.1, ite_self]
  have hnew : (d.addGroup uri h.1).objects uri ≠ none := by
    rw [d.addGroup_objects, if_pos rfl]
    exact Option.some_ne_none _
  exact ⟨hgroup, h.2.2.1, h.2.2.2, hnew⟩

namespace LinkServer

variable (s : LinkServer) (assign : Domain → Option Text)

/-- `POST /groups` with a link: the server gives the new group an id and links it under the name into
the group, or does neither. -/
def postGroup (domain group name : Text) : LinkServer × Option Text :=
  match s.store domain with
  | none => (s, none)
  | some d =>
      match assign d with
      | none => (s, none)
      | some uri =>
          if h : d.Allows uri group name then
            (s.setDomain domain ((d.addGroup uri h.1).addLink group name (.hard uri) h.admits),
              some uri)
          else (s, none)

/-- `POST /groups` without a link. -/
def postAnonymousGroup (domain : Text) : LinkServer × Option Text :=
  match s.store domain with
  | none => (s, none)
  | some d =>
      match assign d with
      | none => (s, none)
      | some uri =>
          if h : d.objects uri = none then (s.setDomain domain (d.addGroup uri h), some uri)
          else (s, none)

end LinkServer

/-! ## The code -/

/-- How the creation of a group ends. It is undefined where the id of the parent group is used though
the last search has not stored one. -/
inductive Creation
  | created (uri : Text)
  | failed
  | undefined
deriving DecidableEq

/-- A request has made the group or has failed. -/
def Creation.ofAnswer : Option Text → Creation
  | some uri => .created uri
  | none => .failed

/-- The body of the request, with the text of the property list. -/
def groupRequestBody (parentUri name plist : Text) : Text :=
  lit "\x7b\"link\": \x7b\"id\": \"" ++ parentUri ++ lit "\", \"name\": \"" ++ name ++
    lit "\"\x7d,\"creationProperties\": \"" ++ plist ++ lit "\"\x7d"

/-- A slash at the end is taken off. -/
def removeTrailingSlash (path : Text) : Text :=
  if path.getLast? = some '/' then path.dropLast else path

section Code

variable (assign : Domain → Option Text) (readBody : Text → Option (Text × Text))
  (follow : LinkServer → LocObject → Text → Option Text) (version : ServerApiVersion)
  (loc : LocObject) (plist : Text) (intermediate : Bool)

/-- The request for a group in the group `parentUri`. The server reads the link from the body. -/
def requestGroup (s : LinkServer) (parentUri name : Text) : LinkServer × Option Text :=
  match checkUrl (s.baseURL ++ lit "/groups") with
  | none => (s, none)
  | some _ =>
      match readBody (groupRequestBody parentUri name plist) with
      | none => (s, none)
      | some (group, link) => s.postGroup assign loc.domain group link

/-- The request, as the end of a creation. -/
def finishGroup (s : LinkServer) (parentUri name : Text) : LinkServer × Creation :=
  ((requestGroup assign readBody loc plist s parentUri name).1,
    .ofAnswer (requestGroup assign readBody loc plist s parentUri name).2)

/-- `RV_group_create` for a name, with a bound on the depth of the calls. -/
def rvGroupCreate : Nat → LinkServer → Text → Option (LinkServer × Creation)
  | 0, _, _ => none
  | depth + 1, s, name =>
      let dirname := h5RestDirname name
      if dirname = [] then
        some (finishGroup assign readBody loc plist s loc.uri (h5RestBasename name))
      else
        match findGroup s follow version loc dirname with
        | some uri => some (finishGroup assign readBody loc plist s uri (h5RestBasename name))
        | none =>
            if intermediate then
              (rvGroupCreate depth s (removeTrailingSlash dirname)).map fun (after, made) =>
                match made with
                | .created _ =>
                    match findGroup after follow version loc (removeTrailingSlash dirname) with
                    | some uri =>
                        finishGroup assign readBody loc plist after uri (h5RestBasename name)
                    | none => (after, .undefined)
                | .failed => (after, .failed)
                | .undefined => (after, .undefined)
            else some (s, .failed)

/-- `RV_group_create`, with the checks before. The name is absent for `H5Gcreate_anon`. -/
def rvGroupCreateCall (writable : Bool) (s : LinkServer) :
    Option Text → Option (LinkServer × Creation)
  | none =>
      if loc.type ∉ containers ∨ ¬writable then some (s, .failed)
      else
        some (match checkUrl (s.baseURL ++ lit "/groups") with
          | none => (s, .failed)
          | some _ =>
              ((s.postAnonymousGroup assign loc.domain).1,
                .ofAnswer (s.postAnonymousGroup assign loc.domain).2))
  | some name =>
      if loc.type ∉ containers ∨ ¬writable then some (s, .failed)
      else rvGroupCreate assign readBody follow version loc plist intermediate (name.length + 1) s
        name

end Code

/-! ## Every call ends -/

theorem h5RestDirname_eq (name : Text) :
    h5RestDirname name = (name.reverse.dropWhile fun c => decide (c ≠ '/')).reverse := by
  have hname : (name.reverse.dropWhile fun c => decide (c ≠ '/')).reverse ++ h5RestBasename name =
      name := by
    rw [h5RestBasename, ← List.reverse_append, List.takeWhile_append_dropWhile, List.reverse_reverse]
  have hlength : name.length - (h5RestBasename name).length =
      (name.reverse.dropWhile fun c => decide (c ≠ '/')).reverse.length := by
    have hsum := congrArg List.length hname
    rw [List.length_append] at hsum
    omega
  rw [h5RestDirname, hlength]
  nth_rewrite 2 [← hname]
  exact List.take_left

/-- A directory part ends with a slash. -/
theorem getLast?_h5RestDirname {name : Text} (h : h5RestDirname name ≠ []) :
    (h5RestDirname name).getLast? = some '/' := by
  rw [h5RestDirname_eq] at h ⊢
  rw [List.getLast?_reverse]
  have hne : (name.reverse.dropWhile fun c => decide (c ≠ '/')) ≠ [] := fun hnil =>
    h (by rw [hnil, List.reverse_nil])
  have hhead := List.head_dropWhile_not (fun c => decide (c ≠ '/')) hne
  rw [List.head?_eq_some_head hne]
  simpa using hhead

/-- Without its slash a directory part is shorter than the name. -/
theorem length_removeTrailingSlash_lt {name : Text} (h : h5RestDirname name ≠ []) :
    (removeTrailingSlash (h5RestDirname name)).length < name.length := by
  have hle : (h5RestDirname name).length ≤ name.length := by
    rw [h5RestDirname, List.length_take]
    exact Nat.min_le_right _ _
  have hpos := List.length_pos_iff.mpr h
  rw [removeTrailingSlash, if_pos (getLast?_h5RestDirname h), List.length_dropLast]
  omega

section Ends

variable (assign : Domain → Option Text) (readBody : Text → Option (Text × Text))
  (follow : LinkServer → LocObject → Text → Option Text) (version : ServerApiVersion)
  (loc : LocObject) (plist : Text) (intermediate : Bool)

/-- However the name is written and whatever the server answers, the calls are nested less deep than
the name is long. -/
theorem rvGroupCreate_ends (depth : Nat) (s : LinkServer) (name : Text)
    (hdepth : name.length < depth) :
    ∃ result, rvGroupCreate assign readBody follow version loc plist intermediate depth s name =
        some result ∧
      ∀ more, rvGroupCreate assign readBody follow version loc plist intermediate (depth + more) s
        name = some result := by
  induction depth generalizing s name with
  | zero => exact absurd hdepth (Nat.not_lt_zero _)
  | succ depth ih =>
      simp only [rvGroupCreate, Nat.add_right_comm depth 1]
      split
      · exact ⟨_, rfl, fun _ => rfl⟩
      · next hdir =>
          split
          · exact ⟨_, rfl, fun _ => rfl⟩
          · split
            · have hlt := length_removeTrailingSlash_lt hdir
              obtain ⟨result, hresult, hmore⟩ := ih s (removeTrailingSlash (h5RestDirname name))
                (by omega)
              refine ⟨_, by rw [hresult]; rfl, fun more => ?_⟩
              rw [hmore more]
              rfl
            · exact ⟨_, rfl, fun _ => rfl⟩

end Ends

/-! ## The groups of a file -/

section Groups

variable (assign : Domain → Option Text) (domain : Text)

/-- The groups of a file, with their links; a link opens a group where it is a hard link to one. -/
def groupMaker : Maker LinkServer Text Text Link where
  entry s group name := s.linkAt ⟨domain, group⟩ name
  opens s
    | .hard uri => (s.getObject .group ⟨domain, uri⟩).map ObjectRef.uri
    | _ => none
  make s group name := s.postGroup assign domain group name

variable {assign domain}

theorem linkAt_setDomain (s : LinkServer) (d : Domain) (group name : Text) :
    (s.setDomain domain d).linkAt ⟨domain, group⟩ name = d.links group name := by
  rw [LinkServer.linkAt, LinkServer.setDomain]
  simp only [Function.update_self, Option.bind_some]

theorem getObject_of_store {s : LinkServer} {d : Domain} (hstore : s.store domain = some d)
    (type : ObjType) (uri : Text) : s.getObject type ⟨domain, uri⟩ =
      if d.objects uri = some type then some ⟨domain, uri⟩ else none := by
  rw [LinkServer.getObject, hstore, Option.bind_some]

theorem linkAt_of_store {s : LinkServer} {d : Domain} (hstore : s.store domain = some d)
    (group name : Text) : s.linkAt ⟨domain, group⟩ name = d.links group name := by
  rw [LinkServer.linkAt, hstore, Option.bind_some]

variable (assign) in
/-- What a request for a group comes to. -/
theorem postGroup_cases (s : LinkServer) (group name : Text) :
    s.postGroup assign domain group name = (s, none) ∨
      ∃ d uri, ∃ h : d.Allows uri group name, s.store domain = some d ∧ assign d = some uri ∧
        s.postGroup assign domain group name = (s.setDomain domain
          ((d.addGroup uri h.1).addLink group name (.hard uri) h.admits), some uri) := by
  rw [LinkServer.postGroup]
  cases hstore : s.store domain with
  | none => exact .inl rfl
  | some d =>
      cases hassign : assign d with
      | none => exact .inl (by simp only [hassign])
      | some uri =>
          by_cases h : d.Allows uri group name
          · exact .inr ⟨d, uri, h, rfl, hassign, by simp only [hassign, dif_pos h]⟩
          · exact .inl (by simp only [hassign, dif_neg h])

/-- A request makes a group, or it changes nothing. -/
theorem groupMaker_lawful : (groupMaker assign domain).Lawful := by
  constructor
  · intro s group name hnone
    rcases postGroup_cases assign s group name with hpost | ⟨d, uri, h, -, -, hpost⟩
    · exact congrArg Prod.fst hpost
    · have hsome : (s.postGroup assign domain group name).2 = none := hnone
      rw [hpost] at hsome
      cases hsome
  · intro s group name m hmade
    rcases postGroup_cases assign s group name with hpost | ⟨d, uri, h, hstore, -, hpost⟩
    · have hnone : (s.postGroup assign domain group name).2 = some m := hmade
      rw [hpost] at hnone
      cases hnone
    · have huri : (s.postGroup assign domain group name).2 = some m := hmade
      have hafter : (groupMaker assign domain).make s group name = s.postGroup assign domain group
        name := rfl
      rw [hpost] at huri
      obtain rfl := Option.some.inj huri
      rw [hafter, hpost]
      set d' := (d.addGroup uri h.1).addLink group name (.hard uri) h.admits with hd'
      have hlinks (k other : Text) : (s.setDomain domain d').linkAt ⟨domain, k⟩ other =
          if k = group ∧ other = name then some (.hard uri) else d.links k other :=
        linkAt_setDomain s d' k other
      have hstore' : (s.setDomain domain d').store domain = some d' := Function.update_self _ _ _
      have hobjects (other : Text) : d'.objects other =
          if other = uri then some .group else d.objects other := d.addGroup_objects uri h.1 other
      constructor
      · exact (linkAt_of_store hstore group name).trans h.2.2.1
      · have hgroup : (s.setDomain domain d').getObject .group ⟨domain, uri⟩ = some ⟨domain, uri⟩ := by
          rw [getObject_of_store hstore', hobjects, if_pos rfl, if_pos rfl]
        have hentry : (groupMaker assign domain).entry (s.setDomain domain d') group name =
            some (.hard uri) := by
          exact (hlinks group name).trans (if_pos ⟨rfl, rfl⟩)
        rw [Maker.child, hentry, Option.bind_some]
        exact congrArg (Option.map ObjectRef.uri) hgroup
      · intro k other hne
        refine (hlinks k other).trans ((if_neg fun heq => hne ?_).trans
          (linkAt_of_store hstore k other).symm)
        rw [heq.1, heq.2]
      · intro other
        refine (hlinks uri other).trans ?_
        rw [if_neg]
        · cases hlink : d.links uri other with
          | none => rfl
          | some link =>
              have hgroup := d.links_group uri other link hlink
              rw [h.1] at hgroup
              cases hgroup
        · rintro ⟨rfl, -⟩
          have hgroup := h.2.1
          rw [h.1] at hgroup
          cases hgroup
      · intro k other e hentry
        cases e with
        | hard target =>
            have hlink : d.links k other = some (.hard target) :=
              (linkAt_of_store hstore k other).symm.trans hentry
            obtain ⟨type, htype⟩ := d.hard_exists k other target hlink
            have hne : target ≠ uri := by
              rintro rfl
              rw [h.1] at htype
              cases htype
            refine congrArg (Option.map ObjectRef.uri) ?_
            rw [getObject_of_store hstore', getObject_of_store hstore, hobjects, if_neg hne]
        | soft path => rfl
        | external file path => rfl

end Groups

/-! ## Paths of plain names -/

/-- A name that stands for a link: it is not empty, has no slash and is not the current group. -/
def PlainName (name : Text) : Prop := name ≠ [] ∧ '/' ∉ name ∧ name ≠ ['.']

instance (name : Text) : Decidable (PlainName name) :=
  inferInstanceAs (Decidable (_ ∧ _ ∧ _))

/-- The directory part of a path: each name with a slash behind it. -/
def dirText (isAbsolute : Bool) (dirs : List Text) : Text :=
  (if isAbsolute then ['/'] else []) ++ dirs.flatMap (· ++ ['/'])

section Paths

variable {isAbsolute : Bool} {dirs : List Text} {name : Text}

theorem dirText_concat (isAbsolute : Bool) (dirs : List Text) (name : Text) :
    dirText isAbsolute (dirs ++ [name]) = dirText isAbsolute dirs ++ name ++ ['/'] := by
  simp [dirText]

theorem getLast?_dirText (h : dirText isAbsolute dirs ≠ []) :
    (dirText isAbsolute dirs).getLast? = some '/' := by
  rcases List.eq_nil_or_concat dirs with rfl | ⟨before, last, rfl⟩
  · cases isAbsolute with
    | true => rfl
    | false => exact absurd rfl h
  · rw [List.concat_eq_append, dirText_concat, List.getLast?_append]
    rfl

theorem dirText_eq_nil_iff : dirText isAbsolute dirs = [] ↔ isAbsolute = false ∧ dirs = [] := by
  cases isAbsolute <;> cases dirs <;> simp [dirText]

theorem h5RestBasename_dirText (hname : '/' ∉ name) :
    h5RestBasename (dirText isAbsolute dirs ++ name) = name := by
  have hclean : ∀ c ∈ name.reverse, decide (c ≠ '/') = true := by
    intro c hc
    rw [decide_eq_true_iff]
    rintro rfl
    exact hname (List.mem_reverse.mp hc)
  have hrest : (dirText isAbsolute dirs).reverse.takeWhile (fun c => decide (c ≠ '/')) = [] := by
    by_cases h : dirText isAbsolute dirs = []
    · rw [h]
      rfl
    · have hlast := getLast?_dirText h
      rw [← List.head?_reverse] at hlast
      obtain ⟨rest, hrest⟩ := List.head?_eq_some_iff.mp hlast
      rw [hrest]
      rfl
  rw [h5RestBasename, List.reverse_append, List.takeWhile_append_of_pos hclean, hrest,
    List.append_nil, List.reverse_reverse]

theorem h5RestDirname_dirText (hname : '/' ∉ name) :
    h5RestDirname (dirText isAbsolute dirs ++ name) = dirText isAbsolute dirs := by
  rw [h5RestDirname, h5RestBasename_dirText hname, List.length_append, Nat.add_sub_cancel]
  exact List.take_left

theorem removeTrailingSlash_dirText (isAbsolute : Bool) (dirs : List Text) (name : Text) :
    removeTrailingSlash (dirText isAbsolute (dirs ++ [name])) = dirText isAbsolute dirs ++ name := by
  have hlast : (dirText isAbsolute (dirs ++ [name])).getLast? = some '/' := by
    rw [dirText_concat, List.getLast?_append]
    rfl
  rw [removeTrailingSlash, if_pos hlast, dirText_concat, List.dropLast_concat]

variable (isAbsolute) in
/-- The links of a path are its names. -/
theorem components_dirText_append (hdirs : ∀ x ∈ dirs, PlainName x) (tail : Text) :
    components (dirText isAbsolute dirs ++ tail) = dirs ++ components tail := by
  have hslash : ('/' == '/') = true := rfl
  have hskip (rest : Text) : strtok (· == '/') ('/' :: rest) = strtok (· == '/') rest :=
    strtok_cons rest hslash
  have hstart : components (dirText isAbsolute dirs ++ tail) =
      components (dirs.flatMap (· ++ ['/']) ++ tail) := by
    cases isAbsolute with
    | false => rfl
    | true =>
        rw [components, components]
        exact congrArg _ (hskip _)
  rw [hstart]
  clear hstart
  induction dirs with
  | nil => rfl
  | cons x dirs ih =>
      obtain ⟨hne, hclean, hdot⟩ := hdirs x List.mem_cons_self
      have htext : (x :: dirs).flatMap (· ++ ['/']) ++ tail =
          x ++ '/' :: (dirs.flatMap (· ++ ['/']) ++ tail) := by simp
      have hword : ∀ c ∈ x, (c == '/') = false := by
        intro c hc
        rw [beq_eq_false_iff_ne]
        rintro rfl
        exact hclean hc
      rw [htext, components, strtok_word_append hne hword (.inr ⟨'/', _, rfl, hslash⟩),
        hskip, List.filter_cons_of_pos (by simpa using hdot), List.cons_append,
        ← ih fun y hy => hdirs y (List.mem_cons_of_mem x hy)]
      rfl

theorem components_of_plain (h : PlainName name) : components name = [name] := by
  have hword : ∀ c ∈ name, (c == '/') = false := by
    intro c hc
    rw [beq_eq_false_iff_ne]
    rintro rfl
    exact h.2.1 hc
  rw [components, strtok_of_clean hword h.1]
  exact List.filter_cons_of_pos (by simpa using h.2.2)

end Paths

/-! ## The search for a group -/

/-- What the search for the group of a path needs of a server before 0.8.0: nothing of the path is
skipped, the server decodes what is sent, and the URL is not too long. -/
structure Searchable (s : LinkServer) (loc : LocObject) (path : Text) : Prop where
  noBlank : path.head? ≠ some ' '
  noDots : ¬ ['.', '.'] <+: path
  notDot : path ≠ ['.']
  decoded : components (s.unescape (h5RestUrlEncodePath s.escape path)) = components path
  short : (s.baseURL ++ lit "/groups/" ++ loc.uri ++ lit "?h5path=" ++
    h5RestUrlEncodePath s.escape path).length < urlMaxLength

section Search

variable {s : LinkServer} {loc : LocObject} {assign : Domain → Option Text} {path : Text}

/-- Hard links to groups lead to the group that hard links lead to. -/
theorem hardWalk_group {d : Domain} {domain group : Text} {names : List Text}
    (hstore : s.store domain = some d) (hgroup : d.objects group = some .group) :
    ((hardWalk s.graph ⟨domain, group⟩ names).bind (s.getObject .group)).map ObjectRef.uri =
      (groupMaker assign domain).walk s group names := by
  induction names generalizing group with
  | nil =>
      rw [hardWalk, Option.bind_some, getObject_of_store hstore, if_pos hgroup]
      rfl
  | cons name rest ih =>
      have hgraph : s.graph ⟨domain, group⟩ name =
          (d.links group name).map (graphLink s ⟨domain, group⟩ d) := by
        rw [LinkServer.graph, hstore, Option.bind_some]
      have hchild : (groupMaker assign domain).child s group name =
          (d.links group name).bind ((groupMaker assign domain).opens s) :=
        congrArg (Option.bind · _) (linkAt_of_store hstore group name)
      rw [Maker.walk_cons, hchild]
      cases hlink : d.links group name with
      | none =>
          rw [hardWalk, hgraph, hlink]
          rfl
      | some link =>
          cases link with
          | soft value =>
              rw [hardWalk, hgraph, hlink]
              rfl
          | external file value =>
              have hnone : hardWalk s.graph ⟨domain, group⟩ (name :: rest) = none := by
                rw [hardWalk, hgraph, hlink, Option.map_some, graphLink]
                cases s.store file <;> rfl
              rw [hnone]
              rfl
          | hard uri =>
              have hstep : hardWalk s.graph ⟨domain, group⟩ (name :: rest) =
                  hardWalk s.graph ⟨domain, uri⟩ rest := by
                rw [hardWalk, hgraph, hlink]
                rfl
              have hopens : (groupMaker assign domain).opens s (.hard uri) =
                  (s.getObject .group ⟨domain, uri⟩).map ObjectRef.uri := rfl
              rw [hstep, Option.bind_some, hopens, getObject_of_store hstore]
              by_cases hnext : d.objects uri = some .group
              · rw [if_pos hnext, Option.map_some, Option.bind_some]
                exact ih hnext
              · rw [if_neg hnext, Option.map_none, Option.bind_none]
                cases rest with
                | nil =>
                    rw [hardWalk, Option.bind_some, getObject_of_store hstore, if_neg hnext]
                    rfl
                | cons other rest =>
                    have hnone : s.graph ⟨domain, uri⟩ other = none := by
                      rw [LinkServer.graph, hstore, Option.bind_some]
                      cases hother : d.links uri other with
                      | none => rfl
                      | some link => exact absurd (d.links_group uri other link hother) hnext
                    rw [hardWalk, hnone]
                    rfl

variable (assign) in
/-- The search on a server before 0.8.0. -/
theorem findGroup_eq {follow : LinkServer → LocObject → Text → Option Text}
    {version : ServerApiVersion} {d : Domain}
    (hversion : serverVersionMatchesOrExceeds version 0 8 0 = false)
    (hstore : s.store loc.domain = some d) (hgroup : d.objects loc.uri = some .group)
    (hroot : path.head? = some '/' → d.root = loc.uri) (h : Searchable s loc path) :
    findGroup s follow version loc path =
      (groupMaker assign loc.domain).walk s loc.uri (components path) := by
  have hblank : path.dropWhile (· == ' ') = path := by
    cases path with
    | nil => rfl
    | cons c rest =>
        have hc : c ≠ ' ' := fun heq => h.noBlank (by rw [heq]; rfl)
        exact List.dropWhile_cons_of_neg (by simpa using hc)
  have hasked : requestedType loc path (some .group) = some .group := by
    simp only [requestedType, hblank, if_neg h.notDot, ite_self]
  have hfirst := preparePath_eq_self h.noBlank h.noDots
  have hsecond : (preparePath path).2 = decide (path.head? ≠ some '/') := by
    simp only [preparePath, hblank, if_neg h.notDot]
    split
    · next hslash => rw [hslash]; rfl
    · rfl
  have hanswer : answerOf s loc path .group =
      s.request loc path (decide (path.head? ≠ some '/')) .group := by
    rw [answerOf, hfirst, hsecond]
  rw [findGroup, if_neg (by rw [hversion]; exact Bool.false_ne_true), typedAnswer, hasked,
    Option.bind_some, hanswer]
  have hheader : rvSetObjectTypeHeader .group = some (lit "groups") := rfl
  have hcheck {url : Text} (hurl : url.length < urlMaxLength) : checkUrl url = some url :=
    if_neg (Nat.not_le_of_lt hurl)
  have hshort := h.short
  have hgroups : (lit "/groups/").length = 8 := by rw [lit_ofList]; rfl
  have hheaderLength : (lit "groups").length = 6 := by rw [lit_ofList]; rfl
  have hslash : (lit "/").length = 1 := by rw [lit_ofList]; rfl
  have hquery : (lit "?h5path=").length = 8 := by rw [lit_ofList]; rfl
  have hmark : (lit "?").length = 1 := by rw [lit_ofList]; rfl
  have hkey : (lit "h5path=").length = 7 := by rw [lit_ofList]; rfl
  simp only [List.length_append, hgroups, hquery] at hshort
  rw [LinkServer.request, hheader, Option.bind_some]
  by_cases hpath : path = ['/']
  · have hcomponents : components path = [] := by
      rw [hpath]
      rfl
    rw [if_pos (.inr hpath), hcheck (by simp only [List.length_append, hheaderLength, hslash]; omega),
      Option.bind_some, hcomponents, Maker.walk_nil]
    have hcollection : collectionType .group = .group := rfl
    rw [hcollection, getObject_of_store hstore, if_pos hgroup]
    rfl
  · have hstart : (if (decide (path.head? ≠ some '/')) = true then some loc.uri else none).getD
        d.root = loc.uri := by
      by_cases habsolute : path.head? = some '/'
      · rw [if_neg (by simp [habsolute]), Option.getD_none, hroot habsolute]
      · rw [if_pos (by simp [habsolute]), Option.getD_some]
    rw [if_neg (not_or.mpr ⟨h.notDot, hpath⟩)]
    change ((checkUrl _).bind _).map _ = _
    have hurl : (s.baseURL ++ lit "/" ++ lit "groups" ++ lit "/" ++
        (if decide (path.head? ≠ some '/') = true ∧ (ObjType.group = .group ∨ ObjType.group = .file)
          then loc.uri else []) ++ lit "?" ++
        (if decide (path.head? ≠ some '/') = true ∧
          ¬(ObjType.group = .group ∨ ObjType.group = .file)
          then lit "grpid=" ++ loc.uri ++ lit "&" else []) ++
        lit "h5path=" ++ h5RestUrlEncodePath s.escape path).length < urlMaxLength := by
      have hfirstPart : (if decide (path.head? ≠ some '/') = true ∧
          (ObjType.group = .group ∨ ObjType.group = .file) then loc.uri else []).length ≤
            loc.uri.length := by
        split
        · exact le_rfl
        · exact Nat.zero_le _
      simp only [List.length_append, hheaderLength, hslash, hmark, hkey, true_or,
        not_true_eq_false, and_false, if_false, List.length_nil] at hfirstPart ⊢
      omega
    have hcollection : collectionType .group = .group := rfl
    rw [hcheck hurl, Option.bind_some, hcollection, LinkServer.getByPath, hstore, Option.bind_some,
      hstart, h.decoded]
    exact hardWalk_group hstore hgroup

end Search

/-! ## Creations on a path of plain names -/

/-- The server has gained objects and links of a file at most. -/
structure Extends (s after : LinkServer) (domain : Text) : Prop where
  baseURL_eq : after.baseURL = s.baseURL
  escape_eq : after.escape = s.escape
  unescape_eq : after.unescape = s.unescape
  store : ∀ d, s.store domain = some d → ∃ d', after.store domain = some d' ∧ d'.root = d.root ∧
    ∀ uri type, d.objects uri = some type → d'.objects uri = some type

theorem Extends.refl (s : LinkServer) (domain : Text) : Extends s s domain :=
  ⟨rfl, rfl, rfl, fun d hd => ⟨d, hd, rfl, fun _ _ h => h⟩⟩

theorem Extends.postGroup {s mid : LinkServer} {domain : Text} (h : Extends s mid domain)
    (assign : Domain → Option Text) (group name : Text) :
    Extends s (mid.postGroup assign domain group name).1 domain := by
  rcases postGroup_cases assign mid group name with
    hpost | ⟨d, uri, hallows, hstore, -, hpost⟩
  · rw [hpost]
    exact h
  · rw [hpost]
    refine ⟨h.baseURL_eq, h.escape_eq, h.unescape_eq, fun d₀ hd₀ => ?_⟩
    obtain ⟨d', hd', hroot, hobjects⟩ := h.store d₀ hd₀
    obtain rfl := Option.some.inj (hstore.symm.trans hd')
    refine ⟨_, Function.update_self _ _ _, hroot, fun other type hother => ?_⟩
    have hnew := d.addGroup_objects uri hallows.1 other
    have hne : other ≠ uri := by
      rintro rfl
      have hnone := hallows.1
      rw [hobjects other type hother] at hnone
      cases hnone
    rw [if_neg hne, hobjects other type hother] at hnew
    exact hnew

theorem Searchable.of_extends {s mid : LinkServer} {loc : LocObject} {path : Text}
    (h : Searchable s loc path) (hmid : Extends s mid loc.domain) : Searchable mid loc path where
  noBlank := h.noBlank
  noDots := h.noDots
  notDot := h.notDot
  decoded := by rw [hmid.unescape_eq, hmid.escape_eq, h.decoded]
  short := by rw [hmid.baseURL_eq, hmid.escape_eq]; exact h.short

/-- The id of a group of the file, or one that the server gives to a new group. -/
def Known (s : LinkServer) (assign : Domain → Option Text) (domain uri : Text) : Prop :=
  (∃ d, s.store domain = some d ∧ d.objects uri = some .group) ∨ ∃ d, assign d = some uri

/-- A creation on a server before 0.8.0, in a group of the file or, with an absolute path, in its root
group, on a path of plain names that can be searched for; the URL of the request is not too long, and
the server reads from the body what was written into it. -/
structure OnPlainPath (assign : Domain → Option Text) (readBody : Text → Option (Text × Text))
    (version : ServerApiVersion) (loc : LocObject) (plist : Text) (s : LinkServer)
    (isAbsolute : Bool) (dirs : List Text) (name : Text) : Prop where
  old : serverVersionMatchesOrExceeds version 0 8 0 = false
  below : ∃ d, s.store loc.domain = some d ∧ d.objects loc.uri = some .group ∧
    (isAbsolute = true → d.root = loc.uri)
  plain : ∀ x ∈ dirs ++ [name], PlainName x
  searchable : ∀ before, before <+: dirs → dirText isAbsolute before ≠ [] →
    Searchable s loc (dirText isAbsolute before) ∧
      Searchable s loc (removeTrailingSlash (dirText isAbsolute before))
  posts : checkUrl (s.baseURL ++ lit "/groups") ≠ none
  reads : ∀ uri, Known s assign loc.domain uri → ∀ x ∈ dirs ++ [name],
    readBody (groupRequestBody uri x plist) = some (uri, x)

section Creations

variable {assign : Domain → Option Text} {readBody : Text → Option (Text × Text)}
  {follow : LinkServer → LocObject → Text → Option Text} {version : ServerApiVersion}
  {loc : LocObject} {plist : Text} {s : LinkServer} {isAbsolute : Bool} {dirs : List Text}
  {name : Text} (h : OnPlainPath assign readBody version loc plist s isAbsolute dirs name)

/-- The outcome of a creation, as the code returns it. -/
def outcomeOf (result : LinkServer × Option Text) : LinkServer × Creation :=
  (result.1, .ofAnswer result.2)

include h

theorem OnPlainPath.known_start : Known s assign loc.domain loc.uri := by
  obtain ⟨d, hd, hgroup, -⟩ := h.below
  exact .inl ⟨d, hd, hgroup⟩

omit h in
theorem known_of_child {k o other : Text}
    (hchild : (groupMaker assign loc.domain).child s k other = some o) :
    Known s assign loc.domain o := by
  obtain ⟨e, -, ho⟩ := Option.bind_eq_some_iff.mp hchild
  cases e with
  | soft value => cases ho
  | external file value => cases ho
  | hard uri =>
      obtain ⟨object, hobject, rfl⟩ := Option.map_eq_some_iff.mp ho
      obtain ⟨d, hd, hfound⟩ := Option.bind_eq_some_iff.mp hobject
      split at hfound
      · next hgroup =>
          obtain rfl := Option.some.inj hfound
          exact .inl ⟨d, hd, hgroup⟩
      · cases hfound

/-- The groups that are reached or made are known. -/
theorem OnPlainPath.known_of_makeAll {mid : LinkServer} {k : Text} {path : List Text}
    (hall : (groupMaker assign loc.domain).makeAll s loc.uri path = (mid, some k)) :
    Known s assign loc.domain k := by
  refine Maker.makeAll_node groupMaker_lawful (fun _ _ _ => known_of_child) ?_ h.known_start hall
  intro server group other uri hmade
  have hanswer : (server.postGroup assign loc.domain group other).2 = some uri := hmade
  rcases postGroup_cases assign server group other with
    hpost | ⟨d, new, _, -, hassign, hpost⟩
  · rw [hpost] at hanswer
    cases hanswer
  · rw [hpost] at hanswer
    obtain rfl := Option.some.inj hanswer
    exact .inr ⟨d, hassign⟩

omit h in
theorem extends_of_makeAll {mid : LinkServer} {result : Option Text} {path : List Text}
    (hall : (groupMaker assign loc.domain).makeAll s loc.uri path = (mid, result)) :
    Extends s mid loc.domain := by
  have hkeeps : ∀ server group other, Extends s server loc.domain →
      Extends s ((groupMaker assign loc.domain).make server group other).1 loc.domain :=
    fun _ group other hext => hext.postGroup assign group other
  exact Maker.makeAll_keeps groupMaker_lawful hkeeps (Extends.refl s loc.domain) hall

/-- The request makes the group as the server makes it. -/
theorem OnPlainPath.finishGroup_eq {mid : LinkServer} (hmid : Extends s mid loc.domain) {uri x : Text}
    (huri : Known s assign loc.domain uri) (hx : x ∈ dirs ++ [name]) :
    finishGroup assign readBody loc plist mid uri x =
      outcomeOf ((groupMaker assign loc.domain).make mid uri x) := by
  obtain ⟨url, hurl⟩ := Option.ne_none_iff_exists'.mp h.posts
  have hrequest : requestGroup assign readBody loc plist mid uri x =
      mid.postGroup assign loc.domain uri x := by
    rw [requestGroup, hmid.baseURL_eq, hurl, h.reads uri huri x hx]
  rw [finishGroup, hrequest]
  rfl

/-- The search finds the groups above. -/
theorem OnPlainPath.findGroup_dirText {mid : LinkServer} (hmid : Extends s mid loc.domain)
    {before : List Text} (hbefore : before <+: dirs) (hne : dirText isAbsolute before ≠ []) :
    findGroup mid follow version loc (dirText isAbsolute before) =
      (groupMaker assign loc.domain).walk mid loc.uri before := by
  obtain ⟨d, hd, hgroup, hroot⟩ := h.below
  obtain ⟨d', hd', hroot', hobjects⟩ := hmid.store d hd
  have habsolute : (dirText isAbsolute before).head? = some '/' → d'.root = loc.uri := by
    intro hhead
    rw [hroot']
    refine hroot ?_
    cases isAbsolute with
    | true => rfl
    | false =>
        exfalso
        cases before with
        | nil => cases hhead
        | cons x rest =>
            obtain ⟨hx, hclean, -⟩ := h.plain x
              (List.mem_append_left _ (hbefore.subset List.mem_cons_self))
            obtain ⟨c, tail, rfl⟩ := List.exists_cons_of_ne_nil hx
            refine hclean ?_
            obtain rfl : c = '/' := Option.some.inj hhead
            exact List.mem_cons_self
  have hcomponents : components (dirText isAbsolute before) = before := by
    have := components_dirText_append isAbsolute
      (fun x hx => h.plain x (List.mem_append_left _ (hbefore.subset hx))) []
    rw [List.append_nil] at this
    rw [this]
    exact List.append_nil _
  rw [findGroup_eq assign h.old hd' (hobjects _ _ hgroup) habsolute
    ((h.searchable before hbefore hne).1.of_extends hmid), hcomponents]

/-- The search finds the group that was just made. -/
theorem OnPlainPath.findGroup_made {mid : LinkServer} (hmid : Extends s mid loc.domain)
    {before : List Text} {last : Text} (hbefore : before ++ [last] <+: dirs) :
    findGroup mid follow version loc (dirText isAbsolute before ++ last) =
      (groupMaker assign loc.domain).walk mid loc.uri (before ++ [last]) := by
  obtain ⟨d, hd, hgroup, hroot⟩ := h.below
  obtain ⟨d', hd', hroot', hobjects⟩ := hmid.store d hd
  have hplain : ∀ x ∈ before ++ [last], PlainName x := fun x hx =>
    h.plain x (List.mem_append_left _ (hbefore.subset hx))
  have hlast := hplain last (List.mem_append_right _ List.mem_cons_self)
  have hne : dirText isAbsolute (before ++ [last]) ≠ [] := by
    rw [Ne, dirText_eq_nil_iff]
    simp
  have hsearch := (h.searchable (before ++ [last]) hbefore hne).2.of_extends hmid
  rw [removeTrailingSlash_dirText] at hsearch
  have habsolute : (dirText isAbsolute before ++ last).head? = some '/' → d'.root = loc.uri := by
    intro hhead
    rw [hroot']
    refine hroot ?_
    cases isAbsolute with
    | true => rfl
    | false =>
        exfalso
        have hclean {x : Text} (rest : Text) (hx : PlainName x) (hfirst : (x ++ rest).head? = some '/') :
            False := by
          obtain ⟨c, tail, rfl⟩ := List.exists_cons_of_ne_nil hx.1
          obtain rfl : c = '/' := Option.some.inj hfirst
          exact hx.2.1 List.mem_cons_self
        cases before with
        | nil => exact hclean [] hlast (by simpa [dirText] using hhead)
        | cons x rest =>
            refine hclean ('/' :: (dirText false rest ++ last)) (hplain x (by simp)) ?_
            simpa [dirText] using hhead
  have hcomponents : components (dirText isAbsolute before ++ last) = before ++ [last] := by
    rw [components_dirText_append _ (fun x hx => hplain x (List.mem_append_left _ hx)),
      components_of_plain hlast]
  rw [findGroup_eq assign h.old hd' (hobjects _ _ hgroup) habsolute hsearch, hcomponents]

/-- The creation of the group at the end of a part of the path. -/
theorem OnPlainPath.rvGroupCreate_part (before : List Text) (x : Text)
    (hpart : before ++ [x] <+: dirs ++ [name]) (depth : Nat) (hdepth : before.length < depth) :
    rvGroupCreate assign readBody follow version loc plist true depth s
        (dirText isAbsolute before ++ x) =
      some (outcomeOf ((groupMaker assign loc.domain).create s loc.uri before x)) := by
  have hbelow {before : List Text} {x : Text} (hpart : before ++ [x] <+: dirs ++ [name]) :
      before <+: dirs := by
    rcases List.prefix_concat_iff.mp hpart with heq | hdirs
    · exact (List.append_inj' heq rfl).1 ▸ List.prefix_refl _
    · exact (List.prefix_append before [x]).trans hdirs
  have hmem {before : List Text} {x : Text} (hpart : before ++ [x] <+: dirs ++ [name]) :
      x ∈ dirs ++ [name] := hpart.subset (List.mem_append_right _ List.mem_cons_self)
  have hstart := Extends.refl s loc.domain
  induction before using List.reverseRecOn generalizing x depth with
  | nil =>
      obtain ⟨depth, rfl⟩ : ∃ d, depth = d + 1 := ⟨depth - 1, by omega⟩
      have hslash := (h.plain x (hmem hpart)).2.1
      have hfinish := h.finishGroup_eq hstart h.known_start (hmem hpart)
      simp only [rvGroupCreate, h5RestDirname_dirText hslash, h5RestBasename_dirText hslash]
      by_cases hdir : dirText isAbsolute [] = []
      · rw [if_pos hdir, hfinish]
        rfl
      · rw [if_neg hdir, h.findGroup_dirText hstart List.nil_prefix hdir, Maker.walk_nil]
        simp only [hfinish]
        rfl
  | append_singleton before y ih =>
      obtain ⟨depth, rfl⟩ : ∃ d, depth = d + 1 := ⟨depth - 1, by omega⟩
      have hslash := (h.plain x (hmem hpart)).2.1
      have hdirs := hbelow hpart
      have hdir : dirText isAbsolute (before ++ [y]) ≠ [] := by
        rw [Ne, dirText_eq_nil_iff]
        simp
      simp only [rvGroupCreate, h5RestDirname_dirText hslash, h5RestBasename_dirText hslash,
        if_neg hdir, h.findGroup_dirText hstart hdirs hdir, removeTrailingSlash_dirText, if_true]
      cases hwalk : (groupMaker assign loc.domain).walk s loc.uri (before ++ [y]) with
      | some k =>
          have hall := Maker.makeAll_of_walk hwalk
          have hfinish := h.finishGroup_eq hstart (h.known_of_makeAll hall) (hmem hpart)
          simp only [hfinish, Maker.create, hall, Maker.andThen]
      | none =>
          have hconcat := Maker.makeAll_concat groupMaker_lawful hwalk
          have hlength : before.length < depth := by
            rw [List.length_append, List.length_singleton] at hdepth
            omega
          have hcreated := ih y (hdirs.trans (List.prefix_append dirs [name])) depth hlength
          simp only [hcreated, ← hconcat, Option.map_some]
          cases hall : (groupMaker assign loc.domain).makeAll s loc.uri (before ++ [y]) with
          | mk mid result =>
              cases result with
              | none => simp only [outcomeOf, Creation.ofAnswer, Maker.create, hall, Maker.andThen]
              | some k =>
                  have hmid := extends_of_makeAll hall
                  have hfound := (Maker.makeAll_grown groupMaker_lawful hall).2 k rfl
                  have hfinish := h.finishGroup_eq hmid (h.known_of_makeAll hall) (hmem hpart)
                  simp only [outcomeOf, Creation.ofAnswer, Maker.create, hall, Maker.andThen,
                    h.findGroup_made hmid hdirs, hfound, hfinish]

/-- A creation on a path of plain names makes the groups of the path, if it may make those above. -/
theorem OnPlainPath.rvGroupCreate_eq (intermediate : Bool) (depth : Nat)
    (hdepth : dirs.length < depth) :
    rvGroupCreate assign readBody follow version loc plist intermediate depth s
        (dirText isAbsolute dirs ++ name) =
      some (if intermediate = false ∧
          (groupMaker assign loc.domain).walk s loc.uri dirs = none then (s, .failed)
        else outcomeOf ((groupMaker assign loc.domain).create s loc.uri dirs name)) := by
  cases intermediate with
  | true =>
      rw [if_neg fun hand => Bool.noConfusion hand.1]
      exact h.rvGroupCreate_part dirs name (List.prefix_refl _) depth hdepth
  | false =>
      obtain ⟨depth, rfl⟩ : ∃ d, depth = d + 1 := ⟨depth - 1, by omega⟩
      have hstart := Extends.refl s loc.domain
      have hmem : name ∈ dirs ++ [name] := List.mem_append_right _ List.mem_cons_self
      have hslash := (h.plain name hmem).2.1
      simp only [rvGroupCreate, h5RestDirname_dirText hslash, h5RestBasename_dirText hslash,
        Bool.false_eq_true, if_false, true_and]
      by_cases hdir : dirText isAbsolute dirs = []
      · obtain rfl := (dirText_eq_nil_iff.mp hdir).2
        rw [if_pos hdir, h.finishGroup_eq hstart h.known_start hmem, Maker.walk_nil,
          if_neg (Option.some_ne_none _)]
        rfl
      · rw [if_neg hdir, h.findGroup_dirText hstart (List.prefix_refl _) hdir]
        cases hwalk : (groupMaker assign loc.domain).walk s loc.uri dirs with
        | none => rfl
        | some k =>
            have hall := Maker.makeAll_of_walk hwalk
            have hfinish := h.finishGroup_eq hstart (h.known_of_makeAll hall) hmem
            simp only [hfinish, Maker.create, hall, Maker.andThen, reduceCtorEq, if_false]

omit h in
/-- From a group, hard links to groups lead to groups. -/
theorem object_of_walk {d : Domain} {n k : Text} {path : List Text}
    (hstore : s.store loc.domain = some d) (hn : d.objects n = some .group)
    (hwalk : (groupMaker assign loc.domain).walk s n path = some k) : d.objects k = some .group := by
  induction path generalizing n with
  | nil => exact Option.some.inj hwalk ▸ hn
  | cons name rest ih =>
      obtain ⟨m, hm, hrest⟩ := Option.bind_eq_some_iff.mp hwalk
      refine ih ?_ hrest
      obtain ⟨e, -, ho⟩ := Option.bind_eq_some_iff.mp hm
      cases e with
      | soft value => cases ho
      | external file value => cases ho
      | hard uri =>
          obtain ⟨object, hobject, rfl⟩ := Option.map_eq_some_iff.mp ho
          rw [getObject_of_store hstore] at hobject
          split at hobject
          · next hgroup =>
              obtain rfl := Option.some.inj hobject
              exact hgroup
          · cases hobject

omit h in
/-- The server has no free id for a new group. -/
def Exhausted (assign : Domain → Option Text) (s : LinkServer) (domain : Text) : Prop :=
  ∃ d, s.store domain = some d ∧ ∀ uri, assign d = some uri → d.objects uri ≠ none

/-- A creation that fails has changed nothing, or the server had no id for a group. -/
theorem OnPlainPath.unchanged_or_exhausted {after : LinkServer}
    (hcreate : (groupMaker assign loc.domain).create s loc.uri dirs name = (after, none)) :
    after = s ∨ Exhausted assign after loc.domain := by
  refine (Maker.create_refused groupMaker_lawful hcreate).imp_right ?_
  rintro ⟨before, other, rest, k, hpath, hall, hempty, hmake⟩
  obtain ⟨d, hd, hgroup, -⟩ := h.below
  obtain ⟨d', hd', -, hobjects⟩ := (extends_of_makeAll hall).store d hd
  have hk : d'.objects k = some .group := object_of_walk hd' (hobjects _ _ hgroup)
    ((Maker.makeAll_grown groupMaker_lawful hall).2 k rfl)
  have hother : PlainName other := by
    refine h.plain other ?_
    rw [hpath]
    exact List.mem_append_right _ List.mem_cons_self
  refine ⟨d', hd', fun uri hassign hfree => ?_⟩
  have hlink : d'.links k other = none := (linkAt_of_store hd' k other).symm.trans (hempty other)
  have hallows : d'.Allows uri k other := ⟨hfree, hk, hlink, hother.1⟩
  have hanswer : (after.postGroup assign loc.domain k other).2 = none := congrArg Prod.snd hmake
  rw [LinkServer.postGroup, hd'] at hanswer
  simp only [hassign, dif_pos hallows] at hanswer
  cases hanswer

omit h in
theorem length_le_dirText (isAbsolute : Bool) (dirs : List Text) :
    dirs.length ≤ (dirText isAbsolute dirs).length := by
  induction dirs using List.reverseRecOn with
  | nil => exact Nat.zero_le _
  | append_singleton dirs name ih =>
      simp only [dirText_concat, List.length_append, List.length_singleton]
      omega

/-- `RV_group_create` on a path of plain names. It makes the group at the end of the path if there is
none, with the groups above that are missing if it may; every link that was there stays as it is, and
every new one is on the path and leads to a new group. When it fails it has changed nothing, unless
the server had no id for a group. -/
theorem OnPlainPath.rvGroupCreateCall_exact (htype : loc.type ∈ containers) (intermediate : Bool) :
    ∃ after made,
      rvGroupCreateCall assign readBody follow version loc plist intermediate true s
        (some (dirText isAbsolute dirs ++ name)) = some (after, made) ∧
      (groupMaker assign loc.domain).Grown s after loc.uri (dirs ++ [name]) ∧
      made ≠ .undefined ∧
      (∀ uri, made = .created uri →
        (groupMaker assign loc.domain).walk s loc.uri (dirs ++ [name]) = none ∧
        (groupMaker assign loc.domain).walk after loc.uri (dirs ++ [name]) = some uri) ∧
      (made = .failed → after = s ∨ Exhausted assign after loc.domain) ∧
      (intermediate = false → (groupMaker assign loc.domain).walk s loc.uri dirs = none →
        after = s ∧ made = .failed) := by
  have hdepth : dirs.length < (dirText isAbsolute dirs ++ name).length + 1 := by
    have hle := length_le_dirText isAbsolute dirs
    rw [List.length_append]
    omega
  have hcall : rvGroupCreateCall assign readBody follow version loc plist intermediate true s
      (some (dirText isAbsolute dirs ++ name)) = rvGroupCreate assign readBody follow version loc
        plist intermediate ((dirText isAbsolute dirs ++ name).length + 1) s
        (dirText isAbsolute dirs ++ name) := by
    rw [rvGroupCreateCall, if_neg]
    simp [htype]
  rw [hcall, h.rvGroupCreate_eq intermediate _ hdepth]
  by_cases hrefused : intermediate = false ∧
      (groupMaker assign loc.domain).walk s loc.uri dirs = none
  · rw [if_pos hrefused]
    exact ⟨s, .failed, rfl, .refl s loc.uri _, Creation.noConfusion,
      fun uri => Creation.noConfusion, fun _ => .inl rfl, fun _ _ => ⟨rfl, rfl⟩⟩
  · rw [if_neg hrefused]
    cases hcreate : (groupMaker assign loc.domain).create s loc.uri dirs name with
    | mk after result =>
        obtain ⟨hgrown, hlast⟩ := Maker.create_grown groupMaker_lawful hcreate
        refine ⟨after, .ofAnswer result, rfl, hgrown, ?_, fun uri hmade => ?_, fun hfailed => ?_,
          fun hflag hnone => absurd ⟨hflag, hnone⟩ hrefused⟩
        · cases result <;> exact Creation.noConfusion
        · cases result with
          | none => cases hmade
          | some m =>
              obtain rfl : m = uri := Creation.created.inj hmade
              exact hlast m rfl
        · cases result with
          | none => exact h.unchanged_or_exhausted hcreate
          | some m => cases hfailed

end Creations

section Below

variable (assign : Domain → Option Text) (readBody : Text → Option (Text × Text))
  (follow : LinkServer → LocObject → Text → Option Text) (version : ServerApiVersion)
  (loc : LocObject) (plist : Text) (intermediate writable : Bool) (s : LinkServer)

/-- Whatever the name, every call ends, and a bound on the depth changes nothing beyond its length. -/
theorem rvGroupCreateCall_ends (name : Text) : ∃ result,
    rvGroupCreateCall assign readBody follow version loc plist intermediate writable s (some name) =
        some result ∧
      ∀ more, loc.type ∈ containers → writable = true →
        rvGroupCreate assign readBody follow version loc plist intermediate
          (name.length + 1 + more) s name = some result := by
  by_cases hrefused : loc.type ∉ containers ∨ ¬writable
  · refine ⟨(s, .failed), by rw [rvGroupCreateCall, if_pos hrefused], fun more htype hwritable => ?_⟩
    exact absurd hrefused (by simp [htype, hwritable])
  · obtain ⟨result, hresult, hmore⟩ := rvGroupCreate_ends assign readBody follow version loc plist
      intermediate (name.length + 1) s name (Nat.lt_succ_self _)
    exact ⟨result, by rw [rvGroupCreateCall, if_neg hrefused, hresult], fun more _ _ => hmore more⟩

end Below

/-! ## A group below two -/

/-- The server has two ids to give. -/
def twoIds (d : Domain) : Option Text := if d.objects ['m'] = none then some ['m'] else some ['n']

/-- The id and the name between their quotes. -/
def readQuoted (body : Text) : Option (Text × Text) :=
  let parts := body.splitOn '"'
  parts[5]?.bind fun uri => parts[9]?.map fun name => (uri, name)

instance (s : LinkServer) (loc : LocObject) (path : Text) : Decidable (Searchable s loc path) :=
  decidable_of_iff (path.head? ≠ some ' ' ∧ ¬ ['.', '.'] <+: path ∧ path ≠ ['.'] ∧
      components (s.unescape (h5RestUrlEncodePath s.escape path)) = components path ∧
      (s.baseURL ++ lit "/groups/" ++ loc.uri ++ lit "?h5path=" ++
        h5RestUrlEncodePath s.escape path).length < urlMaxLength)
    ⟨fun h => ⟨h.1, h.2.1, h.2.2.1, h.2.2.2.1, h.2.2.2.2⟩,
      fun h => ⟨h.noBlank, h.noDots, h.notDot, h.decoded, h.short⟩⟩

/-- In the file with the group `a`, the group `a/b/c` can be created. -/
theorem onPlainPath_abc : OnPlainPath twoIds readQuoted ⟨0, 7, 0⟩ openFile [] groupServer false
    [['a'], ['b']] ['c'] where
  old := rfl
  below := ⟨oneGroup, rfl, rfl, fun h => Bool.noConfusion h⟩
  plain := by decide
  searchable before hbefore := by
    have hall : ∀ before ∈ List.inits [['a'], ['b']], dirText false before ≠ [] →
        Searchable groupServer openFile (dirText false before) ∧
          Searchable groupServer openFile (removeTrailingSlash (dirText false before)) := by
      with_unfolding_all decide
    exact hall before ((List.mem_inits _ _).mpr hbefore)
  posts := by with_unfolding_all decide
  reads uri huri := by
    have hids : uri ∈ [['g'], ['k'], ['m'], ['n']] := by
      rcases huri with ⟨d, hd, hgroup⟩ | ⟨d, hassign⟩
      · obtain rfl := Option.some.inj hd
        have hobjects : (if uri = ['g'] ∨ uri = ['k'] then some ObjType.group else none) =
            some .group := hgroup
        split at hobjects
        · next h => rcases h with rfl | rfl <;> decide
        · cases hobjects
      · rw [twoIds] at hassign
        split at hassign <;> cases hassign <;> decide
    have hall : ∀ uri ∈ [['g'], ['k'], ['m'], ['n']], ∀ x ∈ [['a'], ['b']] ++ [['c']],
        readQuoted (groupRequestBody uri x []) = some (uri, x) := by
      with_unfolding_all decide
    exact hall uri hids

theorem rvGroupCreateCall_exact_abc : ∃ after made,
    rvGroupCreateCall twoIds readQuoted followHard ⟨0, 7, 0⟩ openFile [] true true groupServer
      (some (dirText false [['a'], ['b']] ++ ['c'])) = some (after, made) ∧
    (groupMaker twoIds ['f']).Grown groupServer after ['g'] [['a'], ['b'], ['c']] := by
  obtain ⟨after, made, hcall, hgrown, -⟩ :=
    onPlainPath_abc.rvGroupCreateCall_exact (by decide) true
  exact ⟨after, made, hcall, hgrown⟩

end XHDF5.Links
