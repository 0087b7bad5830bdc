/-
# Tables of links

`RV_build_link_table` builds the table of a group from the answer of the server, and for a recursive
iteration the tables of the groups below. A hash table keeps the groups whose links were asked for, so
that each of them is asked for once. The group where the iteration starts is not in it.
-/

import XHDF5.Client.CreateBody
import XHDF5.Links.Resume
import Mathlib.Data.Finset.Basic
import Mathlib.Data.Finset.Card
import Mathlib.Data.List.Perm.Basic
import Mathlib.Logic.Relation

namespace XHDF5.Links

open XHDF5.Math XHDF5.Client

/-! ## The server -/

/-- What a link leads to: an object of a collection, or a path. -/
inductive LinkTarget
  | hard (collection id : Text)
  | soft
  | external
deriving DecidableEq

/-- A link in the answer of the server, with its creation time. -/
structure ListedLink where
  title : Text
  created : ℚ
  target : LinkTarget

/-- The group that a link leads to. -/
def ListedLink.group? (l : ListedLink) : Option Text :=
  match l.target with
  | .hard collection id => if collection = lit "groups" then some id else none
  | _ => none

/-- The groups of a file with their links, in the order of the answers. The names of the links of a
group differ and have no slash, and neither has an identifier. -/
structure LinkStore where
  baseURL : Text
  escape : EasyEscape
  groups : Finset Text
  links : Text → List ListedLink
  closed : ∀ g ∈ groups, ∀ l ∈ links g, ∀ h, l.group? = some h → h ∈ groups
  titles : ∀ g, ((links g).map ListedLink.title).Nodup
  names : ∀ g, ∀ l ∈ links g, '/' ∉ l.title
  ids : ∀ g ∈ groups, '/' ∉ g

namespace LinkStore

variable (s : LinkStore)

/-- A link of the first group leads to the second one. -/
def Leads (g h : Text) : Prop := ∃ l ∈ s.links g, l.group? = some h

/-- The link at the end of a path: its group and its name. -/
def linkAt : Text → List Text → Option (Text × Text)
  | _, [] => none
  | g, [name] => ((s.links g).find? fun l => l.title = name).map fun _ => (g, name)
  | g, name :: next :: rest =>
      ((s.links g).find? fun l => l.title = name).bind fun l =>
        l.group?.bind fun h => linkAt h (next :: rest)

/-- The URL for the links of a group. -/
def linksUrl (id : Text) : Option Text :=
  checkUrl (s.baseURL ++ lit "/groups/" ++ curlEasyEscape s.escape (h5RestBasename id) ++ lit "/links")

/-- `GET /groups/<id>/links`, when the URL is not too long. -/
def getLinks (id : Text) : Option (List ListedLink) :=
  (s.linksUrl id).map fun _ => s.links (h5RestBasename id)

end LinkStore

/-! ## The code -/

/-- `LINK_NAME_MAX_LENGTH`. -/
def linkNameMaxLength : Nat := 2048

/-- A table, and the identifiers in the hash table. -/
abbrev Built := List LinkEntry × List Text

/-- The body of the loop in `RV_build_link_table`, with the way to build the table of a subgroup.
`strncpy` leaves no NUL behind a name that fills the array. -/
def buildEntry (nested : Text → List Text → Outcome Built) (l : ListedLink) (visited : List Text) :
    Outcome (LinkEntry × List Text) :=
  if linkNameMaxLength ≤ l.title.length then .undefined
  else
    match l.group? with
    | none => .ok (⟨l.title, l.created, []⟩, visited)
    | some id =>
        if id ∈ visited then .ok (⟨l.title, l.created, []⟩, visited)
        else (nested id (id :: visited)).bind fun b => .ok (⟨l.title, l.created, b.1⟩, b.2)

/-- The loop in `RV_build_link_table`. -/
def buildEntries (nested : Text → List Text → Outcome Built) : List ListedLink → List Text → Outcome Built
  | [], visited => .ok ([], visited)
  | l :: links, visited =>
      (buildEntry nested l visited).bind fun e =>
        (buildEntries nested links e.2).bind fun b => .ok (e.1 :: b.1, b.2)

/-- `H5_index_t`. -/
inductive IndexType
  | name
  | crtOrder
deriving DecidableEq

/-- `qsort` with `H5_rest_cmp_links_by_creation_order_inc`, or no sorting. -/
def IndexType.sort (index : IndexType) (table : List LinkEntry) : List LinkEntry :=
  match index with
  | .name => table
  | .crtOrder => table.mergeSort fun a b => a.crtTime ≤ b.crtTime

/-- `RV_build_link_table` for a recursive iteration, with a bound on the depth of the calls. -/
def rvBuildLinkTable (s : LinkStore) (index : IndexType) :
    Nat → List ListedLink → List Text → Outcome Built
  | 0, _, _ => .undefined
  | depth + 1, links, visited =>
      (buildEntries (fun id visited =>
        match s.getLinks id with
        | none => .fail
        | some links => rvBuildLinkTable s index depth links visited) links visited).bind fun b =>
          .ok (index.sort b.1, b.2)

/-- `H5Lvisit` from a group on, with a function of the user that always returns zero. -/
def h5Lvisit (s : LinkStore) (index : IndexType) (order : IterOrder) (depth : Nat) (start : Text) :
    Outcome Run :=
  (rvBuildLinkTable s index depth (s.links start) []).bind fun b =>
    match h5Literate order none 0 (fun _ => 0) b.1 with
    | none => .undefined
    | some run => .ok run

/-! ## What a visit should report -/

/-- Each link of each group that can be reached is reported once, under a path that leads to it. -/
structure LinkStore.ReportsAll (s : LinkStore) (start : Text) (reported : List Text) : Prop where
  once : (reported.map fun path => s.linkAt start (path.splitOn '/')).Nodup
  all : ∀ x, (x ∈ reported.map fun path => s.linkAt start (path.splitOn '/')) ↔
    ∃ g, Relation.ReflTransGen s.Leads start g ∧ ∃ l ∈ s.links g, x = some (g, l.title)

/-- The visit ends, and reports all links once. -/
def LinkStore.Visited (s : LinkStore) (index : IndexType) (order : IterOrder) (start : Text) : Prop :=
  ∃ depth run, h5Lvisit s index order depth start = .ok run ∧ run.ret = 0 ∧
    s.ReportsAll start run.visited

/-- No link leads back to the group where the visit starts, the names of the links fit into the table,
and the URLs of the groups are not too long. -/
structure LinkStore.Visitable (s : LinkStore) (start : Text) : Prop where
  noReturn : ¬ Relation.TransGen s.Leads start start
  short : ∀ g, Relation.ReflTransGen s.Leads start g → ∀ l ∈ s.links g,
    l.title.length < linkNameMaxLength
  urls : ∀ g, Relation.TransGen s.Leads start g → (s.linksUrl g).isSome

end XHDF5.Links
