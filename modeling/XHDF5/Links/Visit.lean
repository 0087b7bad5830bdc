/-
# Recursive visits

A table that is built below a group has the links of that group and of the groups that are new in the
hash table, each once, under paths that lead to them. So a visit reports every link once exactly when
the group where it starts does not become new itself, that is when no link leads back to it.
-/

import XHDF5.Links.LinkTable
import XHDF5.Exchange.Address

namespace XHDF5.Links

open XHDF5.Math XHDF5.Client
open Relation (TransGen ReflTransGen)

/-! ## Paths -/

/-- The paths of the links below a group, as lists of names. -/
def namePaths (order : IterOrder) (table : List LinkEntry) : List (List Text) :=
  (order.ordered table.attach).flatMap fun e =>
    [e.1.name] :: (namePaths order e.1.subgroup).map fun names => e.1.name :: names
termination_by sizeOf table
decreasing_by
  have hmem := List.sizeOf_lt_of_mem e.2
  have hsub := e.1.sizeOf_subgroup
  omega

/-- The paths of an entry. -/
def entryPaths (order : IterOrder) (e : LinkEntry) : List (List Text) :=
  [e.name] :: (namePaths order e.subgroup).map fun names => e.name :: names

theorem namePaths_eq (order : IterOrder) (table : List LinkEntry) :
    namePaths order table = (order.ordered table).flatMap (entryPaths order) := by
  conv_rhs => rw [← List.attach_map_subtype_val table, ordered_map, List.flatMap_map]
  rw [namePaths]
  rfl

theorem ordered_perm {β : Type*} (order : IterOrder) (table : List β) :
    (order.ordered table).Perm table := by
  cases order with
  | native | inc => exact List.Perm.refl table
  | dec => exact List.reverse_perm table

theorem namePaths_perm (order : IterOrder) {table entries : List LinkEntry} (h : table.Perm entries) :
    (namePaths order table).Perm (entries.flatMap (entryPaths order)) := by
  rw [namePaths_eq]
  exact ((ordered_perm order table).trans h).flatMap_right _

theorem ne_nil_of_mem_namePaths {order : IterOrder} {table : List LinkEntry} {names : List Text}
    (h : names ∈ namePaths order table) : names ≠ [] := by
  rw [namePaths_eq] at h
  obtain ⟨e, -, hnames⟩ := List.mem_flatMap.mp h
  rcases List.mem_cons.mp hnames with rfl | hnames
  · exact List.cons_ne_nil _ _
  · obtain ⟨rest, -, rfl⟩ := List.mem_map.mp hnames
    exact List.cons_ne_nil _ _

/-- The text of a path. -/
def pathText (names : List Text) : Text := ['/'].intercalate names

theorem pathText_cons (name : Text) {names : List Text} (h : names ≠ []) :
    pathText (name :: names) = name ++ '/' :: pathText names := by
  obtain ⟨next, rest, rfl⟩ := List.exists_cons_of_ne_nil h
  simp [pathText, List.intercalate]

/-- The paths that the function of the user is called for. -/
theorem linkPlaces_namePaths (order : IterOrder) (path : Option Text) (table : List LinkEntry) :
    (linkPlaces order path table).map Prod.fst =
      (namePaths order table).map fun names => relPath path (pathText names) := by
  rw [linkPlaces_eq, namePaths_eq, List.map_flatMap, List.map_flatMap]
  have hentry : ∀ e ∈ order.ordered table,
      ((relPath path e.name, 0) ::
        (linkPlaces order (some (relPath path e.name)) e.subgroup).map fun place =>
          (place.1, place.2 + 1)).map Prod.fst =
        (entryPaths order e).map fun names => relPath path (pathText names) := by
    intro e he
    have hmem := List.sizeOf_lt_of_mem (mem_ordered.mp he)
    have hsub := e.sizeOf_subgroup
    have hone : pathText [e.name] = e.name := by simp [pathText, List.intercalate]
    rw [List.map_cons, List.map_map, entryPaths, List.map_cons, hone, List.map_map]
    congr 1
    have hbelow := linkPlaces_namePaths order (some (relPath path e.name)) e.subgroup
    change (linkPlaces order (some (relPath path e.name)) e.subgroup).map Prod.fst = _
    rw [hbelow]
    refine List.map_congr_left fun names hnames => ?_
    rw [Function.comp_apply, pathText_cons e.name (ne_nil_of_mem_namePaths hnames)]
    cases path with
    | none => rfl
    | some path => simp [relPath]
  exact List.flatMap_congr hentry
termination_by sizeOf table

/-! ## What a table has -/

namespace LinkStore

variable {s : LinkStore}

/-- The links of a group, as the ends of paths. -/
def linksOf (s : LinkStore) (g : Text) : List (Option (Text × Text)) :=
  (s.links g).map fun l => some (g, l.title)

/-- What is built for some links of a group: the groups that are new in the hash table, and the paths
of the table. -/
structure Expands (s : LinkStore) (g : Text) (ls : List ListedLink) (visited new : List Text)
    (paths : List (List Text)) : Prop where
  nodup : new.Nodup
  fresh : ∀ h ∈ new, h ∉ visited
  reached : ∀ h ∈ new, TransGen s.Leads g h
  seen : ∀ l ∈ ls, ∀ h, l.group? = some h → h ∈ new ++ visited
  closed : ∀ r ∈ new, ∀ l ∈ s.links r, ∀ h, l.group? = some h → h ∈ new ++ visited
  paths : (paths.map (s.linkAt g)).Perm
    (ls.map (fun l => some (g, l.title)) ++ new.flatMap s.linksOf)
  short : ∀ l ∈ ls, l.title.length < linkNameMaxLength
  shortBelow : ∀ r ∈ new, ∀ l ∈ s.links r, l.title.length < linkNameMaxLength
  urls : ∀ r ∈ new, (s.linksUrl r).isSome

theorem Expands.nil (g : Text) (visited : List Text) : s.Expands g [] visited [] [] :=
  ⟨List.nodup_nil, nofun, nofun, nofun, nofun, List.Perm.nil, nofun, nofun, nofun⟩

/-- One link after the other. -/
theorem Expands.cons {g : Text} {l : ListedLink} {ls : List ListedLink} {visited new more : List Text}
    {paths rest : List (List Text)} (h : s.Expands g [l] visited new paths)
    (hrest : s.Expands g ls (new ++ visited) more rest) :
    s.Expands g (l :: ls) visited (more ++ new) (paths ++ rest) := by
  constructor
  · refine List.nodup_append.mpr ⟨hrest.nodup, h.nodup, fun a ha b hb hab => ?_⟩
    exact hrest.fresh a ha (List.mem_append_left _ (hab ▸ hb))
  · intro r hr
    rcases List.mem_append.mp hr with hr | hr
    · exact fun hvisited => hrest.fresh r hr (List.mem_append_right _ hvisited)
    · exact h.fresh r hr
  · intro r hr
    rcases List.mem_append.mp hr with hr | hr
    · exact hrest.reached r hr
    · exact h.reached r hr
  · intro k hk r hr
    rw [List.append_assoc]
    rcases List.mem_cons.mp hk with rfl | hk
    · exact List.mem_append_right _ (h.seen k (by simp) r hr)
    · exact hrest.seen k hk r hr
  · intro r hr k hk t ht
    rw [List.append_assoc]
    rcases List.mem_append.mp hr with hr | hr
    · exact hrest.closed r hr k hk t ht
    · exact List.mem_append_right _ (h.closed r hr k hk t ht)
  · rw [List.map_append, List.map_cons, List.flatMap_append]
    have hboth := h.paths.append hrest.paths
    refine hboth.trans ?_
    rw [List.map_singleton, List.singleton_append, List.cons_append, List.cons_append]
    refine List.Perm.cons _ ?_
    rw [← List.append_assoc, ← List.append_assoc]
    refine (List.perm_append_comm.append_right (more.flatMap s.linksOf)).trans ?_
    rw [List.append_assoc, List.append_assoc]
    exact List.perm_append_comm.append_left _
  · exact List.forall_mem_cons.mpr ⟨h.short l (by simp), hrest.short⟩
  · intro r hr
    rcases List.mem_append.mp hr with hr | hr
    · exact hrest.shortBelow r hr
    · exact h.shortBelow r hr
  · intro r hr
    rcases List.mem_append.mp hr with hr | hr
    · exact hrest.urls r hr
    · exact h.urls r hr

theorem Expands.perm {g : Text} {ls : List ListedLink} {visited new : List Text}
    {paths others : List (List Text)} (h : s.Expands g ls visited new paths) (hperm : others.Perm paths) :
    s.Expands g ls visited new others :=
  { h with paths := (hperm.map _).trans h.paths }

theorem find?_title {g : Text} {l : ListedLink} (hl : l ∈ s.links g) :
    (s.links g).find? (fun k => k.title = l.title) = some l := by
  have hfind (links : List ListedLink) (hl : l ∈ links)
      (htitles : (links.map ListedLink.title).Nodup) :
      links.find? (fun k => k.title = l.title) = some l := by
    induction links with
    | nil => cases hl
    | cons k links ih =>
        rw [List.map_cons, List.nodup_cons] at htitles
        rcases List.mem_cons.mp hl with rfl | hl
        · rw [List.find?_cons]
          simp
        · have hne : k.title ≠ l.title := fun heq => htitles.1 (heq ▸ List.mem_map_of_mem hl)
          rw [List.find?_cons_of_neg (by simpa using hne)]
          exact ih hl htitles.2
  exact hfind (s.links g) hl (s.titles g)

theorem linkAt_one {g : Text} {l : ListedLink} (hl : l ∈ s.links g) :
    s.linkAt g [l.title] = some (g, l.title) := by
  rw [linkAt, find?_title hl, Option.map_some]

theorem linkAt_cons {g h : Text} {l : ListedLink} (hl : l ∈ s.links g) (hgroup : l.group? = some h)
    {names : List Text} (hnames : names ≠ []) : s.linkAt g (l.title :: names) = s.linkAt h names := by
  obtain ⟨next, rest, rfl⟩ := List.exists_cons_of_ne_nil hnames
  rw [linkAt, find?_title hl, Option.bind_some, hgroup, Option.bind_some]

/-- A link that is not followed. -/
theorem Expands.leaf {g : Text} {l : ListedLink} (hl : l ∈ s.links g) {visited : List Text}
    (hshort : l.title.length < linkNameMaxLength)
    (hseen : ∀ h, l.group? = some h → h ∈ visited) : s.Expands g [l] visited [] [[l.title]] := by
  refine ⟨List.nodup_nil, nofun, nofun, ?_, nofun, ?_, ?_, nofun, nofun⟩
  · intro k hk h hgroup
    cases List.mem_singleton.mp hk
    exact hseen h hgroup
  · rw [List.map_singleton, linkAt_one hl]
    exact List.Perm.refl _
  · intro k hk
    cases List.mem_singleton.mp hk
    exact hshort

/-- A link to a group that is new: the group and what is new below it are followed. -/
theorem Expands.follow {g h : Text} {l : ListedLink} (hl : l ∈ s.links g) (hgroup : l.group? = some h)
    {visited new : List Text} {paths : List (List Text)} (hnew : h ∉ visited)
    (hshort : l.title.length < linkNameMaxLength) (hurl : (s.linksUrl h).isSome)
    (hpaths : ∀ names ∈ paths, names ≠ [])
    (hbelow : s.Expands h (s.links h) (h :: visited) new paths) :
    s.Expands g [l] visited (new ++ [h]) ([l.title] :: paths.map fun names => l.title :: names) := by
  have hleads : s.Leads g h := ⟨l, hl, hgroup⟩
  have hmove {r : Text} (hr : r ∈ new ++ h :: visited) : r ∈ (new ++ [h]) ++ visited := by
    rw [List.append_assoc, List.singleton_append]
    exact hr
  constructor
  · refine List.nodup_append.mpr ⟨hbelow.nodup, List.nodup_singleton h, fun a ha b hb hab => ?_⟩
    rw [List.mem_singleton.mp hb] at hab
    exact hbelow.fresh a ha (hab ▸ List.mem_cons_self)
  · intro r hr
    rcases List.mem_append.mp hr with hr | hr
    · exact fun hvisited => hbelow.fresh r hr (List.mem_cons_of_mem h hvisited)
    · rw [List.mem_singleton.mp hr]
      exact hnew
  · intro r hr
    rcases List.mem_append.mp hr with hr | hr
    · exact (TransGen.single hleads).trans (hbelow.reached r hr)
    · rw [List.mem_singleton.mp hr]
      exact TransGen.single hleads
  · intro k hk r hr
    cases List.mem_singleton.mp hk
    cases hgroup.symm.trans hr
    exact hmove (List.mem_append_right _ List.mem_cons_self)
  · intro r hr k hk t ht
    rcases List.mem_append.mp hr with hr | hr
    · exact hmove (hbelow.closed r hr k hk t ht)
    · cases List.mem_singleton.mp hr
      exact hmove (hbelow.seen k hk t ht)
  · have hinner : (paths.map fun names => l.title :: names).map (s.linkAt g) =
        paths.map (s.linkAt h) := by
      rw [List.map_map]
      exact List.map_congr_left fun names hnames => linkAt_cons hl hgroup (hpaths names hnames)
    rw [List.map_cons, linkAt_one hl, hinner, List.flatMap_append, List.flatMap_cons, List.flatMap_nil,
      List.append_nil]
    exact (hbelow.paths.trans List.perm_append_comm).cons _
  · intro k hk
    cases List.mem_singleton.mp hk
    exact hshort
  · intro r hr
    rcases List.mem_append.mp hr with hr | hr
    · exact hbelow.shortBelow r hr
    · cases List.mem_singleton.mp hr
      exact hbelow.short
  · intro r hr
    rcases List.mem_append.mp hr with hr | hr
    · exact hbelow.urls r hr
    · cases List.mem_singleton.mp hr
      exact hurl

/-! ## The tables of the code -/

theorem h5RestBasename_id {g : Text} (hg : g ∈ s.groups) : h5RestBasename g = g := by
  have hslash := s.ids g hg
  have hall : ∀ c ∈ g.reverse, decide (c ≠ '/') = true := by
    intro c hc
    rw [decide_eq_true_iff]
    rintro rfl
    exact hslash (List.mem_reverse.mp hc)
  have hwhole := @List.takeWhile_append_of_pos _ _ _ [] hall
  rw [List.append_nil, List.takeWhile_nil, List.append_nil] at hwhole
  rw [h5RestBasename, hwhole, List.reverse_reverse]

/-- The nested call builds tables of groups. -/
def BuildsTables (s : LinkStore) (order : IterOrder) (nested : Text → List Text → Outcome Built) :
    Prop :=
  ∀ h ∈ s.groups, ∀ visited b, nested h visited = .ok b → (s.linksUrl h).isSome ∧
    ∃ new, b.2 = new ++ visited ∧ s.Expands h (s.links h) visited new (namePaths order b.1)

theorem buildEntry_expands {order : IterOrder} {nested : Text → List Text → Outcome Built}
    (hnested : s.BuildsTables order nested) {g : Text} (hg : g ∈ s.groups) {l : ListedLink}
    (hl : l ∈ s.links g) {visited : List Text} {e : LinkEntry × List Text}
    (h : buildEntry nested l visited = .ok e) :
    ∃ new, e.2 = new ++ visited ∧ s.Expands g [l] visited new (entryPaths order e.1) := by
  have hempty : namePaths order [] = [] := by
    rw [namePaths_eq]
    cases order <;> rfl
  rw [buildEntry] at h
  split_ifs at h with hlong
  · have hshort := Nat.not_le.mp hlong
    cases hgroup : l.group? with
    | none =>
        rw [hgroup] at h
        rw [← Outcome.ok.inj h, entryPaths, hempty]
        exact ⟨[], rfl, .leaf hl hshort fun r hr => by rw [hgroup] at hr; cases hr⟩
    | some id =>
        rw [hgroup] at h
        simp only at h
        split_ifs at h with hvisited
        · rw [← Outcome.ok.inj h, entryPaths, hempty]
          refine ⟨[], rfl, .leaf hl hshort fun r hr => ?_⟩
          cases hgroup.symm.trans hr
          exact hvisited
        · obtain ⟨b, hb, he⟩ := Outcome.bind_eq_ok_iff.mp h
          obtain ⟨hurl, new, hnew, hbelow⟩ :=
            hnested id (s.closed g hg l hl id hgroup) (id :: visited) b hb
          rw [← Outcome.ok.inj he]
          refine ⟨new ++ [id], ?_, ?_⟩
          · rw [hnew, List.append_assoc]
            rfl
          · exact .follow hl hgroup hvisited hshort hurl (fun names => ne_nil_of_mem_namePaths) hbelow

theorem buildEntries_expands {order : IterOrder} {nested : Text → List Text → Outcome Built}
    (hnested : s.BuildsTables order nested) {g : Text} (hg : g ∈ s.groups) {ls : List ListedLink}
    (hls : ∀ l ∈ ls, l ∈ s.links g) {visited : List Text} {b : Built}
    (h : buildEntries nested ls visited = .ok b) :
    ∃ new, b.2 = new ++ visited ∧ s.Expands g ls visited new (b.1.flatMap (entryPaths order)) := by
  induction ls generalizing visited b with
  | nil =>
      rw [← Outcome.ok.inj h]
      exact ⟨[], rfl, .nil g visited⟩
  | cons l ls ih =>
      rw [buildEntries] at h
      obtain ⟨e, he, hrest⟩ := Outcome.bind_eq_ok_iff.mp h
      obtain ⟨c, hc, hb⟩ := Outcome.bind_eq_ok_iff.mp hrest
      obtain ⟨new, hnew, hfirst⟩ := buildEntry_expands hnested hg (hls l (by simp)) he
      obtain ⟨more, hmore, hlater⟩ := ih (fun k hk => hls k (by simp [hk])) hc
      rw [← Outcome.ok.inj hb]
      refine ⟨more ++ new, ?_, ?_⟩
      · rw [hmore, hnew, List.append_assoc]
      · rw [List.flatMap_cons]
        rw [hnew] at hlater
        exact hfirst.cons hlater

theorem sort_perm (index : IndexType) (table : List LinkEntry) : (index.sort table).Perm table := by
  cases index with
  | name => exact List.Perm.refl table
  | crtOrder => exact List.mergeSort_perm table _

/-- The call for a subgroup. -/
def nestedCall (s : LinkStore) (index : IndexType) (depth : Nat) (id : Text) (visited : List Text) :
    Outcome Built :=
  match s.getLinks id with
  | none => .fail
  | some links => rvBuildLinkTable s index depth links visited

theorem getLinks_group {g : Text} (hg : g ∈ s.groups) :
    s.getLinks g = if (s.linksUrl g).isSome then some (s.links g) else none := by
  rw [getLinks, h5RestBasename_id hg]
  cases s.linksUrl g <;> rfl

theorem buildsTables_nestedCall {order : IterOrder} {index : IndexType} {depth : Nat}
    (h : ∀ g ∈ s.groups, ∀ visited b, rvBuildLinkTable s index depth (s.links g) visited = .ok b →
      ∃ new, b.2 = new ++ visited ∧ s.Expands g (s.links g) visited new (namePaths order b.1)) :
    s.BuildsTables order (nestedCall s index depth) := by
  intro g hg visited b hb
  rw [nestedCall, getLinks_group hg] at hb
  by_cases hurl : (s.linksUrl g).isSome
  · rw [if_pos hurl] at hb
    exact ⟨hurl, h g hg visited b hb⟩
  · rw [if_neg hurl] at hb
    cases hb

/-- The table of a group, and the groups that are new. -/
theorem rvBuildLinkTable_expands (order : IterOrder) (index : IndexType) (depth : Nat) :
    ∀ g ∈ s.groups, ∀ visited b, rvBuildLinkTable s index depth (s.links g) visited = .ok b →
      ∃ new, b.2 = new ++ visited ∧ s.Expands g (s.links g) visited new (namePaths order b.1) := by
  induction depth with
  | zero => nofun
  | succ depth ih =>
      intro g hg visited b h
      rw [rvBuildLinkTable] at h
      obtain ⟨c, hc, hb⟩ := Outcome.bind_eq_ok_iff.mp h
      obtain ⟨new, hnew, hexpands⟩ :=
        buildEntries_expands (buildsTables_nestedCall ih) hg (fun l hl => hl) hc
      rw [← Outcome.ok.inj hb]
      exact ⟨new, hnew, hexpands.perm (namePaths_perm order (sort_perm index c.1))⟩

/-! ## Termination -/

/-- The number of groups that are not in the hash table. -/
def unvisited (s : LinkStore) (visited : List Text) : Nat :=
  (s.groups.filter fun g => g ∉ visited).card

theorem unvisited_cons_lt {g : Text} (hg : g ∈ s.groups) {visited : List Text} (hnew : g ∉ visited) :
    s.unvisited (g :: visited) < s.unvisited visited := by
  refine Finset.card_lt_card (Finset.ssubset_iff_of_subset ?_ |>.mpr ⟨g, ?_, ?_⟩)
  · exact Finset.monotone_filter_right _ fun r _ hr hmem => hr (List.mem_cons_of_mem g hmem)
  · exact Finset.mem_filter.mpr ⟨hg, hnew⟩
  · exact fun hmem => (Finset.mem_filter.mp hmem).2 List.mem_cons_self

theorem unvisited_append_le (new visited : List Text) :
    s.unvisited (new ++ visited) ≤ s.unvisited visited :=
  Finset.card_le_card
    (Finset.monotone_filter_right _ fun _ _ hr hmem => hr (List.mem_append_right new hmem))

/-- The calls go no deeper than there are groups that are not visited. -/
theorem rvBuildLinkTable_ok (index : IndexType) {depth : Nat} {g : Text} (hg : g ∈ s.groups)
    (hshort : ∀ r, ReflTransGen s.Leads g r → ∀ l ∈ s.links r, l.title.length < linkNameMaxLength)
    (hurls : ∀ r, TransGen s.Leads g r → (s.linksUrl r).isSome) {visited : List Text}
    (hdepth : s.unvisited visited < depth) :
    ∃ b, rvBuildLinkTable s index depth (s.links g) visited = .ok b := by
  induction depth generalizing g visited with
  | zero => exact absurd hdepth (Nat.not_lt_zero _)
  | succ depth ih =>
      have hnested : s.BuildsTables .inc (nestedCall s index depth) :=
        buildsTables_nestedCall (rvBuildLinkTable_expands .inc index depth)
      have hentry (l : ListedLink) (hl : l ∈ s.links g) (visited : List Text)
          (hdepth : s.unvisited visited ≤ depth) :
          ∃ e, buildEntry (nestedCall s index depth) l visited = .ok e := by
        rw [buildEntry, if_neg (Nat.not_le.mpr (hshort g .refl l hl))]
        cases hgroup : l.group? with
        | none => exact ⟨_, rfl⟩
        | some id =>
            have hleads : s.Leads g id := ⟨l, hl, hgroup⟩
            have hid := s.closed g hg l hl id hgroup
            by_cases hvisited : id ∈ visited
            · exact ⟨_, if_pos hvisited⟩
            · obtain ⟨b, hb⟩ := @ih id hid
                (fun r hr => hshort r (hr.head hleads)) (fun r hr => hurls r (hr.head hleads))
                (id :: visited) (Nat.lt_of_lt_of_le (unvisited_cons_lt hid hvisited) hdepth)
              have hcall : nestedCall s index depth id (id :: visited) = .ok b := by
                rw [nestedCall, getLinks_group hid, if_pos (hurls id (.single hleads))]
                exact hb
              simp only [if_neg hvisited, hcall, Outcome.ok_bind]
              exact ⟨_, rfl⟩
      have hentries (ls : List ListedLink) (hls : ∀ l ∈ ls, l ∈ s.links g) (visited : List Text)
          (hdepth : s.unvisited visited ≤ depth) :
          ∃ b, buildEntries (nestedCall s index depth) ls visited = .ok b := by
        induction ls generalizing visited with
        | nil => exact ⟨_, rfl⟩
        | cons l ls ih =>
            obtain ⟨e, he⟩ := hentry l (hls l (by simp)) visited hdepth
            obtain ⟨new, hnew, -⟩ := buildEntry_expands hnested hg (hls l (by simp)) he
            obtain ⟨b, hb⟩ := ih (fun k hk => hls k (by simp [hk])) e.2
              (hnew ▸ (unvisited_append_le new visited).trans hdepth)
            rw [buildEntries, he, Outcome.ok_bind, hb, Outcome.ok_bind]
            exact ⟨_, rfl⟩
      obtain ⟨b, hb⟩ := hentries (s.links g) (fun l hl => hl) visited (Nat.lt_succ_iff.mp hdepth)
      refine ⟨(index.sort b.1, b.2), ?_⟩
      rw [rvBuildLinkTable]
      change (buildEntries (nestedCall s index depth) (s.links g) visited).bind _ = _
      rw [hb]
      rfl

/-! ## What is reported -/

theorem mem_new_iff {start : Text} {new : List Text} {paths : List (List Text)}
    (h : s.Expands start (s.links start) [] new paths) {g : Text} :
    g ∈ new ↔ TransGen s.Leads start g := by
  have hstep {r t : Text} (hr : r = start ∨ r ∈ new) (hleads : s.Leads r t) : t ∈ new := by
    obtain ⟨l, hl, hgroup⟩ := hleads
    rcases hr with rfl | hr
    · simpa using h.seen l hl t hgroup
    · simpa using h.closed r hr l hl t hgroup
  constructor
  · exact h.reached g
  · intro hreach
    induction hreach with
    | single hleads => exact hstep (.inl rfl) hleads
    | tail _ hleads ih => exact hstep (.inr ih) hleads

theorem mem_reached_iff {start : Text} {new : List Text} {paths : List (List Text)}
    (h : s.Expands start (s.links start) [] new paths) {g : Text} :
    g ∈ start :: new ↔ ReflTransGen s.Leads start g := by
  rw [List.mem_cons, mem_new_iff h, Relation.reflTransGen_iff_eq_or_transGen]

theorem title_of_linkAt {g : Text} {names : List Text} {x : Text × Text}
    (h : s.linkAt g names = some x) : ∀ name ∈ names, '/' ∉ name := by
  induction names generalizing g with
  | nil => nofun
  | cons name rest ih =>
      have hname {l : ListedLink}
          (hfind : (s.links g).find? (fun l => l.title = name) = some l) : '/' ∉ name := by
        have htitle : l.title = name := by simpa using List.find?_some hfind
        exact htitle ▸ s.names g l (List.mem_of_find?_eq_some hfind)
      cases rest with
      | nil =>
          obtain ⟨l, hl, -⟩ := Option.map_eq_some_iff.mp h
          exact List.forall_mem_cons.mpr ⟨hname hl, nofun⟩
      | cons next rest =>
          obtain ⟨l, hl, hrest⟩ := Option.bind_eq_some_iff.mp h
          obtain ⟨t, -, hrest⟩ := Option.bind_eq_some_iff.mp hrest
          exact List.forall_mem_cons.mpr ⟨hname hl, ih hrest⟩

/-- The visit of a table that was built reports the links of the groups. -/
theorem h5Literate_expands (order : IterOrder) {start : Text} {new : List Text}
    {table : List LinkEntry}
    (h : s.Expands start (s.links start) [] new (namePaths order table)) :
    ∃ run, h5Literate order none 0 (fun _ => 0) table = some run ∧ run.ret = 0 ∧
      (run.visited.map fun path => s.linkAt start (path.splitOn '/')).Perm
        ((start :: new).flatMap s.linksOf) := by
  have hzero : AllZero (fun _ => 0) 0 (linkPlaces order none table).length := fun _ _ => rfl
  obtain ⟨run, hrun, hvisited, hret, -⟩ := (h5Literate_none_iff table).mpr (.inl hzero)
  rw [uptoStop_allZero (by rw [List.length_map]; exact hzero)] at hvisited hret
  refine ⟨run, hrun, hret, ?_⟩
  have hends : (run.visited.map fun path => s.linkAt start (path.splitOn '/')) =
      (namePaths order table).map (s.linkAt start) := by
    rw [hvisited, linkPlaces_namePaths, List.map_map]
    refine List.map_congr_left fun names hnames => ?_
    have hmem := h.paths.mem_iff.mp (List.mem_map_of_mem (f := s.linkAt start) hnames)
    have hsome : ∃ x, s.linkAt start names = some x := by
      rcases List.mem_append.mp hmem with hmem | hmem
      · obtain ⟨l, -, hl⟩ := List.mem_map.mp hmem
        exact ⟨_, hl.symm⟩
      · obtain ⟨r, -, hr⟩ := List.mem_flatMap.mp hmem
        obtain ⟨l, -, hl⟩ := List.mem_map.mp hr
        exact ⟨_, hl.symm⟩
    obtain ⟨x, hx⟩ := hsome
    rw [Function.comp_apply, relPath, pathText,
      splitOn_intercalate_words (title_of_linkAt hx) (ne_nil_of_mem_namePaths hnames)]
  rw [hends]
  exact h.paths

theorem nodup_linksOf (g : Text) : (s.linksOf g).Nodup := by
  have hlinks : s.linksOf g = ((s.links g).map ListedLink.title).map fun title => some (g, title) := by
    rw [List.map_map]
    rfl
  rw [hlinks]
  exact (s.titles g).map fun a b hab => (Prod.mk.inj (Option.some.inj hab)).2

theorem mem_linksOf {g : Text} {x : Option (Text × Text)} :
    x ∈ s.linksOf g ↔ ∃ l ∈ s.links g, x = some (g, l.title) := by
  rw [linksOf, List.mem_map]
  exact exists_congr fun l => and_congr_right fun _ => eq_comm

/-- The links come once when the group where the visit starts is not new. -/
theorem nodup_flatMap_linksOf_iff {start : Text} {new : List Text} {paths : List (List Text)}
    (h : s.Expands start (s.links start) [] new paths) :
    ((start :: new).flatMap s.linksOf).Nodup ↔ start ∉ new := by
  constructor
  · intro hnodup hmem
    obtain ⟨l, hl⟩ : ∃ l, l ∈ s.links start := by
      obtain ⟨r, ⟨l, hl, -⟩, -⟩ := Relation.TransGen.head'_iff.mp (h.reached start hmem)
      exact ⟨l, hl⟩
    rw [List.flatMap_cons, List.nodup_append] at hnodup
    have hx : some (start, l.title) ∈ s.linksOf start := mem_linksOf.mpr ⟨l, hl, rfl⟩
    exact hnodup.2.2 _ hx _ (List.mem_flatMap.mpr ⟨start, hmem, hx⟩) rfl
  · intro hmem
    refine List.nodup_flatMap.mpr ⟨fun g _ => nodup_linksOf g, ?_⟩
    refine (List.nodup_cons.mpr ⟨hmem, h.nodup⟩).imp fun {a b} hab x hxa hxb => ?_
    obtain ⟨l, -, rfl⟩ := mem_linksOf.mp hxa
    obtain ⟨k, -, hk⟩ := mem_linksOf.mp hxb
    exact hab (Prod.mk.inj (Option.some.inj hk)).1

theorem Visited.visitable {index : IndexType} {order : IterOrder} {start : Text}
    (hstart : start ∈ s.groups) (h : s.Visited index order start) : s.Visitable start := by
  obtain ⟨depth, run, hrun, -, hreports⟩ := h
  obtain ⟨b, hb, hliterate⟩ := Outcome.bind_eq_ok_iff.mp hrun
  obtain ⟨new, -, hexpands⟩ := rvBuildLinkTable_expands order index depth start hstart [] b hb
  obtain ⟨run', hrun', -, hperm⟩ := h5Literate_expands order hexpands
  rw [hrun'] at hliterate
  cases Outcome.ok.inj hliterate
  refine ⟨?_, fun g hg l hl => ?_, fun g hg => ?_⟩
  · rw [← mem_new_iff hexpands]
    exact (nodup_flatMap_linksOf_iff hexpands).mp (hperm.nodup_iff.mp hreports.once)
  · rcases List.mem_cons.mp ((mem_reached_iff hexpands).mpr hg) with rfl | hnew
    · exact hexpands.short l hl
    · exact hexpands.shortBelow g hnew l hl
  · exact hexpands.urls g ((mem_new_iff hexpands).mpr hg)

theorem Visitable.visited {start : Text} (hstart : start ∈ s.groups) (h : s.Visitable start)
    (index : IndexType) (order : IterOrder) : s.Visited index order start := by
  obtain ⟨hreturn, hshort, hurls⟩ := h
  obtain ⟨b, hb⟩ := rvBuildLinkTable_ok index hstart hshort hurls (Nat.lt_succ_self (s.unvisited []))
  obtain ⟨new, -, hexpands⟩ := rvBuildLinkTable_expands order index _ start hstart [] b hb
  obtain ⟨run, hrun, hret, hperm⟩ := h5Literate_expands order hexpands
  refine ⟨(s.unvisited []).succ, run, ?_, hret, ?_, fun x => ?_⟩
  · rw [h5Lvisit, hb, Outcome.ok_bind, hrun]
  · rw [← mem_new_iff hexpands, ← nodup_flatMap_linksOf_iff hexpands] at hreturn
    exact hperm.nodup_iff.mpr hreturn
  · rw [hperm.mem_iff, List.mem_flatMap]
    simp only [mem_reached_iff hexpands, mem_linksOf]

end LinkStore

/-! ## Two groups -/

/-- A root group with a hard link `s` to a group, and a soft link in each other group. -/
def chain (below : Text) (hbelow : '/' ∉ below) : LinkStore where
  baseURL := ['h']
  escape := Exchange.hexEscape
  groups := {['r'], below}
  links g := if g = ['r'] then [⟨['s'], 0, .hard (lit "groups") below⟩] else [⟨['t'], 0, .soft⟩]
  closed g _ l hl h hgroup := by
    split at hl
    · rw [List.mem_singleton] at hl
      rw [hl] at hgroup
      cases (if_pos (e := none) (rfl : lit "groups" = lit "groups")).symm.trans hgroup
      exact Finset.mem_insert_of_mem (Finset.mem_singleton_self below)
    · rw [List.mem_singleton] at hl
      rw [hl] at hgroup
      cases hgroup
  titles g := by split <;> exact List.nodup_singleton _
  names g l hl := by
    split at hl <;> (rw [List.mem_singleton] at hl; rw [hl]; show '/' ∉ [_]; decide)
  ids g hg := by
    rcases Finset.mem_insert.mp hg with rfl | hg
    · decide
    · rw [Finset.mem_singleton.mp hg]
      exact hbelow

theorem chain_leads_iff {below : Text} {hbelow : '/' ∉ below} {g h : Text} :
    (chain below hbelow).Leads g h ↔ g = ['r'] ∧ h = below := by
  unfold LinkStore.Leads chain
  by_cases hg : g = ['r']
  · simp [hg, ListedLink.group?, eq_comm]
  · simp [hg, ListedLink.group?]

end XHDF5.Links
