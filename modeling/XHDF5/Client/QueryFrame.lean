/-
# What queries leave

Most of a query cancels out: what it opens it closes, and what it counts it gives back. What stays are the
entries that it overwrites or removes in the tables, and the steps without a counterpart. The frame lemmas
follow the calls from the inside out; the main result tells the queries that leave the object they start
from as it was.
-/

import XHDF5.Client.Queries

namespace XHDF5.Client.Queries

open XHDF5.Math XHDF5.Client

/-! ## Frames -/

/-- The entries of the tables behind some calls: only given ones may be others, and none of these is the
location's. -/
structure Leaves (p : Addr) (entries : List (ObjType × Key)) (s s' : Connector) : Prop where
  kept : ∀ t k, (t, k) ∉ entries → s'.table t k = s.table t k
  taken : ∀ t k, (t, k) ∈ entries → s'.table t k ≠ some p

namespace Leaves

variable {p : Addr} {entries others : List (ObjType × Key)} {s s' s'' : Connector}

theorem of_table_eq (h : s'.table = s.table) : Leaves p [] s s' where
  kept t k _ := by rw [h]
  taken _ _ hmem := by cases hmem

theorem trans (h : Leaves p entries s s') (h' : Leaves p others s' s'') :
    Leaves p (others ++ entries) s s'' where
  kept t k hmem := by
    rw [List.mem_append, not_or] at hmem
    rw [h'.kept t k hmem.1, h.kept t k hmem.2]
  taken t k hmem := by
    by_cases hothers : (t, k) ∈ others
    · exact h'.taken t k hothers
    · rw [h'.kept t k hothers]
      exact h.taken t k ((List.mem_append.mp hmem).resolve_left hothers)

theorem congr (h : Leaves p entries s s') (hsame : ∀ e, e ∈ others ↔ e ∈ entries) :
    Leaves p others s s' where
  kept t k hmem := h.kept t k fun hin => hmem ((hsame _).mpr hin)
  taken t k hmem := h.taken t k ((hsame _).mp hmem)

theorem remove (t : ObjType) (k : Key) : Leaves p [(t, k)] s (s.remove t k) where
  kept t' k' hmem := by
    rw [Connector.table_remove, if_neg]
    rintro ⟨rfl, rfl⟩
    exact hmem List.mem_cons_self
  taken t' k' hmem := by
    obtain ⟨rfl, rfl⟩ := Prod.mk.inj (List.mem_singleton.mp hmem)
    rw [Connector.table_remove, if_pos ⟨rfl, rfl⟩]
    exact Option.some_ne_none _ |>.symm

theorem insert (t : ObjType) (k : Key) {q : Addr} (hq : q ≠ p) :
    Leaves p [(t, k)] s (s.insert t k q) where
  kept t' k' hmem := by
    rw [Connector.table_insert, if_neg]
    rintro ⟨rfl, rfl⟩
    exact hmem List.mem_cons_self
  taken t' k' hmem := by
    obtain ⟨rfl, rfl⟩ := Prod.mk.inj (List.mem_singleton.mp hmem)
    rw [Connector.table_insert, if_pos ⟨rfl, rfl⟩]
    exact fun h => hq (Option.some.inj h)

/-- Changes of the objects only. -/
theorem objects (h : Leaves p entries s s') (hsame : s''.table = s'.table) : Leaves p entries s s'' :=
  (h.trans (of_table_eq hsame)).congr fun e => by simp

/-- An object may be stored in between. -/
theorem trans_store {q : Addr} {o : RVObject} (h : Leaves p entries s s')
    (h' : Leaves p others (s'.store q o) s'') : Leaves p (others ++ entries) s s'' := by
  have hstored : Leaves p entries s (s'.store q o) := h.objects rfl
  exact hstored.trans h'

end Leaves

/-- Nothing that was allocated has changed. -/
def Keeps (s s' : Connector) : Prop := ∀ q o, s.objects q = some o → s'.objects q = some o

theorem Keeps.of_eq {s s' : Connector} (h : s'.objects = s.objects) : Keeps s s' := fun q o ho => by
  rw [h, ho]

section Views

variable {s : Session} {p : Addr} {o domain : RVObject} {c : Connector}
  {entries : List (ObjType × Key)}

/-- What there is to see of an open object. -/
theorem view_eq (hopen : Open s p o domain) :
    s.view p = some ⟨o.domain, (s.fields p).uri, (s.fields p).handlePath, domain.refCount,
      (s.fields p).ids.all.map s.refs, decide (s.conn.table o.objType o.key = some p)⟩ := by
  rw [Session.view, hopen.object, Option.bind_some, hopen.located, Option.map_some]

/-- Without a change of the objects it matters which entries are taken. -/
theorem registered_iff (hleaves : Leaves p entries s.conn c) :
    (c.table o.objType o.key = some p ↔ s.conn.table o.objType o.key = some p) ↔
      Spared s p o entries := by
  unfold Spared
  by_cases hmem : (o.objType, o.key) ∈ entries
  · simp [hmem, hleaves.taken _ _ hmem]
  · simp [hmem, hleaves.kept _ _ hmem]

/-- With the objects as they were it matters whether the location still has its entry. -/
theorem view_eq_iff_registered (hopen : Open s p o domain) (hkeeps : Keeps s.conn c) :
    Session.view { s with conn := c } p = s.view p ↔
      (c.table o.objType o.key = some p ↔ s.conn.table o.objType o.key = some p) := by
  rw [view_eq hopen, Session.view, hkeeps p o hopen.object, Option.bind_some,
    hkeeps _ _ hopen.located, Option.map_some, Option.some_inj]
  simp

/-- A query that keeps the objects leaves the location as it was when it spares its entry. -/
theorem view_eq_iff (hopen : Open s p o domain) (hkeeps : Keeps s.conn c)
    (hleaves : Leaves p entries s.conn c) :
    Session.view { s with conn := c } p = s.view p ↔ Spared s p o entries := by
  rw [view_eq_iff_registered hopen hkeeps, registered_iff hleaves]

/-- The location has changed when its file's count has. -/
theorem view_ne_of_count (hopen : Open s p o domain)
    (hcount : ∀ file, c.objects o.domain = some file → file.refCount ≠ domain.refCount)
    (hdomain : ∀ o', c.objects p = some o' → o'.domain = o.domain) (fields : Addr → Fields)
    (refs : Hid → Nat) : Session.view ⟨c, fields, refs⟩ p ≠ s.view p := by
  rw [view_eq hopen]
  intro h
  obtain ⟨o', ho', h⟩ := Option.bind_eq_some_iff.mp h
  obtain ⟨file, hfile, h⟩ := Option.map_eq_some_iff.mp h
  rw [hdomain o' ho'] at hfile
  exact hcount file hfile (congrArg View.fileCount h)

/-- The location has changed when its domain has. -/
theorem view_ne_of_domain (hopen : Open s p o domain)
    (hdomain : ∀ o', c.objects p = some o' → o'.domain ≠ o.domain) (fields : Addr → Fields)
    (refs : Hid → Nat) : Session.view ⟨c, fields, refs⟩ p ≠ s.view p := by
  rw [view_eq hopen]
  intro h
  obtain ⟨o', ho', h⟩ := Option.bind_eq_some_iff.mp h
  obtain ⟨file, -, h⟩ := Option.map_eq_some_iff.mp h
  exact hdomain o' ho' (congrArg View.domain h)

end Views

/-! ## Files that are opened on the way -/

section Detours

variable {p : Addr} {s : Connector}

theorem detour_leaves {f : Addr} (hfresh : s.objects f = none) (hp : f ≠ p) :
    ∃ s', detour s f = some s' ∧ s'.objects = s.objects ∧ Leaves p (filesOf [f]) s s' := by
  have h : ((s.store f (newFile f)).insert .file (newFile f).key f).objects f =
      some (newFile f) := by
    rw [Connector.objects_insert, Connector.objects_store, if_pos rfl]
  refine ⟨_, by rw [detour, show rvFileOpen f .completed s = some (_, true) from rfl, Option.bind_some,
    rvFileClose_of_last h rfl rfl]; rfl, ?_, ?_⟩
  · funext q
    rw [Connector.objects_free, Connector.objects_remove, Connector.objects_insert,
      Connector.objects_store]
    split
    · next heq => rw [heq, hfresh]
    · rfl
  · have hstored : Leaves p [] s (s.store f (newFile f)) := Leaves.of_table_eq rfl
    have hinserted := hstored.trans (Leaves.insert .file (newFile f).key hp)
    have hremoved := hinserted.trans (Leaves.remove .file (newFile f).key)
    have hsame (e : ObjType × Key) : e ∈ filesOf [f] ↔
        e ∈ [(ObjType.file, (newFile f).key)] ++ ([(ObjType.file, (newFile f).key)] ++ []) := by
      simp [filesOf]
      rfl
    exact (hremoved.congr hsame).objects rfl

theorem detours_leaves {fs : List Addr} (hfresh : ∀ f ∈ fs, s.objects f = none) (hp : p ∉ fs) :
    ∃ s', fs.foldlM detour s = some s' ∧ s'.objects = s.objects ∧ Leaves p (filesOf fs) s s' := by
  induction fs generalizing s with
  | nil => exact ⟨s, rfl, rfl, Leaves.of_table_eq rfl⟩
  | cons f fs ih =>
      obtain ⟨s₁, hs₁, hobjects, hleaves⟩ :=
        @detour_leaves p s f (hfresh f List.mem_cons_self) fun h => hp (h ▸ List.mem_cons_self)
      have hfresh' : ∀ f' ∈ fs, s₁.objects f' = none := fun f' hf' =>
        hobjects ▸ hfresh f' (List.mem_cons_of_mem f hf')
      obtain ⟨s₂, hs₂, hobjects', hleaves'⟩ := ih hfresh' fun h => hp (List.mem_cons_of_mem f h)
      refine ⟨s₂, ?_, hobjects'.trans hobjects, (hleaves.trans hleaves').congr fun e => ?_⟩
      · rw [List.foldlM_cons, hs₁]
        exact hs₂
      · simp [filesOf, or_comm]

end Detours

/-! ## Groups below a visited group -/

section Below

variable {d : Addr} {file : RVObject} {s : Connector}

/-- A reference more is not the last one. -/
theorem counted_ne_one (hpos : file.refCount ≠ 0) : file.counted.refCount ≠ 1 := fun h1 => hpos (by
  change file.refCount + 1 = 1 at h1
  grind)

/-- A reference less makes a difference. -/
theorem sub_one_ne (refCount : UInt32) : refCount - 1 ≠ refCount := by
  grind

/-- A reference more makes a difference. -/
theorem add_one_ne (refCount : UInt32) : refCount + 1 ≠ refCount := by
  grind

/-- A reference more and one less. -/
theorem counted_back (file : RVObject) :
    { file.counted with refCount := file.counted.refCount - 1 } = file := by
  cases file
  simp [RVObject.counted]

/-- The table of a group that is counted and closed is out of the way. -/
theorem rvBuildObjectTable_cons (hd : s.objects d = some file) (hfile : file.objType = .file)
    (hpos : file.refCount ≠ 0) (below : List Bool) :
    ∃ s', rvBuildObjectTable d (true :: below) s = rvBuildObjectTable d below s' ∧
      s'.objects = s.objects ∧
        ∀ t k, ¬ (t = .group ∧ k = keyOf d .group) → s'.table t k = s.table t k := by
  have hcounted : ((s.store d file.counted).remove .group (keyOf d .group)).objects d =
      some file.counted := by
    rw [Connector.objects_remove, Connector.objects_store, if_pos rfl]
  have hclose := rvFileClose_of_shared hcounted hfile (counted_ne_one hpos)
  rw [counted_back] at hclose
  refine ⟨((s.store d file.counted).remove .group (keyOf d .group)).store d file, ?_, ?_, ?_⟩
  · rw [rvBuildObjectTable, if_pos rfl, count, hd, Option.map_some, Option.bind_some, hclose,
      Option.bind_some, if_pos rfl]
  · funext q
    rw [Connector.objects_store, Connector.objects_remove, Connector.objects_store]
    split
    · next heq => rw [heq, hd]
    · rfl
  · intro t k hne
    rw [Connector.table_store, Connector.table_remove, if_neg hne, Connector.table_store]

/-- A file that was just opened can be counted. -/
theorem newFile_hasRoom (f : Addr) (below : List Bool) : HasRoom (newFile f).refCount below :=
  Or.inl (show (1 : UInt32) ≠ 0 by decide)

/-- A group whose path cannot be set is closed, but was not counted. -/
theorem rvBuildObjectTable_false (hd : s.objects d = some file) (hfile : file.objType = .file)
    (below : List Bool) :
    ∃ s', rvBuildObjectTable d (false :: below) s = some s' ∧
      (∀ q, s'.objects q =
        if q = d then
          if file.refCount = 1 then none else some { file with refCount := file.refCount - 1 }
        else s.objects q) ∧
      ∀ t k, ¬ (t = .group ∧ k = keyOf d .group) → s'.table t k =
        if file.refCount = 1 ∧ t = .file ∧ k = file.key then none else s.table t k := by
  have hd' : (s.remove .group (keyOf d .group)).objects d = some file := hd
  have hbuild : rvBuildObjectTable d (false :: below) s =
      (rvFileClose d (s.remove .group (keyOf d .group))).map Prod.fst := by
    rw [rvBuildObjectTable, if_neg Bool.false_ne_true, Option.bind_some]
    cases rvFileClose d (s.remove .group (keyOf d .group)) <;> rfl
  by_cases hlast : file.refCount = 1
  · refine ⟨_, by rw [hbuild, rvFileClose_of_last hd' hfile hlast]; rfl, fun q => ?_,
      fun t k hne => ?_⟩
    · rw [Connector.objects_free, if_pos hlast]
      rfl
    · rw [Connector.table_free, Connector.table_remove, Connector.table_remove, if_neg hne]
      simp only [hlast, true_and]
  · refine ⟨_, by rw [hbuild, rvFileClose_of_shared hd' hfile hlast]; rfl, fun q => ?_,
      fun t k hne => ?_⟩
    · rw [Connector.objects_store, if_neg hlast]
      rfl
    · rw [Connector.table_store, Connector.table_remove, if_neg hne, if_neg fun h => hlast h.1]

/-- The groups below a visited one leave the objects as they were. -/
theorem rvBuildObjectTable_of_all {below : List Bool} (hd : s.objects d = some file)
    (hfile : file.objType = .file) (hroom : HasRoom file.refCount below)
    (hall : ∀ pathSet ∈ below, pathSet = true) :
    ∃ s', rvBuildObjectTable d below s = some s' ∧ s'.objects = s.objects ∧
      ∀ t k, ¬ (t = .group ∧ k = keyOf d .group) → s'.table t k = s.table t k := by
  induction below generalizing s with
  | nil => exact ⟨s, rfl, rfl, fun _ _ _ => rfl⟩
  | cons pathSet below ih =>
      obtain rfl := hall pathSet List.mem_cons_self
      have hpos : file.refCount ≠ 0 := hroom.resolve_right fun h => h rfl
      obtain ⟨s₁, hs₁, hobjects, htable⟩ := rvBuildObjectTable_cons hd hfile hpos below
      obtain ⟨s₂, hs₂, hobjects', htable'⟩ := @ih s₁ (hobjects ▸ hd) (Or.inl hpos)
        fun pathSet' hmem => hall pathSet' (List.mem_cons_of_mem _ hmem)
      exact ⟨s₂, hs₁.trans hs₂, hobjects'.trans hobjects,
        fun t k hne => (htable' t k hne).trans (htable t k hne)⟩

/-- With one whose path cannot be set, a reference is given back that was not taken. -/
theorem rvBuildObjectTable_of_mem {below : List Bool} (hd : s.objects d = some file)
    (hfile : file.objType = .file) (hroom : HasRoom file.refCount below) (hmem : false ∈ below) :
    ∃ s', rvBuildObjectTable d below s = some s' ∧
      (∀ q, s'.objects q =
        if q = d then
          if file.refCount = 1 then none else some { file with refCount := file.refCount - 1 }
        else s.objects q) ∧
      ∀ t k, ¬ (t = .group ∧ k = keyOf d .group) → s'.table t k =
        if file.refCount = 1 ∧ t = .file ∧ k = file.key then none else s.table t k := by
  induction below generalizing s with
  | nil => cases hmem
  | cons pathSet below ih =>
      cases pathSet with
      | false => exact rvBuildObjectTable_false hd hfile below
      | true =>
          have hpos : file.refCount ≠ 0 := hroom.resolve_right fun h => h rfl
          obtain ⟨s₁, hs₁, hobjects, htable⟩ := rvBuildObjectTable_cons hd hfile hpos below
          obtain ⟨s₂, hs₂, hobjects', htable'⟩ :=
            @ih s₁ (hobjects ▸ hd) (Or.inl hpos) (by simpa using hmem)
          refine ⟨s₂, hs₁.trans hs₂, fun q => ?_, fun t k hne => ?_⟩
          · rw [hobjects', hobjects]
          · rw [htable' t k hne, htable t k hne]

/-- A count that has come round is counted up to one, and the file is gone. -/
theorem rvBuildObjectTable_of_no_room {below : List Bool} (hd : s.objects d = some file)
    (hfile : file.objType = .file) (hroom : ¬ HasRoom file.refCount below) {s' : Connector}
    (h : rvBuildObjectTable d below s = some s') :
    s'.objects d = none ∧ ∀ q, q ≠ d → s'.objects q = s.objects q := by
  rw [HasRoom, not_or, not_not, not_not] at hroom
  obtain ⟨hzero, hhead⟩ := hroom
  obtain ⟨rest, rfl⟩ := List.head?_eq_some_iff.mp hhead
  have hcounted : ((s.store d file.counted).remove .group (keyOf d .group)).objects d =
      some file.counted := by
    rw [Connector.objects_remove, Connector.objects_store, if_pos rfl]
  have hlast : file.counted.refCount = 1 := by
    change file.refCount + 1 = 1
    rw [hzero]
    rfl
  have hclose := rvFileClose_of_last hcounted hfile hlast
  set s₁ := (((s.store d file.counted).remove .group (keyOf d .group)).remove .file
    file.counted.key).free d with hs₁
  have hgone : s₁.objects d = none := by
    rw [hs₁, Connector.objects_free, if_pos rfl]
  have hothers (q : Addr) (hq : q ≠ d) : s₁.objects q = s.objects q := by
    rw [hs₁, Connector.objects_free, if_neg hq, Connector.objects_remove, Connector.objects_remove,
      Connector.objects_store, if_neg hq]
  rw [rvBuildObjectTable, if_pos rfl, count, hd, Option.map_some, Option.bind_some, hclose,
    Option.bind_some, if_pos rfl] at h
  cases rest with
  | nil =>
      cases h
      exact ⟨hgone, hothers⟩
  | cons pathSet rest =>
      have hgone' : (s₁.remove .group (keyOf d .group)).objects d = none := hgone
      cases pathSet with
      | true =>
          rw [rvBuildObjectTable, if_pos rfl, count, hgone] at h
          cases h
      | false =>
          rw [rvBuildObjectTable, if_neg Bool.false_ne_true, Option.bind_some, rvFileClose, hgone'] at h
          cases h

/-- Closing a file removes an entry at most. -/
theorem rvFileClose_table {f : Addr} {closed : Connector × Bool} (h : rvFileClose f s = some closed)
    (t : ObjType) (k : Key) : closed.1.table t k = s.table t k ∨ closed.1.table t k = none := by
  unfold rvFileClose at h
  split at h
  · cases h
  · split at h
    · cases h
      exact .inl rfl
    · split at h
      · cases h
        rw [Connector.table_free, Connector.table_remove]
        split
        · exact .inr rfl
        · exact .inl rfl
      · cases h
        exact .inl rfl

/-- So do the groups below a visited one. -/
theorem rvBuildObjectTable_table {below : List Bool} {s' : Connector}
    (h : rvBuildObjectTable d below s = some s') (t : ObjType) (k : Key) :
    s'.table t k = s.table t k ∨ s'.table t k = none := by
  induction below generalizing s with
  | nil =>
      cases h
      exact .inl rfl
  | cons pathSet below ih =>
      rw [rvBuildObjectTable] at h
      obtain ⟨counted, hcounted, h⟩ := Option.bind_eq_some_iff.mp h
      obtain ⟨closed, hclosed, h⟩ := Option.bind_eq_some_iff.mp h
      have hstart : counted.table t k = s.table t k := by
        split at hcounted
        · obtain ⟨domain, -, rfl⟩ := Option.map_eq_some_iff.mp hcounted
          rfl
        · cases hcounted
          rfl
      have hstep : closed.1.table t k = s.table t k ∨ closed.1.table t k = none := by
        rcases rvFileClose_table hclosed t k with heq | hnone
        · rw [heq, Connector.table_remove]
          split
          · exact .inr rfl
          · exact .inl hstart
        · exact .inr hnone
      split at h
      · rcases ih h with heq | hnone
        · rwa [heq]
        · exact .inr hnone
      · cases h
        exact hstep

/-- All paths can be set when there is none that cannot. -/
theorem all_of_not_mem {below : List Bool} (h : false ∉ below) : ∀ pathSet ∈ below, pathSet = true
  | true, _ => rfl
  | false, hmem => absurd hmem h

/-- The entry of the groups in the file is the only one that is removed. -/
theorem Leaves.below {p : Addr} {entries : List (ObjType × Key)} {s₁ s₂ : Connector}
    {below : List Bool} (h : Leaves p entries s s₁) (hbuild : rvBuildObjectTable d below s₁ = some s₂)
    (hkept : ∀ t k, (t, k) ∉ entries → ¬ (t = .group ∧ k = keyOf d .group) →
      s₂.table t k = s₁.table t k)
    (hmem : below = [] ∨ (.group, keyOf d .group) ∈ entries) : Leaves p entries s s₂ where
  kept t k hout := by
    rw [← h.kept t k hout]
    rcases hmem with rfl | hmem
    · cases hbuild
      rfl
    · apply hkept t k hout
      rintro ⟨rfl, rfl⟩
      exact hout hmem
  taken t k hin := by
    rcases rvBuildObjectTable_table hbuild t k with heq | hnone
    · rw [heq]
      exact h.taken t k hin
    · rw [hnone]
      exact (Option.some_ne_none p).symm

end Below

/-! ## Objects that are opened -/

section Opened

variable {t : ObjType} {call : Call} {p d newDomain : Addr} {domain : RVObject} {s s₁ : Connector}

/-- Closing an object of a file that is counted for it. -/
theorem rvClose_counted (p : Addr) (ht : t ≠ .file) (hobject : s₁.objects call.addr = some (newObject t call d))
    (hd : s₁.objects d = some domain.counted) (hfile : domain.objType = .file)
    (hpos : domain.refCount ≠ 0) :
    ∃ s₂, rvClose t call.addr s₁ = some s₂ ∧
      (∀ q, s₂.objects q =
        if q = call.addr then none else if q = d then some domain else s₁.objects q) ∧
        Leaves p [(t, keyOf d t)] s₁ s₂ := by
  obtain ⟨keeps, hclose⟩ := rvClose_of_ne ht
  have hclosed := closeObject_of_shared keeps (t := t) hobject rfl hd hfile (counted_ne_one hpos)
  rw [counted_back] at hclosed
  refine ⟨((s₁.remove t (keyOf d t)).store d domain).free call.addr, ?_, fun q => ?_,
    (Leaves.remove t (keyOf d t)).objects rfl⟩
  · rw [hclose]
    exact hclosed
  · rw [Connector.objects_free, Connector.objects_store, Connector.objects_remove]

/-- Closing an object whose file is open just for it. -/
theorem rvClose_alone (p : Addr) (ht : t ≠ .file)
    (hobject : s₁.objects call.addr = some (newObject t call newDomain))
    (hd : s₁.objects newDomain = some (newFile newDomain)) :
    ∃ s₂, rvClose t call.addr s₁ = some s₂ ∧
      (∀ q, s₂.objects q = if q = call.addr ∨ q = newDomain then none else s₁.objects q) ∧
        Leaves p [(.file, keyOf newDomain .file), (t, keyOf newDomain t)] s₁ s₂ := by
  obtain ⟨keeps, hclose⟩ := rvClose_of_ne ht
  have hclosed := closeObject_of_last keeps (t := t) hobject rfl hd rfl rfl
  refine ⟨(((s₁.remove t (keyOf newDomain t)).remove .file (keyOf newDomain .file)).free
    newDomain).free call.addr, ?_, fun q => ?_, ?_⟩
  · rw [hclose]
    exact hclosed
  · rw [Connector.objects_free, Connector.objects_free, Connector.objects_remove,
      Connector.objects_remove]
    by_cases hq : q = call.addr <;> simp [hq]
  · exact ((Leaves.remove t (keyOf newDomain t)).trans
      (Leaves.remove .file (keyOf newDomain .file))).objects rfl

/-- An object whose file is gone cannot be closed. -/
theorem closeObject_of_gone (keeps : Bool) {q : Addr} {object : RVObject}
    (hobject : s.objects q = some object) (htype : object.objType = t)
    (hgone : s.objects object.domain = none) : closeObject keeps t q s = none := by
  have hgone' : (s.remove t object.key).objects object.domain = none := hgone
  rw [closeObject, hobject]
  simp [htype, rvFileClose, hgone']

/-- Closing an object gives one reference to its file back; other objects keep their domains. -/
theorem rvClose_changes {q : Addr} {object file o : RVObject} (ht : t ≠ .file)
    (hobject : s.objects q = some object) (htype : object.objType = t)
    (hd : s.objects object.domain = some file) (hfile : file.objType = .file)
    (hp : s.objects p = some o) (hqd : object.domain ≠ q) (hqp : p ≠ q) :
    ∃ s', rvClose t q s = some s' ∧
      (∀ file', s'.objects object.domain = some file' → file'.refCount = file.refCount - 1) ∧
        ∀ o', s'.objects p = some o' → o'.domain = o.domain := by
  obtain ⟨keeps, hclose⟩ := rvClose_of_ne ht
  rw [hclose]
  by_cases hlast : file.refCount = 1
  · refine ⟨_, closeObject_of_last keeps hobject htype hd hfile hlast, fun file' h => ?_,
      fun o' h => ?_⟩
    · rw [Connector.objects_free, if_neg hqd, Connector.objects_free, if_pos rfl] at h
      cases h
    · rw [Connector.objects_free, if_neg hqp, Connector.objects_free, Connector.objects_remove,
        Connector.objects_remove, hp] at h
      split at h
      · cases h
      · exact congrArg RVObject.domain (Option.some.inj h).symm
  · refine ⟨_, closeObject_of_shared keeps hobject htype hd hfile hlast, fun file' h => ?_,
      fun o' h => ?_⟩
    · rw [Connector.objects_free, if_neg hqd, Connector.objects_store, if_pos rfl] at h
      rw [← Option.some.inj h]
    · rw [Connector.objects_free, if_neg hqp, Connector.objects_store, Connector.objects_remove] at h
      split at h
      · next hpd =>
          rw [hpd, hd] at hp
          rw [← Option.some.inj h, ← Option.some.inj hp]
      · rw [hp] at h
        exact congrArg RVObject.domain (Option.some.inj h).symm

variable (hfresh : s.objects call.addr = none) (hd : s.objects d = some domain)
  (hfile : domain.objType = .file) (hpos : domain.refCount ≠ 0)
  (hdetours : ∀ f ∈ call.detours, s.objects f = none ∧ f ≠ call.addr) (hp : s.objects p ≠ none)

include hd hdetours hp in
/-- The object is attached, and the search has gone through other files. -/
theorem attach_detours :
    ∃ s₁, call.detours.foldlM detour (attach t call d domain s) = some s₁ ∧
      s₁.objects = (attach t call d domain s).objects ∧ Leaves p (filesOf call.detours) s s₁ := by
  have hfree : ∀ f ∈ call.detours, (attach t call d domain s).objects f = none := fun f hf => by
    have hfd : f ≠ d := fun heq => by
      have := (hdetours f hf).1
      rw [heq, hd] at this
      cases this
    rw [objects_attach, if_neg hfd, if_neg (hdetours f hf).2, (hdetours f hf).1]
  obtain ⟨s₁, hs₁, hobjects, hleaves⟩ :=
    detours_leaves (p := p) hfree fun hmem => hp (hdetours p hmem).1
  refine ⟨s₁, hs₁, hobjects, ?_⟩
  have hattached : Leaves p [] s (attach t call d domain s) := Leaves.of_table_eq rfl
  exact (hattached.trans hleaves).congr fun e => by simp

include hfresh hd hdetours hp in
/-- An object in the location's file. -/
theorem openObject_inside (hcompletes : call.completes = true) :
    ∃ s', openObject t call .inside d domain s = some (s', true) ∧
      s'.objects = (attach t call d domain s).objects ∧
        Leaves p ((t, keyOf d t) :: filesOf call.detours) s s' := by
  obtain ⟨s₁, hs₁, hobjects, hleaves⟩ := @attach_detours t call p d domain s hd hdetours hp
  have hobject : s₁.objects call.addr = some (newObject t call d) := by
    rw [hobjects, objects_attach, if_neg (addr_ne_domain hfresh hd), if_pos rfl]
  have haddr : call.addr ≠ p := fun h => hp (h ▸ hfresh)
  refine ⟨s₁.insert t (keyOf d t) call.addr, ?_, hobjects,
    hleaves.trans (Leaves.insert t (keyOf d t) haddr)⟩
  rw [openObject, createObject, hs₁, Option.bind_some, locate, Option.bind_some, hcompletes,
    Bool.and_self, finish, if_pos rfl, hobject]
  rfl

include hfresh hd hfile hpos hdetours hp in
/-- An object that is not found, or that is given up in the location's file. -/
theorem openObject_closed {search : Search} (ht : t ≠ .file)
    (hsearch : search = .missed ∨ (∃ newDomain refCount, search = .aborted newDomain refCount ∧
      s.objects newDomain = none ∧ newDomain ≠ call.addr) ∨
        search = .inside ∧ call.completes = false) :
    ∃ s', openObject t call search d domain s = some (s', false) ∧ Keeps s s' ∧
      Leaves p ((t, keyOf d t) :: filesOf call.detours) s s' := by
  obtain ⟨s₁, hs₁, hobjects, hleaves⟩ := @attach_detours t call p d domain s hd hdetours hp
  have hne := addr_ne_domain hfresh hd
  -- What the search leaves behind, if anything, is out of the way.
  obtain ⟨s₂, found, hlocate, hfound, hout, htable⟩ : ∃ s₂ found, locate t call d search s₁ =
      some (s₂, found) ∧ (found && call.completes) = false ∧
        (∀ q, s.objects q ≠ none ∨ q = call.addr → s₂.objects q = s₁.objects q) ∧
          s₂.table = s₁.table := by
    rcases hsearch with rfl | ⟨newDomain, refCount, rfl, hnew, hnewAddr⟩ | ⟨rfl, hcompletes⟩
    · exact ⟨s₁, false, rfl, rfl, fun _ _ => rfl, rfl⟩
    · refine ⟨_, false, rfl, rfl, fun q hq => ?_, rfl⟩
      rw [Connector.objects_store, if_neg]
      rintro rfl
      exact hq.elim (fun h => h hnew) hnewAddr
    · exact ⟨s₁, true, rfl, by rw [hcompletes]; rfl, fun _ _ => rfl, rfl⟩
  have hobject : s₂.objects call.addr = some (newObject t call d) := by
    rw [hout _ (Or.inr rfl), hobjects, objects_attach, if_neg hne, if_pos rfl]
  have hdomain : s₂.objects d = some domain.counted := by
    rw [hout _ (Or.inl (by simp [hd])), hobjects, objects_attach, if_pos rfl]
  obtain ⟨s₃, hclose, hobjects', hleaves'⟩ := rvClose_counted p ht hobject hdomain hfile hpos
  refine ⟨s₃, ?_, fun q o hq => ?_, ((hleaves.objects htable).trans hleaves')⟩
  · rw [openObject, createObject, hs₁, Option.bind_some, hlocate, Option.bind_some, hfound, finish,
      if_neg Bool.false_ne_true, hclose]
    rfl
  · have hqa : q ≠ call.addr := fun h => by
      rw [h, hfresh] at hq
      cases hq
    rw [hobjects', if_neg hqa]
    by_cases hqd : q = d
    · rw [if_pos hqd, ← hd, ← hqd, hq]
    · rw [if_neg hqd, hout _ (Or.inl (by simp [hq])), hobjects, objects_attach, if_neg hqd,
        if_neg hqa, hq]

include hfresh hd hfile hpos hdetours hp in
/-- The search has come to another file. -/
theorem openObject_external_eq (hnew : s.objects newDomain = none) (hne : newDomain ≠ call.addr) :
    ∃ s', openObject t call (.external newDomain) d domain s = finish t call.addr call.completes s' ∧
      s'.objects call.addr = some (newObject t call newDomain) ∧
        s'.objects newDomain = some (newFile newDomain) ∧ Keeps s s' ∧
          Leaves p (filesOf call.detours) s s' := by
  obtain ⟨s₁, hs₁, hobjects, hleaves⟩ := @attach_detours t call p d domain s hd hdetours hp
  have haddr := addr_ne_domain hfresh hd
  have hnewd : d ≠ newDomain := fun heq => by
    rw [← heq, hd] at hnew
    cases hnew
  have hdomain : (s₁.store newDomain (newFile newDomain)).objects d = some domain.counted := by
    rw [Connector.objects_store, if_neg hnewd, hobjects, objects_attach, if_pos rfl]
  have hclose := rvFileClose_of_shared hdomain hfile (counted_ne_one hpos)
  rw [counted_back] at hclose
  refine ⟨((s₁.store newDomain (newFile newDomain)).store d domain).store call.addr
    (newObject t call newDomain), ?_, ?_, ?_, fun q o hq => ?_, hleaves.objects rfl⟩
  · rw [openObject, createObject, hs₁, Option.bind_some, locate, hclose]
    rfl
  · rw [Connector.objects_store, if_pos rfl]
  · rw [Connector.objects_store, if_neg hne, Connector.objects_store, if_neg hnewd.symm,
      Connector.objects_store, if_pos rfl]
  · have hqa : q ≠ call.addr := fun h => by
      rw [h, hfresh] at hq
      cases hq
    have hqn : q ≠ newDomain := fun h => by
      rw [h, hnew] at hq
      cases hq
    rw [Connector.objects_store, if_neg hqa, Connector.objects_store]
    by_cases hqd : q = d
    · rw [if_pos hqd, ← hd, ← hqd, hq]
    · rw [if_neg hqd, Connector.objects_store, if_neg hqn, hobjects, objects_attach, if_neg hqd,
        if_neg hqa, hq]

include hfresh hd hfile hpos hdetours hp in
/-- When the domain is lost, closing the object gives back a reference that it does not have. -/
theorem openObject_lost (ht : t ≠ .file) (hnew : s.objects newDomain = none)
    (hne : newDomain ≠ call.addr) {o : RVObject} (ho : s.objects p = some o) :
    ∃ s', openObject t call (.lost newDomain) d domain s = some (s', false) ∧
      (∀ file, s'.objects d = some file → file.refCount ≠ domain.refCount) ∧
        ∀ o', s'.objects p = some o' → o'.domain = o.domain := by
  obtain ⟨s₁, hs₁, hobjects, hleaves⟩ := @attach_detours t call p d domain s hd hdetours hp
  have haddr := addr_ne_domain hfresh hd
  have hpa : p ≠ call.addr := fun h => hp (h ▸ hfresh)
  have hpn : p ≠ newDomain := fun h => hp (h ▸ hnew)
  have hnewd : d ≠ newDomain := fun heq => by
    rw [← heq, hd] at hnew
    cases hnew
  have hdomain : (s₁.store newDomain (newFile newDomain)).objects d = some domain.counted := by
    rw [Connector.objects_store, if_neg hnewd, hobjects, objects_attach, if_pos rfl]
  have hclose := rvFileClose_of_shared hdomain hfile (counted_ne_one hpos)
  rw [counted_back] at hclose
  set s₂ := (s₁.store newDomain (newFile newDomain)).store d domain with hs₂
  have hd₂ : s₂.objects d = some domain := by
    rw [hs₂, Connector.objects_store, if_pos rfl]
  have hobject : s₂.objects call.addr = some (newObject t call d) := by
    rw [hs₂, Connector.objects_store, if_neg haddr, Connector.objects_store, if_neg hne.symm,
      hobjects, objects_attach, if_neg haddr, if_pos rfl]
  have hp₂ : s₂.objects p = some o := by
    rw [hs₂, Connector.objects_store]
    by_cases hpd : p = d
    · rw [if_pos hpd, ← hd, ← hpd, ho]
    · rw [if_neg hpd, Connector.objects_store, if_neg hpn, hobjects, objects_attach, if_neg hpd,
        if_neg hpa, ho]
  have hopen : openObject t call (.lost newDomain) d domain s =
      (rvClose t call.addr s₂).map fun closed => (closed, false) := by
    rw [openObject, createObject, hs₁, Option.bind_some, locate, hclose]
    rfl
  obtain ⟨s₃, hclosed, hcount, hdomains⟩ :=
    rvClose_changes ht hobject rfl hd₂ hfile hp₂ haddr.symm hpa
  refine ⟨s₃, by rw [hopen, hclosed]; rfl, fun file h => ?_, hdomains⟩
  rw [hcount file h]
  exact sub_one_ne domain.refCount

end Opened

/-! ## Opening and closing -/

section OpenAndClose

variable {s : Session} {p : Addr} {o domain : RVObject} {c₁ c₂ : Connector}
  {before entries : List (ObjType × Key)} {f : Option Connector}

theorem spared_append {others : List (ObjType × Key)} :
    Spared s p o (entries ++ others) ↔ Spared s p o entries ∧ Spared s p o others := by
  unfold Spared
  simp only [List.mem_append, not_or]
  exact imp_and

theorem spared_congr {others : List (ObjType × Key)} (h : ∀ e, e ∈ entries ↔ e ∈ others) :
    Spared s p o entries ↔ Spared s p o others := by
  unfold Spared
  rw [h]

/-- The rest of a query that keeps the objects. -/
theorem settles_iff (hopen : Open s p o domain) (hobjects : c₁.objects = s.conn.objects)
    (hbefore : Leaves p before s.conn c₁) (hf : f = some c₂) (hkeeps : Keeps c₁ c₂)
    (hleaves : Leaves p entries c₁ c₂) :
    (∃ c', f = some c' ∧ Session.view { s with conn := c' } p = s.view p) ↔
      Spared s p o before ∧ Spared s p o entries := by
  have hview := view_eq_iff hopen (fun q o' hq => hkeeps q o' (hobjects ▸ hq)) (hbefore.trans hleaves)
  rw [spared_append] at hview
  rw [and_comm, ← hview, hf]
  simp

/-- The rest of a query that changes the count. -/
theorem changes (hopen : Open s p o domain) (hf : f = some c₂)
    (hcount : ∀ file, c₂.objects o.domain = some file → file.refCount ≠ domain.refCount)
    (hdomain : ∀ o', c₂.objects p = some o' → o'.domain = o.domain) :
    ¬ ∃ c', f = some c' ∧ Session.view { s with conn := c' } p = s.view p := by
  rintro ⟨c', hc', hview⟩
  obtain rfl := Option.some.inj (hf.symm.trans hc')
  exact view_ne_of_count hopen hcount hdomain s.fields s.refs hview

variable {found : ObjType} {opening : Opening} {below : List Bool}

theorem openedType_ne_file (found : ObjType) : openedType found ≠ .file := by
  cases found <;> decide

/-- The open calls of the types have one part in common. -/
theorem openFound_eq (hp : c₁.objects p = some o) (hd : c₁.objects o.domain = some domain)
    (hopens : Opens found o) (search : Search) :
    openFound found (opening.call p) search c₁ =
      openObject (openedType found) (opening.call p) search o.domain domain c₁ := by
  obtain ⟨hattr, hcontainer, hpath⟩ := hopens
  have hadmits : (opening.call p).admitted = true ∧ o.objType ∈ containers := ⟨rfl, hcontainer⟩
  have hp' : c₁.objects (opening.call p).parent = some o := hp
  cases found with
  | attr => exact absurd rfl hattr
  | file | group =>
      rw [openFound, rvGroupOpen, admit_of hp' hd hadmits, if_pos (hpath rfl)]
      rfl
  | dataset =>
      rw [openFound, rvDatasetOpen, admit_of hp' hd hadmits]
      rfl
  | datatype =>
      rw [openFound, rvDatatypeOpen, admit_of hp' hd hadmits]
      rfl

/-- A call that does not come to its allocation does nothing. -/
theorem openFound_of_not (hp : c₁.objects p = some o) (hd : c₁.objects o.domain = some domain)
    (hopens : ¬ Opens found o) (search : Search) :
    openFound found (opening.call p) search c₁ = some (c₁, false) := by
  have hp' : c₁.objects (opening.call p).parent = some o := hp
  by_cases hcontainer : o.objType ∈ containers
  · have hadmits : (opening.call p).admitted = true ∧ o.objType ∈ containers := ⟨rfl, hcontainer⟩
    cases found with
    | attr => rfl
    | file | group =>
        have hpath : ¬ o.hasPath = true := fun h => hopens ⟨nofun, hcontainer, fun _ => h⟩
        rw [openFound, rvGroupOpen, admit_of hp' hd hadmits, if_neg hpath]
    | dataset => exact absurd ⟨nofun, hcontainer, nofun⟩ hopens
    | datatype => exact absurd ⟨nofun, hcontainer, nofun⟩ hopens
  · have hadmits : ¬ ((opening.call p).admitted = true ∧ o.objType ∈ containers) :=
      fun h => hcontainer h.2
    cases found with
    | attr => rfl
    | file | group => exact admit_of_not hp' hadmits _
    | dataset => exact admit_of_not hp' hadmits _
    | datatype => exact admit_of_not hp' hadmits _

/-- Nothing is done with an object that is not opened. -/
theorem openAndClose_of_failed
    (h : openFound found (opening.call p) opening.search c₁ = some (c₂, false)) :
    openAndClose found opening below p c₁ = some c₂ := by
  rw [openAndClose, h]
  rfl

/-- An object that is opened and gets no handle stays. -/
theorem openAndClose_of_unregistered
    (h : openFound found (opening.call p) opening.search c₁ = some (c₂, true))
    (hregisters : opening.registers = false) :
    openAndClose found opening below p c₁ = some c₂ := by
  rw [openAndClose, h, Option.bind_some, hregisters]
  rfl

/-- An object that is opened and gets a handle is worked on and closed. -/
theorem openAndClose_of_registered {object : RVObject}
    (h : openFound found (opening.call p) opening.search c₁ = some (c₂, true))
    (hregisters : opening.registers = true) (hobject : c₂.objects opening.addr = some object) :
    openAndClose found opening below p c₁ =
      (rvBuildObjectTable object.domain below c₂).bind (rvClose found opening.addr) := by
  rw [openAndClose, h, Option.bind_some, hregisters, Bool.and_self, if_pos rfl, hobject,
    Option.bind_some]

/-- The close routine of files refuses other objects. -/
theorem rvClose_file_of_ne {q : Addr} {object : RVObject} (hobject : c₁.objects q = some object)
    (htype : object.objType ≠ .file) : rvClose .file q c₁ = some c₁ := by
  change (rvFileClose q c₁).map Prod.fst = some c₁
  rw [rvFileClose, hobject]
  simp [htype]

/-- A handle of another type than the object's is one of a file. -/
theorem found_of_ne (hne : found ≠ openedType found) : found = .file ∧ openedType found = .group := by
  unfold openedType at hne ⊢
  split at hne
  · next h => exact ⟨h, if_pos h⟩
  · exact absurd rfl hne

section Cases

variable (hopen : Open s p o domain) (hobjects : c₁.objects = s.conn.objects)
  (hbefore : Leaves p before s.conn c₁) (hfresh : opening.Fresh c₁) (hopens : Opens found o)

include hopen hobjects in
/-- The location and its file are as they were. -/
theorem located : c₁.objects p = some o ∧ c₁.objects o.domain = some domain :=
  ⟨hobjects ▸ hopen.object, hobjects ▸ hopen.located⟩

include hopen hobjects hfresh hopens in
/-- An object in the location's file, once it is open. -/
theorem inside_made (hsearch : opening.search = .inside) (hcompletes : opening.completes = true) :
    ∃ c₂, openFound found (opening.call p) opening.search c₁ = some (c₂, true) ∧
      c₂.objects opening.addr =
        some (newObject (openedType found) (opening.call p) o.domain) ∧
      c₂.objects o.domain = some domain.counted ∧
      (∀ q, q ≠ opening.addr → q ≠ o.domain → c₂.objects q = c₁.objects q) ∧
      Leaves p ((openedType found, keyOf o.domain (openedType found)) :: filesOf opening.detours)
        c₁ c₂ := by
  obtain ⟨hp, hd⟩ := located hopen hobjects
  obtain ⟨haddr, hdetours, -⟩ := hfresh
  have hsome : c₁.objects p ≠ none := by simp [hp]
  have hda : opening.addr ≠ o.domain := @addr_ne_domain (opening.call p) _ _ _ haddr hd
  obtain ⟨c₂, hopened, hobjects₂, hleaves⟩ := @openObject_inside (openedType found)
    (opening.call p) p _ _ _ haddr hd hdetours hsome hcompletes
  refine ⟨c₂, ?_, ?_, ?_, fun q hqa hqd => ?_, hleaves⟩
  · rw [openFound_eq hp hd hopens, hsearch]
    exact hopened
  · rw [hobjects₂, objects_attach, if_neg hda]
    exact if_pos rfl
  · rw [hobjects₂, objects_attach, if_pos rfl]
  · rw [hobjects₂, objects_attach, if_neg hqd]
    exact if_neg hqa

include hopen hobjects hfresh in
/-- Neither the location nor its file is the memory of the new object. -/
theorem fresh_ne : p ≠ opening.addr ∧ o.domain ≠ opening.addr := by
  obtain ⟨hp, hd⟩ := located hopen hobjects
  refine ⟨fun h => ?_, fun h => ?_⟩
  · rw [h, hfresh.1] at hp
    cases hp
  · rw [h, hfresh.1] at hd
    cases hd

include hopen hobjects hfresh hopens in
/-- An object in the location's file is worked on and closed without an error. -/
theorem inside_settles (hbelow : below = [] ∨ openedType found = .group)
    (hsearch : opening.search = .inside) (hcompletes : opening.completes = true)
    (hregisters : opening.registers = true)
    (hright : found = openedType found ↔ ∀ pathSet ∈ below, pathSet = true)
    (hroom : HasRoom (domain.refCount + 1) below) :
    ∃ c₂, openAndClose found opening below p c₁ = some c₂ ∧ Keeps c₁ c₂ ∧
      Leaves p ((openedType found, keyOf o.domain (openedType found)) :: filesOf opening.detours)
        c₁ c₂ := by
  obtain ⟨hp, hd⟩ := located hopen hobjects
  obtain ⟨hpa, hda⟩ := fresh_ne hopen hobjects hfresh
  obtain ⟨c₂, hopened, hobject, hcounted, hothers, hleaves⟩ :=
    inside_made hopen hobjects hfresh hopens hsearch hcompletes
  have hclose := @openAndClose_of_registered p c₁ c₂ found opening below _ hopened hregisters hobject
  have hne (q : Addr) (object : RVObject) (hq : c₁.objects q = some object) : q ≠ opening.addr :=
    fun h => by
      rw [h, hfresh.1] at hq
      cases hq
  have hentry : below = [] ∨ (ObjType.group, keyOf o.domain .group) ∈
      (openedType found, keyOf o.domain (openedType found)) :: filesOf opening.detours :=
    hbelow.imp_right fun h => by
      rw [h]
      exact List.mem_cons_self
  by_cases hfound : found = openedType found
  · obtain ⟨c₃, hbuild, hobjects₃, htable₃⟩ :=
      rvBuildObjectTable_of_all hcounted hopen.file hroom (hright.mp hfound)
    obtain ⟨c₄, hclosed, hobjects₄, hleaves₄⟩ := @rvClose_counted _ (opening.call p) _ _ _ p
      (openedType_ne_file found) (hobjects₃ ▸ hobject) (hobjects₃ ▸ hcounted) hopen.file hopen.counted
    have hobjects₄ (q : Addr) : c₄.objects q =
      if q = opening.addr then none else if q = o.domain then some domain else c₃.objects q :=
        hobjects₄ q
    refine ⟨c₄, ?_, fun q object hq => ?_, ?_⟩
    · rw [hclose]
      change (rvBuildObjectTable o.domain below c₂).bind _ = _
      rw [hbuild, Option.bind_some, hfound]
      exact hclosed
    · rw [hobjects₄, if_neg (hne q object hq)]
      by_cases hqd : q = o.domain
      · rw [if_pos hqd, ← hd, ← hqd, hq]
      · rw [if_neg hqd, hobjects₃, hothers q (hne q object hq) hqd, hq]
    · have hworked := hleaves.below hbuild (fun t k _ => htable₃ t k) hentry
      exact (hworked.trans hleaves₄).congr fun e => by simp
  · obtain ⟨hfile, htype⟩ := found_of_ne hfound
    have hmem : false ∈ below := by
      by_contra hnone
      exact hfound (hright.mpr (all_of_not_mem hnone))
    obtain ⟨c₃, hbuild, hobjects₃, htable₃⟩ :=
      rvBuildObjectTable_of_mem hcounted hopen.file hroom hmem
    have hobject₃ : c₃.objects opening.addr =
        some (newObject (openedType found) (opening.call p) o.domain) := by
      rw [hobjects₃, if_neg hda.symm, hobject]
    refine ⟨c₃, ?_, fun q object hq => ?_, ?_⟩
    · rw [hclose]
      change (rvBuildObjectTable o.domain below c₂).bind _ = _
      rw [hbuild, Option.bind_some, hfile]
      exact rvClose_file_of_ne hobject₃ (openedType_ne_file found)
    · rw [hobjects₃]
      by_cases hqd : q = o.domain
      · rw [if_pos hqd, if_neg (counted_ne_one hopen.counted), counted_back, ← hd, ← hqd, hq]
      · rw [if_neg hqd, hothers q (hne q object hq) hqd, hq]
    · refine hleaves.below hbuild (fun t k _ hgroup => ?_) hentry
      rw [htable₃ t k hgroup, if_neg fun h => counted_ne_one hopen.counted h.1]

include hopen hobjects hfresh hopens in
/-- Otherwise a reference is lost or stays. -/
theorem inside_changes (hsearch : opening.search = .inside) (hcompletes : opening.completes = true)
    (hwrong : ¬ (opening.registers = true ∧
      (found = openedType found ↔ ∀ pathSet ∈ below, pathSet = true) ∧
        HasRoom (domain.refCount + 1) below)) :
    ¬ ∃ c', openAndClose found opening below p c₁ = some c' ∧
      Session.view { s with conn := c' } p = s.view p := by
  obtain ⟨hp, hd⟩ := located hopen hobjects
  obtain ⟨hpa, hda⟩ := fresh_ne hopen hobjects hfresh
  obtain ⟨c₂, hopened, hobject, hcounted, hothers, hleaves⟩ :=
    inside_made hopen hobjects hfresh hopens hsearch hcompletes
  obtain ⟨o₂, hp₂, hdomain₂⟩ : ∃ o₂, c₂.objects p = some o₂ ∧ o₂.domain = o.domain := by
    by_cases hpd : p = o.domain
    · have hsame : o = domain := by
        rw [hpd, hd] at hp
        exact (Option.some.inj hp).symm
      exact ⟨domain.counted, by rw [hpd, hcounted], by rw [hsame]; rfl⟩
    · exact ⟨o, by rw [hothers p hpa hpd, hp], rfl⟩
  have hdomains {c : Connector} (hc : c.objects p = c₂.objects p) (o' : RVObject)
      (h : c.objects p = some o') : o'.domain = o.domain := by
    rw [hc, hp₂] at h
    rw [← Option.some.inj h, hdomain₂]
  cases hregisters : opening.registers with
  | false =>
      refine changes hopen (openAndClose_of_unregistered hopened hregisters) (fun file h => ?_)
        (hdomains rfl)
      rw [hcounted] at h
      rw [← Option.some.inj h]
      exact add_one_ne domain.refCount
  | true =>
      have hclose :=
        @openAndClose_of_registered p c₁ c₂ found opening below _ hopened hregisters hobject
      have hclose : openAndClose found opening below p c₁ =
        (rvBuildObjectTable o.domain below c₂).bind (rvClose found opening.addr) := hclose
      by_cases hroom : HasRoom (domain.refCount + 1) below
      · have hwrong : ¬ (found = openedType found ↔ ∀ pathSet ∈ below, pathSet = true) :=
          fun h => hwrong ⟨hregisters, h, hroom⟩
        by_cases hall : ∀ pathSet ∈ below, pathSet = true
        · have hfound : found ≠ openedType found := fun h => hwrong (iff_of_true h hall)
          obtain ⟨hfile, -⟩ := found_of_ne hfound
          obtain ⟨c₃, hbuild, hobjects₃, -⟩ :=
            rvBuildObjectTable_of_all hcounted hopen.file hroom hall
          have hrefused := rvClose_file_of_ne (hobjects₃ ▸ hobject) (openedType_ne_file found)
          refine @changes _ _ _ _ c₃ _ hopen ?_ (fun file h => ?_) (hdomains (by rw [hobjects₃]))
          · rw [hclose, hbuild, Option.bind_some, hfile]
            exact hrefused
          · rw [hobjects₃, hcounted] at h
            rw [← Option.some.inj h]
            exact add_one_ne domain.refCount
        · have hfound : found = openedType found := by
            by_contra h
            exact hwrong (iff_of_false h hall)
          have hmem : false ∈ below := by
            by_contra hnone
            exact hall (all_of_not_mem hnone)
          obtain ⟨c₃, hbuild, hobjects₃, -⟩ :=
            rvBuildObjectTable_of_mem hcounted hopen.file hroom hmem
          have hd₃ : c₃.objects o.domain = some domain := by
            rw [hobjects₃, if_pos rfl, if_neg (counted_ne_one hopen.counted), counted_back]
          have hobject₃ : c₃.objects opening.addr =
              some (newObject (openedType found) (opening.call p) o.domain) := by
            rw [hobjects₃, if_neg hda.symm, hobject]
          obtain ⟨o₃, hp₃, hdomain₃⟩ : ∃ o₃, c₃.objects p = some o₃ ∧ o₃.domain = o.domain := by
            by_cases hpd : p = o.domain
            · have hsame : o = domain := by
                rw [hpd, hd] at hp
                exact (Option.some.inj hp).symm
              exact ⟨domain, by rw [hpd, hd₃], by rw [hsame]⟩
            · exact ⟨o₂, by rw [hobjects₃, if_neg hpd, hp₂], hdomain₂⟩
          obtain ⟨c₄, hclosed, hcount, hdomains₄⟩ :=
            rvClose_changes (openedType_ne_file found) hobject₃ rfl hd₃ hopen.file hp₃ hda hpa
          refine @changes _ _ _ _ c₄ _ hopen ?_ (fun file h => ?_) fun o' h => ?_
          · rw [hclose, hbuild, Option.bind_some, hfound]
            exact hclosed
          · rw [hcount file h]
            exact sub_one_ne domain.refCount
          · rw [hdomains₄ o' h, hdomain₃]
      · rintro ⟨c', hc', hview⟩
        rw [hclose] at hc'
        obtain ⟨c₃, hbuild, hclosed⟩ := Option.bind_eq_some_iff.mp hc'
        obtain ⟨hgone, hothers₃⟩ := rvBuildObjectTable_of_no_room hcounted hopen.file hroom hbuild
        have hobject₃ : c₃.objects opening.addr =
            some (newObject (openedType found) (opening.call p) o.domain) := by
          rw [hothers₃ _ hda.symm, hobject]
        by_cases hfound : found = openedType found
        · obtain ⟨keeps, hkeeps⟩ := rvClose_of_ne (openedType_ne_file found)
          rw [hfound, hkeeps, closeObject_of_gone (t := openedType found) keeps hobject₃ rfl hgone] at hclosed
          cases hclosed
        · obtain ⟨hfile, -⟩ := found_of_ne hfound
          rw [hfile, rvClose_file_of_ne hobject₃ (openedType_ne_file found)] at hclosed
          cases hclosed
          refine view_ne_of_count hopen (fun file h => ?_) (fun o' h => ?_) s.fields s.refs hview
          · rw [hgone] at h
            cases h
          · by_cases hpd : p = o.domain
            · rw [hpd, hgone] at h
              cases h
            · exact hdomains (hothers₃ p hpd) o' h

variable {newDomain : Addr}

include hopen hobjects hfresh hopens in
/-- An object in another file, once it is open. -/
theorem external_made (hsearch : opening.search = .external newDomain)
    (hcompletes : opening.completes = true) :
    ∃ c₂, openFound found (opening.call p) opening.search c₁ = some (c₂, true) ∧
      c₂.objects opening.addr = some (newObject (openedType found) (opening.call p) newDomain) ∧
      c₂.objects newDomain = some (newFile newDomain) ∧ Keeps c₁ c₂ ∧
      Leaves p ((openedType found, keyOf newDomain (openedType found)) :: filesOf opening.detours)
        c₁ c₂ := by
  obtain ⟨hp, hd⟩ := located hopen hobjects
  obtain ⟨hpa, -⟩ := fresh_ne hopen hobjects hfresh
  obtain ⟨haddr, hdetours, hnew⟩ := hfresh
  obtain ⟨hnone, hne⟩ := hnew newDomain (by rw [hsearch]; rfl)
  obtain ⟨c₂, hopened, hobject, hfile, hkeeps, hleaves⟩ := @openObject_external_eq
    (openedType found) (opening.call p) p _ _ _ _ haddr hd hopen.file hopen.counted
    hdetours (by simp [hp]) hnone hne
  refine ⟨c₂.insert (openedType found) (keyOf newDomain (openedType found)) opening.addr, ?_, hobject,
    hfile, hkeeps, hleaves.trans (Leaves.insert _ _ hpa.symm)⟩
  have hcompletes' : (opening.call p).completes = true := hcompletes
  rw [openFound_eq hp hd hopens, hsearch, hopened, hcompletes', finish, if_pos rfl, hobject]
  rfl

include hopen hobjects hfresh hopens in
/-- An object in another file that is given up. -/
theorem external_failed (hsearch : opening.search = .external newDomain)
    (hcompletes : opening.completes = false) :
    ∃ c₂, openAndClose found opening below p c₁ = some c₂ ∧ Keeps c₁ c₂ ∧
      Leaves p ((openedType found, keyOf newDomain (openedType found)) ::
        (.file, keyOf newDomain .file) :: filesOf opening.detours) c₁ c₂ := by
  obtain ⟨hp, hd⟩ := located hopen hobjects
  obtain ⟨haddr, hdetours, hnew⟩ := hfresh
  obtain ⟨hnone, hne⟩ := hnew newDomain (by rw [hsearch]; rfl)
  obtain ⟨c₂, hopened, hobject, hfile, hkeeps, hleaves⟩ := @openObject_external_eq
    (openedType found) (opening.call p) p _ _ _ _ haddr hd hopen.file hopen.counted
    hdetours (by simp [hp]) hnone hne
  obtain ⟨c₃, hclosed, hobjects₃, hleaves₃⟩ :=
    rvClose_alone p (openedType_ne_file found) hobject hfile
  refine ⟨c₃, openAndClose_of_failed ?_, fun q object hq => ?_,
    (hleaves.trans hleaves₃).congr fun e => ?_⟩
  · have hcompletes' : (opening.call p).completes = false := hcompletes
    rw [openFound_eq hp hd hopens, hsearch, hopened, hcompletes', finish,
      if_neg Bool.false_ne_true, hclosed]
    rfl
  · rw [hobjects₃, if_neg, hkeeps q object hq]
    rintro (rfl | rfl)
    · rw [show c₁.objects (opening.call p).addr = none from haddr] at hq
      cases hq
    · rw [hnone] at hq
      cases hq
  · simp only [List.mem_cons, List.mem_append, List.not_mem_nil, or_false]
    tauto

include hopen hobjects hfresh hopens in
/-- An object in another file that is worked on and closed. -/
theorem external_closed (hbelow : below = [] ∨ openedType found = .group)
    (hsearch : opening.search = .external newDomain) (hcompletes : opening.completes = true)
    (hregisters : opening.registers = true) (hfound : found = openedType found)
    (hall : ∀ pathSet ∈ below, pathSet = true) :
    ∃ c₂, openAndClose found opening below p c₁ = some c₂ ∧ Keeps c₁ c₂ ∧
      Leaves p ((openedType found, keyOf newDomain (openedType found)) ::
        (.file, keyOf newDomain .file) :: filesOf opening.detours) c₁ c₂ := by
  obtain ⟨c₂, hopened, hobject, hfile, hkeeps, hleaves⟩ :=
    external_made hopen hobjects hfresh hopens hsearch hcompletes
  obtain ⟨haddr, hdetours, hnew⟩ := hfresh
  obtain ⟨hnone, hne⟩ := hnew newDomain (by rw [hsearch]; rfl)
  have hclose := @openAndClose_of_registered p c₁ c₂ found opening below _ hopened hregisters hobject
  obtain ⟨c₃, hbuild, hobjects₃, htable₃⟩ :=
    rvBuildObjectTable_of_all hfile rfl (newFile_hasRoom newDomain below) hall
  obtain ⟨c₄, hclosed, hobjects₄, hleaves₄⟩ := @rvClose_alone _ (opening.call p) _ _ p
    (openedType_ne_file found) (hobjects₃ ▸ hobject) (hobjects₃ ▸ hfile)
  have hworked := hleaves.below hbuild (fun t k _ => htable₃ t k) (hbelow.imp_right fun h => by
    rw [h]
    exact List.mem_cons_self)
  refine ⟨c₄, ?_, fun q object hq => ?_, (hworked.trans hleaves₄).congr fun e => ?_⟩
  · rw [hclose]
    change (rvBuildObjectTable newDomain below c₂).bind _ = _
    rw [hbuild, Option.bind_some, hfound]
    exact hclosed
  · rw [hobjects₄, if_neg, hobjects₃, hkeeps q object hq]
    rintro (rfl | rfl)
    · rw [show c₁.objects (opening.call p).addr = none from haddr] at hq
      cases hq
    · rw [hnone] at hq
      cases hq
  · simp only [List.mem_cons, List.mem_append, List.not_mem_nil, or_false]
    tauto

include hopen hobjects hfresh hopens in
/-- When a reference to the other file is lost on the way, closing the object reads what is not there. -/
theorem external_undefined (hsearch : opening.search = .external newDomain)
    (hcompletes : opening.completes = true) (hregisters : opening.registers = true)
    (hfound : found = openedType found) (hmem : false ∈ below) :
    openAndClose found opening below p c₁ = none := by
  obtain ⟨c₂, hopened, hobject, hfile, -, -⟩ :=
    external_made hopen hobjects hfresh hopens hsearch hcompletes
  obtain ⟨-, -, hnew⟩ := hfresh
  obtain ⟨-, hne⟩ := hnew newDomain (by rw [hsearch]; rfl)
  have hclose := @openAndClose_of_registered p c₁ c₂ found opening below _ hopened hregisters hobject
  obtain ⟨c₃, hbuild, hobjects₃, -⟩ :=
    rvBuildObjectTable_of_mem hfile rfl (newFile_hasRoom newDomain below) hmem
  have hgone : c₃.objects newDomain = none := by
    rw [hobjects₃, if_pos rfl]
    exact if_pos rfl
  have hobject₃ : c₃.objects opening.addr =
      some (newObject (openedType found) (opening.call p) newDomain) := by
    rw [hobjects₃, if_neg hne.symm, hobject]
  obtain ⟨keeps, hkeeps⟩ := rvClose_of_ne (openedType_ne_file found)
  rw [hclose]
  change (rvBuildObjectTable newDomain below c₂).bind _ = _
  rw [hbuild, Option.bind_some, hfound, hkeeps]
  exact closeObject_of_gone keeps hobject₃ rfl hgone

include hopen hobjects hfresh hopens in
/-- An object in another file that stays open. -/
theorem external_stays (hbelow : below = [] ∨ openedType found = .group)
    (hsearch : opening.search = .external newDomain) (hcompletes : opening.completes = true)
    (hstays : opening.registers = false ∨ found ≠ openedType found) :
    ∃ c₂, openAndClose found opening below p c₁ = some c₂ ∧ Keeps c₁ c₂ ∧
      Leaves p ((openedType found, keyOf newDomain (openedType found)) ::
        ((if opening.registers = true ∧ false ∈ below then [(.file, keyOf newDomain .file)] else []) ++
          filesOf opening.detours)) c₁ c₂ := by
  obtain ⟨c₂, hopened, hobject, hfile, hkeeps, hleaves⟩ :=
    external_made hopen hobjects hfresh hopens hsearch hcompletes
  obtain ⟨haddr, hdetours, hnew⟩ := hfresh
  obtain ⟨hnone, hne⟩ := hnew newDomain (by rw [hsearch]; rfl)
  cases hregisters : opening.registers with
  | false =>
      refine ⟨c₂, openAndClose_of_unregistered hopened hregisters, hkeeps, ?_⟩
      simpa using hleaves
  | true =>
      have hfound := hstays.resolve_left fun h => by
        rw [hregisters] at h
        cases h
      obtain ⟨hfileFound, htype⟩ := found_of_ne hfound
      have hclose :=
        @openAndClose_of_registered p c₁ c₂ found opening below _ hopened hregisters hobject
      have hclose : openAndClose found opening below p c₁ =
        (rvBuildObjectTable newDomain below c₂).bind (rvClose found opening.addr) := hclose
      by_cases hmem : false ∈ below
      · obtain ⟨c₃, hbuild, hobjects₃, htable₃⟩ :=
          rvBuildObjectTable_of_mem hfile rfl (newFile_hasRoom newDomain below) hmem
        have hobject₃ : c₃.objects opening.addr =
            some (newObject (openedType found) (opening.call p) newDomain) := by
          rw [hobjects₃, if_neg hne.symm, hobject]
        refine ⟨c₃, ?_, fun q object hq => ?_, ?_⟩
        · rw [hclose, hbuild, Option.bind_some, hfileFound]
          exact rvClose_file_of_ne hobject₃ (openedType_ne_file found)
        · rw [hobjects₃, if_neg, hkeeps q object hq]
          rintro rfl
          rw [hnone] at hq
          cases hq
        · rw [if_pos ⟨rfl, hmem⟩]
          constructor
          · intro t k hout
            rw [htype, List.mem_cons, not_or, List.mem_append, not_or, List.mem_singleton] at hout
            obtain ⟨hgroup, hfileEntry, hfiles⟩ := hout
            rw [htable₃ t k fun h => hgroup (by rw [h.1, h.2]), if_neg fun h => hfileEntry (by
              rw [h.2.1, h.2.2]
              rfl)]
            refine hleaves.kept t k fun hin => ?_
            rw [htype, List.mem_cons] at hin
            exact hin.elim hgroup hfiles
          · intro t k hin
            rcases rvBuildObjectTable_table hbuild t k with heq | hnone₃
            · by_cases hfileEntry : (t, k) = (.file, keyOf newDomain .file)
              · obtain ⟨rfl, rfl⟩ := Prod.mk.inj hfileEntry
                rw [htable₃ _ _ (fun h => by cases h.1), if_pos ⟨rfl, rfl, rfl⟩]
                exact (Option.some_ne_none p).symm
              · rw [heq]
                apply hleaves.taken t k
                rw [List.mem_cons, List.mem_append, List.mem_singleton] at hin
                exact List.mem_cons.mpr (hin.imp_right fun h => h.resolve_left hfileEntry)
            · rw [hnone₃]
              exact (Option.some_ne_none p).symm
      · have hall := all_of_not_mem hmem
        obtain ⟨c₃, hbuild, hobjects₃, htable₃⟩ :=
          rvBuildObjectTable_of_all hfile rfl (newFile_hasRoom newDomain below) hall
        refine ⟨c₃, ?_, fun q object hq => ?_, ?_⟩
        · rw [hclose, hbuild, Option.bind_some, hfileFound]
          exact rvClose_file_of_ne (hobjects₃ ▸ hobject) (openedType_ne_file found)
        · rw [hobjects₃, hkeeps q object hq]
        · rw [if_neg fun h => hmem h.2, List.nil_append]
          exact hleaves.below hbuild (fun t k _ => htable₃ t k) (hbelow.imp_right fun h => by
            rw [h]
            exact List.mem_cons_self)

include hopen hobjects hbefore hfresh in
/-- The part of the calls by name behind their search leaves the location as it was just when the opening is
harmless. -/
theorem openAndClose_iff (hbelow : below = [] ∨ openedType found = .group) :
    (∃ c', openAndClose found opening below p c₁ = some c' ∧
      Session.view { s with conn := c' } p = s.view p) ↔
      Spared s p o before ∧
        (Opens found o → opening.Harmless (Spared s p o) found below o domain) := by
  obtain ⟨hp, hd⟩ := located hopen hobjects
  by_cases hopens : Opens found o
  · simp only [hopens, true_imp_iff]
    obtain ⟨haddr, hdetours, hnew⟩ := id hfresh
    have hsome : c₁.objects p ≠ none := by simp [hp]
    unfold Opening.Harmless
    cases hsearch : opening.search with
    | missed =>
        obtain ⟨c₂, hopened, hkeeps, hleaves⟩ := @openObject_closed (openedType found)
          (opening.call p) p _ _ _ haddr hd hopen.file hopen.counted hdetours hsome _
          (openedType_ne_file found) (Or.inl rfl)
        exact settles_iff hopen hobjects hbefore (openAndClose_of_failed (by
          rw [hsearch, openFound_eq hp hd hopens, hopened])) hkeeps hleaves
    | aborted newDomain refCount =>
        obtain ⟨hnone, hne⟩ := hnew newDomain (by rw [hsearch]; rfl)
        obtain ⟨c₂, hopened, hkeeps, hleaves⟩ := @openObject_closed (openedType found)
          (opening.call p) p _ _ _ haddr hd hopen.file hopen.counted hdetours hsome _
          (openedType_ne_file found) (Or.inr (Or.inl ⟨newDomain, refCount, rfl, hnone, hne⟩))
        exact settles_iff hopen hobjects hbefore (openAndClose_of_failed (by
          rw [hsearch, openFound_eq hp hd hopens, hopened])) hkeeps hleaves
    | lost newDomain =>
        obtain ⟨hnone, hne⟩ := hnew newDomain (by rw [hsearch]; rfl)
        obtain ⟨c₂, hopened, hcount, hdomain⟩ := @openObject_lost (openedType found)
          (opening.call p) p _ _ _ _ haddr hd hopen.file hopen.counted hdetours hsome
          (openedType_ne_file found) hnone hne _ hp
        refine iff_of_false (changes hopen (openAndClose_of_failed (by
          rw [hsearch, openFound_eq hp hd hopens, hopened])) hcount hdomain) fun h => h.2
    | inside =>
        cases hcompletes : opening.completes with
        | false =>
            obtain ⟨c₂, hopened, hkeeps, hleaves⟩ := @openObject_closed (openedType found)
              (opening.call p) p _ _ _ haddr hd hopen.file hopen.counted hdetours hsome _
              (openedType_ne_file found) (Or.inr (Or.inr ⟨rfl, hcompletes⟩))
            rw [settles_iff hopen hobjects hbefore (openAndClose_of_failed (by
              rw [hsearch, openFound_eq hp hd hopens, hopened])) hkeeps hleaves]
            simp only [Bool.false_eq_true, false_imp_iff, and_true]
            rfl
        | true =>
            by_cases hright : opening.registers = true ∧
              (found = openedType found ↔ ∀ pathSet ∈ below, pathSet = true) ∧
                HasRoom (domain.refCount + 1) below
            · obtain ⟨c₂, hdone, hkeeps, hleaves⟩ := inside_settles hopen hobjects hfresh hopens
                hbelow hsearch hcompletes hright.1 hright.2.1 hright.2.2
              rw [settles_iff hopen hobjects hbefore hdone hkeeps hleaves]
              simp only [true_imp_iff, hright, and_true]
            · refine iff_of_false
                (inside_changes hopen hobjects hfresh hopens hsearch hcompletes hright) fun h => ?_
              exact hright (h.2.2 rfl)
    | external newDomain =>
        cases hcompletes : opening.completes with
        | false =>
            obtain ⟨c₂, hdone, hkeeps, hleaves⟩ := @external_failed s p o domain c₁ found opening below
              hopen hobjects hfresh hopens newDomain hsearch hcompletes
            rw [settles_iff hopen hobjects hbefore hdone hkeeps hleaves]
            simp only [Bool.false_eq_true, false_and, if_false, false_imp_iff, and_true]
        | true =>
            by_cases hstays : opening.registers = false ∨ found ≠ openedType found
            · obtain ⟨c₂, hdone, hkeeps, hleaves⟩ :=
                external_stays hopen hobjects hfresh hopens hbelow hsearch hcompletes hstays
              rw [settles_iff hopen hobjects hbefore hdone hkeeps hleaves]
              simp only [true_and, hstays, if_true]
            · have hstays' := hstays
              rw [not_or, Bool.not_eq_false, not_not] at hstays'
              obtain ⟨hregisters, hfound⟩ := hstays'
              simp only [hstays, and_false, if_false, true_imp_iff]
              by_cases hmem : false ∈ below
              · refine iff_of_false ?_ fun h => ?_
                · rw [external_undefined hopen hobjects hfresh hopens hsearch hcompletes hregisters
                    hfound hmem]
                  rintro ⟨c', h, -⟩
                  cases h
                · cases h.2.2 false hmem
              · have hall := all_of_not_mem hmem
                obtain ⟨c₂, hdone, hkeeps, hleaves⟩ := external_closed hopen hobjects hfresh hopens
                  hbelow hsearch hcompletes hregisters hfound hall
                rw [settles_iff hopen hobjects hbefore hdone hkeeps hleaves]
                exact and_congr_right fun _ => (and_iff_left hall).symm
  · have hdone : openAndClose found opening below p c₁ = some c₁ :=
      openAndClose_of_failed (openFound_of_not hp hd hopens opening.search)
    rw [settles_iff hopen hobjects hbefore hdone (fun _ _ hq => hq) (Leaves.of_table_eq rfl)]
    simp [hopens, Spared]

end Cases

end OpenAndClose

/-! ## Searches one after the other -/

section Searches

variable {s₀ s : Connector} {p d cur : Addr} {domain : RVObject}

/-- The file that the searches have come to: the location's, counted once more, or one that was made on the
way. Everything else is as it was. -/
inductive Carries (s₀ : Connector) (d : Addr) (domain : RVObject) (s : Connector) : Addr → Prop
  | own (objects : ∀ q, s.objects q = if q = d then some domain.counted else s₀.objects q) :
      Carries s₀ d domain s d
  | other {newDomain : Addr} (hnone : s₀.objects newDomain = none)
      (objects : ∀ q, s.objects q =
        if q = newDomain then some (newFile newDomain) else s₀.objects q) :
      Carries s₀ d domain s newDomain

/-- The entry that goes with the file. -/
def closingEntries (d cur : Addr) : List (ObjType × Key) :=
  if cur = d then [] else [(.file, keyOf cur .file)]

namespace Carries

/-- Closing the file in the end, whatever else was made meanwhile. -/
theorem close (hd : s₀.objects d = some domain) (hfile : domain.objType = .file)
    (hpos : domain.refCount ≠ 0) (p : Addr) (h : Carries s₀ d domain s cur) {s₁ : Connector}
    (hsame : s₁.objects cur = s.objects cur) :
    ∃ s', rvFileClose cur s₁ = some (s', true) ∧
      (∀ q, s'.objects q = if q = cur then s₀.objects q else s₁.objects q) ∧
        Leaves p (closingEntries d cur) s₁ s' := by
  cases h with
  | own objects =>
      have hcounted : s₁.objects d = some domain.counted := by
        rw [hsame, objects, if_pos rfl]
      have hclose := rvFileClose_of_shared hcounted hfile (counted_ne_one hpos)
      rw [counted_back] at hclose
      refine ⟨s₁.store d domain, hclose, fun q => ?_, ?_⟩
      · rw [Connector.objects_store]
        split
        · next heq => rw [heq, hd]
        · rfl
      · rw [closingEntries, if_pos rfl]
        exact Leaves.of_table_eq rfl
  | other hnone objects =>
      have hne : cur ≠ d := fun h => by
        rw [h, hd] at hnone
        cases hnone
      have hnew : s₁.objects cur = some (newFile cur) := by
        rw [hsame, objects, if_pos rfl]
      refine ⟨_, rvFileClose_of_last hnew rfl rfl, fun q => ?_, ?_⟩
      · rw [Connector.objects_free, Connector.objects_remove]
        split
        · next heq => rw [heq, hnone]
        · rfl
      · rw [closingEntries, if_neg hne]
        exact (Leaves.remove .file (newFile cur).key).objects rfl

/-- Other objects are as they were. -/
theorem objects_ne (h : Carries s₀ d domain s cur) {q : Addr} (hq : q ≠ cur) :
    s.objects q = s₀.objects q := by
  cases h with
  | own objects => rw [objects, if_neg hq]
  | other hnone objects => rw [objects, if_neg hq]

end Carries

/-- The searches give back what they take, and remove the entries of the files that they made. -/
theorem searchAll_spec (hd : s₀.objects d = some domain) (hfile : domain.objType = .file)
    (hpos : domain.refCount ≠ 0) (hp : s₀.objects p ≠ none) {lookups : List Lookup}
    (hcarries : Carries s₀ d domain s cur) (hfresh : ∀ lookup ∈ lookups, lookup.Fresh s₀)
    (hbefore : lookups.Pairwise Lookup.Before)
    (hcur : cur = d ∨ ∀ lookup ∈ lookups,
      cur ∉ lookup.detours ∧ lookup.search.newDomain? ≠ some cur) :
    ∃ s', searchAll lookups cur s = some s' ∧ Keeps s₀ s' ∧
      Leaves p (closingEntries d cur ++ searchEntries lookups) s s' := by
  induction lookups generalizing s cur with
  | nil =>
      obtain ⟨s', hclose, hobjects, hleaves⟩ := hcarries.close hd hfile hpos p rfl
      refine ⟨s', by rw [searchAll, hclose]; rfl, fun q o hq => ?_, by simpa [searchEntries] using hleaves⟩
      rw [hobjects]
      split
      · exact hq
      · next hne => rw [hcarries.objects_ne hne, hq]
  | cons lookup rest ih =>
      obtain ⟨hdetours, hnew⟩ := hfresh lookup List.mem_cons_self
      have hother (q : Addr) (hq : s₀.objects q = none) (hne : cur ≠ d → q ≠ cur) : q ≠ cur := by
        by_cases hcd : cur = d
        · rintro rfl
          rw [hcd, hd] at hq
          cases hq
        · exact hne hcd
      have hfree : ∀ f ∈ lookup.detours, s.objects f = none := fun f hf => by
        have hfc : f ≠ cur := hother f (hdetours f hf) fun hcd h =>
          ((hcur.resolve_left hcd) lookup List.mem_cons_self).1 (h ▸ hf)
        rw [hcarries.objects_ne hfc, hdetours f hf]
      obtain ⟨s₁, hs₁, hobjects₁, hleaves₁⟩ :=
        detours_leaves (p := p) hfree fun hmem => hp (hdetours p hmem)
      have hcarries₁ : Carries s₀ d domain s₁ cur := by
        cases hcarries with
        | own objects => exact .own fun q => by rw [hobjects₁, objects]
        | other hnone objects => exact .other hnone fun q => by rw [hobjects₁, objects]
      have hnewCur (newDomain : Addr) (h : lookup.search.newDomain? = some newDomain) :
          newDomain ≠ cur := hother newDomain (hnew newDomain h) fun hcd heq =>
        ((hcur.resolve_left hcd) lookup List.mem_cons_self).2 (heq ▸ h)
      have hsome (q newDomain : Addr) (o : RVObject) (hq : s₀.objects q = some o)
          (h : lookup.search.newDomain? = some newDomain) : q ≠ newDomain := by
        rintro rfl
        rw [hnew _ h] at hq
        cases hq
      have hrest : ∀ later ∈ rest, later.Fresh s₀ := fun later hmem =>
        hfresh later (List.mem_cons_of_mem _ hmem)
      rw [List.pairwise_cons] at hbefore
      rw [searchAll, hs₁, Option.bind_some]
      cases hsearch : lookup.search with
      | missed =>
          obtain ⟨s₂, hclose, hobjects₂, hleaves₂⟩ := hcarries₁.close hd hfile hpos p rfl
          refine ⟨s₂, by rw [hclose]; rfl, fun q o hq => ?_,
            (hleaves₁.trans hleaves₂).congr fun e => by simp [searchEntries, hsearch]⟩
          rw [hobjects₂]
          split
          · exact hq
          · next hne => rw [hcarries₁.objects_ne hne, hq]
      | inside =>
          obtain ⟨s₂, hsearched, hkeeps, hleaves₂⟩ := ih hcarries₁ hrest hbefore.2
            (hcur.imp_right fun h later hmem => h later (List.mem_cons_of_mem _ hmem))
          refine ⟨s₂, hsearched, hkeeps, (hleaves₁.trans hleaves₂).congr fun e => ?_⟩
          simp only [searchEntries, hsearch, List.mem_append]
          tauto
      | aborted newDomain refCount =>
          have hne := hnewCur newDomain (by rw [hsearch]; rfl)
          obtain ⟨s₂, hclose, hobjects₂, hleaves₂⟩ := hcarries₁.close hd hfile hpos p
            (show (s₁.store newDomain { newFile newDomain with refCount }).objects cur = _ by
              rw [Connector.objects_store, if_neg hne.symm])
          refine ⟨s₂, by simp only [hclose]; rfl, fun q o hq => ?_,
            (hleaves₁.trans_store hleaves₂).congr fun e => by simp [searchEntries, hsearch]⟩
          rw [hobjects₂]
          split
          · exact hq
          · next hqc =>
              rw [Connector.objects_store, if_neg (hsome q _ o hq (by rw [hsearch]; rfl)),
                hcarries₁.objects_ne hqc, hq]
      | lost newDomain =>
          have hne := hnewCur newDomain (by rw [hsearch]; rfl)
          obtain ⟨s₂, hclose, hobjects₂, hleaves₂⟩ := hcarries₁.close hd hfile hpos p
            (show (s₁.store newDomain (newFile newDomain)).objects cur = _ by
              rw [Connector.objects_store, if_neg hne.symm])
          have hnewFile : s₂.objects newDomain = some (newFile newDomain) := by
            rw [hobjects₂, if_neg hne, Connector.objects_store, if_pos rfl]
          refine ⟨_, by simp only [hclose, Option.bind_some, rvFileClose_of_last hnewFile rfl rfl]; rfl,
            fun q o hq => ?_, ?_⟩
          · have hqn := hsome q newDomain o hq (by rw [hsearch]; rfl)
            rw [Connector.objects_free, if_neg hqn, Connector.objects_remove, hobjects₂]
            split
            · exact hq
            · next hqc =>
                rw [Connector.objects_store, if_neg hqn, hcarries₁.objects_ne hqc, hq]
          · have hremoved := (hleaves₁.trans_store hleaves₂).trans
              (Leaves.remove .file (newFile newDomain).key)
            refine (hremoved.congr fun e => ?_).objects rfl
            have hkey : (newFile newDomain).key = keyOf newDomain .file := rfl
            simp only [searchEntries, hsearch, List.mem_append, List.mem_singleton, hkey]
            tauto
      | external newDomain =>
          have hne := hnewCur newDomain (by rw [hsearch]; rfl)
          obtain ⟨s₂, hclose, hobjects₂, hleaves₂⟩ := hcarries₁.close hd hfile hpos p
            (show (s₁.store newDomain (newFile newDomain)).objects cur = _ by
              rw [Connector.objects_store, if_neg hne.symm])
          have hnone := hnew newDomain (by rw [hsearch]; rfl)
          have hnd : newDomain ≠ d := fun h => by
            rw [h, hd] at hnone
            cases hnone
          have hcarries₂ : Carries s₀ d domain s₂ newDomain := .other hnone fun q => by
            rw [hobjects₂]
            by_cases hqn : q = newDomain
            · rw [if_pos hqn, if_neg (hqn ▸ hne), Connector.objects_store, if_pos hqn]
            · rw [if_neg hqn]
              split
              · rfl
              · next hqc => rw [Connector.objects_store, if_neg hqn, hcarries₁.objects_ne hqc]
          obtain ⟨s₃, hsearched, hkeeps, hleaves₃⟩ := ih hcarries₂ hrest hbefore.2
            (Or.inr fun later hmem => hbefore.1 later hmem newDomain (by rw [hsearch]; rfl))
          refine ⟨s₃, by simp only [hclose, Option.bind_some]; exact hsearched, hkeeps,
            ((hleaves₁.trans_store hleaves₂).trans hleaves₃).congr fun e => ?_⟩
          simp only [searchEntries, hsearch, closingEntries, if_neg hnd, List.mem_append, List.mem_cons]
          tauto

end Searches

/-! ## The other queries -/

section Others

variable {s : Session} {p : Addr} {o domain : RVObject} (hopen : Open s p o domain)

include hopen in
/-- `RV_object_get` counts the file while it searches. -/
theorem rvObjectGet_iff {lookups : List Lookup} (hfresh : ∀ lookup ∈ lookups, lookup.Fresh s.conn)
    (hbefore : lookups.Pairwise Lookup.Before) :
    (∃ c', rvObjectGet p lookups s.conn = some c' ∧
      Session.view { s with conn := c' } p = s.view p) ↔ Spared s p o (searchEntries lookups) := by
  have hcarries : Carries s.conn o.domain domain (s.conn.store o.domain domain.counted) o.domain :=
    .own fun q => Connector.objects_store ..
  obtain ⟨c', hsearched, hkeeps, hleaves⟩ := searchAll_spec (p := p) hopen.located hopen.file
    hopen.counted (by simp [hopen.object]) hcarries hfresh hbefore (Or.inl rfl)
  rw [closingEntries, if_pos rfl, List.nil_append] at hleaves
  have hstored : Leaves p [] s.conn (s.conn.store o.domain domain.counted) :=
    Leaves.of_table_eq rfl
  have hget : rvObjectGet p lookups s.conn = some c' := by
    rw [rvObjectGet, hopen.object, Option.bind_some, count, hopen.located, Option.map_some,
      Option.bind_some, hsearched]
  have hview := view_eq_iff hopen hkeeps (hstored.trans hleaves)
  rw [List.append_nil] at hview
  rw [← hview, hget]
  simp

/-- Closing a file makes its count another. -/
theorem rvFileClose_changes {c : Connector} {d : Addr} {file : RVObject}
    (hd : c.objects d = some file) (hfile : file.objType = .file) :
    ∃ c', rvFileClose d c = some (c', true) ∧
      (∀ file', c'.objects d = some file' →
        file'.refCount = file.refCount - 1 ∧ file'.domain = file.domain) ∧
        ∀ q, q ≠ d → c'.objects q = c.objects q := by
  by_cases hlast : file.refCount = 1
  · refine ⟨_, rvFileClose_of_last hd hfile hlast, fun file' h => ?_, fun q hq => ?_⟩
    · rw [Connector.objects_free, if_pos rfl] at h
      cases h
    · rw [Connector.objects_free, if_neg hq, Connector.objects_remove]
  · refine ⟨_, rvFileClose_of_shared hd hfile hlast, fun file' h => ?_, fun q hq => ?_⟩
    · rw [Connector.objects_store, if_pos rfl] at h
      rw [← Option.some.inj h]
      exact ⟨rfl, rfl⟩
    · rw [Connector.objects_store, if_neg hq]

/-- What the search for the group leaves, the iterations over its links made before. -/
def infoAfterSearch (p domain : Addr) (search : Search) (c₁ : Connector) : Option Connector :=
  match search with
  | .missed | .inside => some c₁
  | .aborted newDomain refCount =>
      some (c₁.store newDomain { newFile newDomain with refCount })
  | .lost newDomain =>
      (rvFileClose domain (c₁.store newDomain (newFile newDomain))).map Prod.fst
  | .external newDomain =>
      (rvFileClose domain (c₁.store newDomain (newFile newDomain))).bind fun closed =>
        (closed.1.objects p).map fun o' => closed.1.store p { o' with domain := newDomain }

include hopen in
/-- `H5Gget_info_by_name` closes a file that it has not counted, and leaves the location in another one. -/
theorem rvGroupGetInfoByName_iff {lookup : Lookup} (hfresh : lookup.Fresh s.conn) :
    (∃ c', rvGroupGetInfoByName p lookup s.conn = some c' ∧
      Session.view { s with conn := c' } p = s.view p) ↔
      (o.objType ∈ containers → KeepsDomain lookup.search ∧ Spared s p o (filesOf lookup.detours)) := by
  obtain ⟨hdetours, hnew⟩ := hfresh
  have hstart : Leaves p [] s.conn s.conn := Leaves.of_table_eq rfl
  have hspared : Spared s p o [] := fun _ h => by cases h
  by_cases hcontainer : o.objType ∈ containers
  · obtain ⟨c₁, hc₁, hobjects₁, hleaves₁⟩ := detours_leaves (p := p) hdetours fun hmem => by
      have hnone := hdetours p hmem
      rw [hopen.object] at hnone
      cases hnone
    have hget : rvGroupGetInfoByName p lookup s.conn = infoAfterSearch p o.domain lookup.search c₁ := by
      rw [rvGroupGetInfoByName, hopen.object, Option.bind_some, if_neg (not_not_intro hcontainer),
        hc₁]
      refine (Option.bind_some _ _).trans ?_
      cases lookup.search <;> rfl
    have hout (newDomain : Addr) (h : lookup.search.newDomain? = some newDomain) :
        p ≠ newDomain ∧ o.domain ≠ newDomain := by
      have hnone := hnew newDomain h
      refine ⟨fun heq => ?_, fun heq => ?_⟩
      · rw [← heq, hopen.object] at hnone
        cases hnone
      · rw [← heq, hopen.located] at hnone
        cases hnone
    simp only [hcontainer, true_imp_iff]
    cases hsearch : lookup.search with
    | missed | inside =>
        have hdone : rvGroupGetInfoByName p lookup s.conn = some c₁ := by
          rw [hget, hsearch, infoAfterSearch]
        have hsettles := settles_iff hopen rfl hstart hdone (Keeps.of_eq hobjects₁) hleaves₁
        simpa [KeepsDomain, hspared] using hsettles
    | aborted newDomain refCount =>
        have hkeeps : Keeps s.conn (c₁.store newDomain { newFile newDomain with refCount }) :=
          fun q object hq => by
            rw [Connector.objects_store, if_neg, hobjects₁, hq]
            rintro rfl
            rw [hnew q (by rw [hsearch]; rfl)] at hq
            cases hq
        have hdone : rvGroupGetInfoByName p lookup s.conn =
            some (c₁.store newDomain { newFile newDomain with refCount }) := by
          rw [hget, hsearch, infoAfterSearch]
        have hsettles := settles_iff hopen rfl hstart hdone hkeeps (hleaves₁.objects rfl)
        simpa [KeepsDomain, hspared] using hsettles
    | lost newDomain =>
        obtain ⟨hpn, hdn⟩ := hout newDomain (by rw [hsearch]; rfl)
        have hd : (c₁.store newDomain (newFile newDomain)).objects o.domain = some domain := by
          rw [Connector.objects_store, if_neg hdn, hobjects₁, hopen.located]
        obtain ⟨c₂, hclose, hcount, hothers⟩ := rvFileClose_changes hd hopen.file
        have hdone : rvGroupGetInfoByName p lookup s.conn = some c₂ := by
          rw [hget, hsearch, infoAfterSearch]
          rw [hclose]
          rfl
        refine iff_of_false (changes hopen hdone (fun file h => ?_) fun o' h => ?_) fun h => h.1
        · rw [(hcount file h).1]
          exact sub_one_ne domain.refCount
        · by_cases hpd : p = o.domain
          · have hsame : o = domain := by
              have hp := hopen.object
              rw [hpd, hopen.located] at hp
              exact (Option.some.inj hp).symm
            rw [(hcount o' (hpd ▸ h)).2, ← hsame]
          · rw [hothers p hpd, Connector.objects_store, if_neg hpn, hobjects₁, hopen.object] at h
            rw [← Option.some.inj h]
    | external newDomain =>
        obtain ⟨hpn, hdn⟩ := hout newDomain (by rw [hsearch]; rfl)
        refine iff_of_false ?_ fun h => h.1
        rintro ⟨c', hc', hview⟩
        rw [hget, hsearch, infoAfterSearch] at hc'
        obtain ⟨closed, -, hc'⟩ := Option.bind_eq_some_iff.mp hc'
        obtain ⟨o', -, rfl⟩ := Option.map_eq_some_iff.mp hc'
        refine view_ne_of_domain hopen (fun o'' h => ?_) s.fields s.refs hview
        rw [Connector.objects_store, if_pos rfl] at h
        rw [← Option.some.inj h]
        exact hdn.symm
  · have hget : rvGroupGetInfoByName p lookup s.conn = some s.conn := by
      rw [rvGroupGetInfoByName, hopen.object, Option.bind_some, if_pos hcontainer]
    refine iff_of_true ⟨s.conn, hget, rfl⟩ fun h => absurd h hcontainer

include hopen in
/-- An object of these kinds can have attributes. -/
theorem owns_attributes : o.objType ∈ attributeOwners ∧ o.objType ≠ .attr := by
  rw [← hopen.kind]
  cases (s.fields p).ids <;> simp [Ids.objType, attributeOwners]

include hopen in
/-- An attribute that a visit opens is closed again. -/
theorem visitAttribute_iff {opening : Opening} {c₁ : Connector} {before : List (ObjType × Key)}
    (hobjects : c₁.objects = s.conn.objects) (hbefore : Leaves p before s.conn c₁)
    (hfresh : opening.Fresh c₁) :
    (∃ c', visitAttribute opening p c₁ = some c' ∧
      Session.view { s with conn := c' } p = s.view p) ↔
      Spared s p o before ∧ opening.pathSet = true ∧ Spared s p o (filesOf opening.detours) := by
  obtain ⟨hp, hd⟩ := located hopen hobjects
  obtain ⟨howner, hattr⟩ := owns_attributes hopen
  obtain ⟨haddr, hdetours, -⟩ := hfresh
  have hadmits : (opening.call p).admitted = true ∧ o.objType ∈ attributeOwners := ⟨rfl, howner⟩
  have hp' : c₁.objects (opening.call p).parent = some o := hp
  have hsome : c₁.objects p ≠ none := by simp [hp]
  have hentry : Spared s p o ((.attr, keyOf o.domain .attr) :: filesOf opening.detours) ↔
      Spared s p o (filesOf opening.detours) := by
    unfold Spared
    simp [hattr]
  have hopened : rvAttrOpen (opening.call p) opening.pathSet c₁ =
      if opening.pathSet then openObject .attr (opening.call p) .inside o.domain domain c₁
      else none := by
    rw [rvAttrOpen, setupAttribute, admit_of hp' hd hadmits]
    rfl
  cases hpath : opening.pathSet with
  | false =>
      refine iff_of_false ?_ fun h => by cases h.2.1
      rintro ⟨c', h, -⟩
      rw [visitAttribute, hopened, hpath] at h
      cases h
  | true =>
      simp only [true_and]
      rw [← hentry]
      cases hcompletes : opening.completes with
      | false =>
          obtain ⟨c₂, hmade, hkeeps, hleaves⟩ := @openObject_closed .attr
            (opening.call p) p _ _ _ haddr hd hopen.file hopen.counted hdetours hsome _
            (by decide) (Or.inr (Or.inr ⟨rfl, hcompletes⟩))
          refine settles_iff hopen hobjects hbefore ?_ hkeeps hleaves
          rw [visitAttribute, hopened, hpath, if_pos rfl, hmade]
          rfl
      | true =>
          obtain ⟨c₂, hmade, hobjects₂, hleaves₂⟩ := @openObject_inside .attr
            (opening.call p) p _ _ _ haddr hd hdetours hsome hcompletes
          have hda : opening.addr ≠ o.domain := @addr_ne_domain (opening.call p) _ _ _ haddr hd
          have hobject : c₂.objects opening.addr = some (newObject .attr (opening.call p) o.domain) := by
            rw [hobjects₂, objects_attach, if_neg hda]
            exact if_pos rfl
          have hcounted : c₂.objects o.domain = some domain.counted := by
            rw [hobjects₂, objects_attach, if_pos rfl]
          obtain ⟨c₃, hclosed, hobjects₃, hleaves₃⟩ := @rvClose_counted .attr
            (opening.call p) _ _ _ p (by decide) hobject hcounted hopen.file hopen.counted
          have hobjects₃ (q : Addr) : c₃.objects q =
            if q = opening.addr then none else if q = o.domain then some domain else c₂.objects q :=
              hobjects₃ q
          have hkeeps : Keeps c₁ c₃ := fun q object hq => by
            have hqa : q ≠ opening.addr := fun h => by
              rw [h, haddr] at hq
              cases hq
            rw [hobjects₃, if_neg hqa]
            by_cases hqd : q = o.domain
            · rw [if_pos hqd, ← hd, ← hqd, hq]
            · rw [if_neg hqd, hobjects₂, objects_attach, if_neg hqd]
              exact (if_neg hqa).trans hq
          refine settles_iff hopen hobjects hbefore ?_ hkeeps
            ((hleaves₂.trans hleaves₃).congr fun e => by simp; tauto)
          rw [visitAttribute, hopened, hpath, if_pos rfl, hmade]
          exact hclosed

end Others

/-! ## Copies -/

section Copies

variable {D : DefaultLists} {s : Session} {p : Addr} {o domain : RVObject}

theorem mem_of_mem_unlessDefault {default id other : Hid} (h : other ∈ unlessDefault default id) :
    other = id := by
  unfold unlessDefault at h
  split at h
  · cases h
  · exact List.mem_singleton.mp h

theorem mem_all_of_mem_givenBack {ids : Ids} {id : Hid} (h : id ∈ givenBack D ids) : id ∈ ids.all := by
  cases ids <;> simp only [givenBack, List.mem_cons, List.mem_append, List.not_mem_nil] at h <;>
    simp only [Ids.all, List.mem_cons, List.not_mem_nil, or_false] <;>
    grind [mem_of_mem_unlessDefault]

theorem mem_all_of_mem_takenByIterate {ids : Ids} {id : Hid} (h : id ∈ takenByIterate D ids) :
    id ∈ ids.all := by
  cases ids <;> simp only [takenByIterate, List.mem_cons, List.mem_append, List.not_mem_nil] at h <;>
    simp only [Ids.all, List.mem_cons, List.not_mem_nil, or_false] <;>
    grind [mem_of_mem_unlessDefault]

theorem mem_all_of_mem_takenByVisit {ids : Ids} {id : Hid} (h : id ∈ takenByVisit D ids) :
    id ∈ ids.all := by
  cases ids <;> simp only [takenByVisit, List.mem_cons, List.not_mem_nil] at h <;>
    simp only [Ids.all, List.mem_cons, List.not_mem_nil, or_false] <;>
    grind [mem_of_mem_unlessDefault]

/-- The counts of identifiers are kept when just what was taken is given back. -/
theorem refs_kept_iff {ids : List Hid} {taken given : List Hid} {refs : Hid → Nat}
    (hpos : ∀ id ∈ ids, 0 < refs id) (htaken : ∀ id ∈ taken, id ∈ ids)
    (hgiven : ∀ id ∈ given, id ∈ ids) :
    ids.map (decRefs given (incRefs taken refs)) = ids.map refs ↔ taken.Perm given := by
  rw [List.map_inj_left, List.perm_iff_count]
  constructor
  · intro h id
    by_cases hmem : id ∈ ids
    · have hkept : refs id + taken.count id - given.count id = refs id := h id hmem
      have := hpos id hmem
      omega
    · rw [List.count_eq_zero_of_not_mem fun h => hmem (htaken id h),
        List.count_eq_zero_of_not_mem fun h => hmem (hgiven id h)]
  · intro h id _
    change refs id + taken.count id - given.count id = refs id
    rw [h id]
    omega

/-- What there is to see, with other counts of the identifiers. -/
theorem view_eq_iff_and (hopen : Open s p o domain) {c : Connector} {fields : Addr → Fields}
    {refs : Hid → Nat} (hfields : fields p = s.fields p) :
    Session.view ⟨c, fields, refs⟩ p = s.view p ↔
      Session.view { s with conn := c } p = s.view p ∧
        (s.fields p).ids.all.map refs = (s.fields p).ids.all.map s.refs := by
  rw [view_eq hopen]
  unfold Session.view
  simp only [hfields]
  cases c.objects p with
  | none => simp
  | some o' =>
      simp only [Option.bind_some]
      cases c.objects o'.domain with
      | none => simp
      | some file =>
          simp only [Option.map_some, Option.some_inj, View.mk.injEq]
          tauto

variable {taken : Ids → List Hid} {fileCount : UInt32 → UInt32} {below : List Bool} {copy : Addr}
  (hopen : Open s p o domain) (hcopy : s.conn.objects copy = none)

/-- A location that is a file is its own domain. -/
theorem file_eq (hopen : Open s p o domain) (htype : o.objType = .file) : o = domain := by
  have hdomain := hopen.located
  rw [hopen.own htype, hopen.object] at hdomain
  exact Option.some.inj hdomain

include hopen hcopy in
/-- Neither the location nor its file is the memory of the copy. -/
theorem copy_ne : p ≠ copy ∧ o.domain ≠ copy := by
  refine ⟨fun h => ?_, fun h => ?_⟩
  · rw [← h, hopen.object] at hcopy
    cases hcopy
  · rw [← h, hopen.located] at hcopy
    cases hcopy

/-- The copy of a file is made with the file as it was. -/
def copiedFile (s : Session) (o : RVObject) (fileCount : UInt32 → UInt32) (copy : Addr) : Connector :=
  ((s.conn.store o.domain o.counted).store o.domain
    { o.counted with refCount := o.counted.refCount - 1 }).store copy
      { o with refCount := fileCount o.refCount }

include hopen in
theorem copiedFile_objects (htype : o.objType = .file) (q : Addr) :
    (copiedFile s o fileCount copy).objects q =
      if q = copy then some { o with refCount := fileCount o.refCount } else s.conn.objects q := by
  rw [copiedFile, counted_back, Connector.objects_store, Connector.objects_store,
    Connector.objects_store]
  split
  · rfl
  · split
    · next hq => rw [hq, hopen.located, ← file_eq hopen htype]
    · rfl

include hopen in
/-- A copy of a file that gets a handle. -/
theorem copyObject_file (htype : o.objType = .file) (hpath : o.hasPath = true) :
    copyObject D taken fileCount below copy .registered p s =
      (rvBuildObjectTable o.domain below (copiedFile s o fileCount copy)).bind fun worked =>
        (rvFileClose copy worked).map fun closed =>
          { conn := closed.1
            fields := Function.update s.fields copy (s.fields p)
            refs := decRefs (givenBack D (s.fields p).ids) (incRefs (taken (s.fields p).ids) s.refs) } := by
  have hsame := file_eq hopen htype
  rw [copyObject, hopen.object, Option.bind_some, hopen.located, Option.bind_some, ← hsame]
  simp only [htype, if_true, hpath, copiedFile, rvClose, Option.map_map]
  rfl

include hopen in
/-- A copy of another object that gets a handle. -/
theorem copyObject_other (htype : o.objType ≠ .file) (hpath : o.hasPath = true) :
    copyObject D taken fileCount below copy .registered p s =
      (rvBuildObjectTable o.domain below ((s.conn.store o.domain domain.counted).store copy
        { o with refCount := fileCount o.refCount })).bind fun worked =>
          (rvClose o.objType copy worked).map fun closed =>
            { conn := closed
              fields := Function.update s.fields copy (s.fields p)
              refs := decRefs (givenBack D (s.fields p).ids)
                (incRefs (taken (s.fields p).ids) s.refs) } := by
  rw [copyObject, hopen.object, Option.bind_some, hopen.located, Option.bind_some]
  simp only [htype, if_false, hpath, if_true]

/-- What is left to show of a copy that is closed. -/
theorem copied_iff (hopen : Open s p o domain) (hcopy : s.conn.objects copy = none)
    (htaken : ∀ ids id, id ∈ taken ids → id ∈ ids.all) {c : Connector} {f : Option Session}
    (hf : f = some { conn := c
                     fields := Function.update s.fields copy (s.fields p)
                     refs := decRefs (givenBack D (s.fields p).ids)
                      (incRefs (taken (s.fields p).ids) s.refs) }) :
    (∃ s', f = some s' ∧ s'.view p = s.view p) ↔
      Session.view { s with conn := c } p = s.view p ∧
        (taken (s.fields p).ids).Perm (givenBack D (s.fields p).ids) := by
  have hfields : Function.update s.fields copy (s.fields p) p = s.fields p :=
    Function.update_of_ne (copy_ne hopen hcopy).1 ..
  rw [← refs_kept_iff hopen.referenced (htaken _) fun id => mem_all_of_mem_givenBack,
    ← view_eq_iff_and hopen hfields, hf]
  simp

include hopen hcopy in
/-- A copy of a file that gets a handle. -/
theorem copyObject_file_iff (htaken : ∀ ids id, id ∈ taken ids → id ∈ ids.all)
    (htype : o.objType = .file) (hpath : o.hasPath = true) :
    (∃ s', copyObject D taken fileCount below copy .registered p s = some s' ∧
      s'.view p = s.view p) ↔
      (taken (s.fields p).ids).Perm (givenBack D (s.fields p).ids) ∧
        (∀ pathSet ∈ below, pathSet = true) ∧
          (fileCount o.refCount = 1 → Spared s p o [(o.objType, o.key)]) := by
  obtain ⟨hpc, hdc⟩ := copy_ne hopen hcopy
  have hsame := file_eq hopen htype
  have hobjects := @copiedFile_objects s p o domain fileCount copy hopen htype
  have hd : (copiedFile s o fileCount copy).objects o.domain = some o := by
    rw [hobjects, if_neg hdc, hopen.located, hsame]
  have hpos : o.refCount ≠ 0 := hsame ▸ hopen.counted
  rw [copyObject_file hopen htype hpath]
  by_cases hall : ∀ pathSet ∈ below, pathSet = true
  · obtain ⟨c₂, hbuild, hobjects₂, htable₂⟩ :=
      rvBuildObjectTable_of_all hd htype (Or.inl hpos) hall
    have hcopied : c₂.objects copy = some { o with refCount := fileCount o.refCount } := by
      rw [hobjects₂, hobjects, if_pos rfl]
    have hkeeps (q : Addr) (object : RVObject) (hq : s.conn.objects q = some object) :
        q ≠ copy ∧ c₂.objects q = some object := by
      have hqc : q ≠ copy := fun h => by
        rw [h, hcopy] at hq
        cases hq
      exact ⟨hqc, by rw [hobjects₂, hobjects, if_neg hqc, hq]⟩
    have hentry : c₂.table o.objType o.key = s.conn.table o.objType o.key := by
      rw [htable₂ _ _ fun h => by rw [htype] at h; cases h.1]
      rfl
    rw [hbuild, Option.bind_some, and_congr_right fun _ => and_iff_right hall]
    by_cases hlast : fileCount o.refCount = 1
    · rw [rvFileClose_of_last hcopied htype hlast, Option.map_some, copied_iff hopen hcopy htaken rfl,
        and_comm]
      refine and_congr_right fun _ => ?_
      have hkept : Keeps s.conn ((c₂.remove .file o.key).free copy) := fun q object hq => by
        obtain ⟨hqc, hq₂⟩ := hkeeps q object hq
        rw [Connector.objects_free, if_neg hqc]
        exact hq₂
      have hgone : ((c₂.remove .file o.key).free copy).table o.objType o.key = none := by
        rw [Connector.table_free, Connector.table_remove, if_pos ⟨htype, rfl⟩]
      refine (view_eq_iff_registered hopen hkept).trans ?_
      simp [hgone, hlast, Spared]
    · rw [rvFileClose_of_shared hcopied htype hlast, Option.map_some,
        copied_iff hopen hcopy htaken rfl, and_comm]
      refine and_congr_right fun _ => ?_
      have hkept : Keeps s.conn (c₂.store copy
          { o with refCount := fileCount o.refCount - 1 }) := fun q object hq => by
        obtain ⟨hqc, hq₂⟩ := hkeeps q object hq
        rw [Connector.objects_store, if_neg hqc]
        exact hq₂
      refine (view_eq_iff_registered hopen hkept).trans ?_
      rw [Connector.table_store, hentry]
      simp [hlast]
  · have hmem : false ∈ below := by
      by_contra hnone
      exact hall (all_of_not_mem hnone)
    obtain ⟨c₂, hbuild, hobjects₂, -⟩ := rvBuildObjectTable_of_mem hd htype (Or.inl hpos) hmem
    refine iff_of_false ?_ fun h => hall h.2.1
    have hcopied : c₂.objects copy = some { o with refCount := fileCount o.refCount } := by
      rw [hobjects₂, if_neg hdc.symm, hobjects, if_pos rfl]
    obtain ⟨c₃, hclose, -, hothers⟩ := rvFileClose_changes hcopied htype
    rw [hbuild, Option.bind_some, hclose, Option.map_some]
    rintro ⟨s', hs', hview⟩
    cases hs'
    refine view_ne_of_count hopen (fun file h => ?_) (fun o' h => ?_) _ _ hview
    · rw [hothers _ hdc, hobjects₂, if_pos rfl] at h
      split at h
      · cases h
      · rw [← Option.some.inj h, ← hsame]
        exact sub_one_ne o.refCount
    · rw [hothers _ hpc, hobjects₂, if_pos (hopen.own htype).symm] at h
      split at h
      · cases h
      · rw [← Option.some.inj h]

include hopen hcopy in
/-- A copy of another object that gets a handle. -/
theorem copyObject_other_iff (htaken : ∀ ids id, id ∈ taken ids → id ∈ ids.all)
    (htype : o.objType ≠ .file) (hpath : o.hasPath = true) :
    (∃ s', copyObject D taken fileCount below copy .registered p s = some s' ∧
      s'.view p = s.view p) ↔
      (taken (s.fields p).ids).Perm (givenBack D (s.fields p).ids) ∧
        (∀ pathSet ∈ below, pathSet = true) ∧ HasRoom (domain.refCount + 1) below ∧
          Spared s p o [(o.objType, o.key)] := by
  obtain ⟨hpc, hdc⟩ := copy_ne hopen hcopy
  have hpd : p ≠ o.domain := fun h => by
    have hdomain := hopen.located
    rw [← h, hopen.object] at hdomain
    exact htype (Option.some.inj hdomain ▸ hopen.file)
  set c₁ := (s.conn.store o.domain domain.counted).store copy
    { o with refCount := fileCount o.refCount } with hc₁
  have hobjects (q : Addr) : c₁.objects q =
      if q = copy then some { o with refCount := fileCount o.refCount }
      else if q = o.domain then some domain.counted else s.conn.objects q := by
    rw [hc₁, Connector.objects_store, Connector.objects_store]
  have hd : c₁.objects o.domain = some domain.counted := by
    rw [hobjects, if_neg hdc, if_pos rfl]
  obtain ⟨keeps, hkeepsClose⟩ := rvClose_of_ne htype
  rw [copyObject_other hopen htype hpath]
  by_cases hroom : HasRoom (domain.refCount + 1) below
  · by_cases hall : ∀ pathSet ∈ below, pathSet = true
    · obtain ⟨c₂, hbuild, hobjects₂, htable₂⟩ := rvBuildObjectTable_of_all hd hopen.file hroom hall
      have hcopied : c₂.objects copy = some { o with refCount := fileCount o.refCount } := by
        rw [hobjects₂, hobjects, if_pos rfl]
      have hd₂ : c₂.objects o.domain = some domain.counted := by rw [hobjects₂, hd]
      have hclosed : closeObject keeps o.objType copy c₂ =
          some (((c₂.remove o.objType o.key).store o.domain domain).free copy) := by
        rw [closeObject_of_shared keeps hcopied rfl hd₂ hopen.file (counted_ne_one hopen.counted),
          counted_back]
        rfl
      rw [hbuild, Option.bind_some, hkeepsClose, hclosed, Option.map_some,
        copied_iff hopen hcopy htaken rfl, and_comm, and_congr_right fun _ => and_iff_right hall,
        and_congr_right fun _ => and_iff_right hroom]
      refine and_congr_right fun _ => ?_
      have hkept : Keeps s.conn (((c₂.remove o.objType o.key).store o.domain domain).free copy) :=
        fun q object hq => by
          have hqc : q ≠ copy := fun h => by
            rw [h, hcopy] at hq
            cases hq
          rw [Connector.objects_free, if_neg hqc, Connector.objects_store]
          split
          · next hqd => rw [← hopen.located, ← hqd, hq]
          · next hqd =>
              rw [Connector.objects_remove, hobjects₂, hobjects, if_neg hqc, if_neg hqd, hq]
      have hgone : (((c₂.remove o.objType o.key).store o.domain domain).free copy).table
          o.objType o.key = none := by
        rw [Connector.table_free, Connector.table_store, Connector.table_remove, if_pos ⟨rfl, rfl⟩]
      refine (view_eq_iff_registered hopen hkept).trans ?_
      simp [hgone, Spared]
    · have hmem : false ∈ below := by
        by_contra hnone
        exact hall (all_of_not_mem hnone)
      obtain ⟨c₂, hbuild, hobjects₂, -⟩ := rvBuildObjectTable_of_mem hd hopen.file hroom hmem
      refine iff_of_false ?_ fun h => hall h.2.1
      have hcopied : c₂.objects copy = some { o with refCount := fileCount o.refCount } := by
        rw [hobjects₂, if_neg hdc.symm, hobjects, if_pos rfl]
      have hd₂ : c₂.objects o.domain = some domain := by
        rw [hobjects₂, if_pos rfl, if_neg (counted_ne_one hopen.counted), counted_back]
      have hp₂ : c₂.objects p = some o := by
        rw [hobjects₂, if_neg hpd, hobjects, if_neg hpc, if_neg hpd, hopen.object]
      obtain ⟨c₃, hclosed, hcount, hdomains⟩ :=
        rvClose_changes (p := p) htype hcopied rfl hd₂ hopen.file hp₂ hdc hpc
      rw [hbuild, Option.bind_some, hclosed, Option.map_some]
      rintro ⟨s', hs', hview⟩
      cases hs'
      refine view_ne_of_count hopen (fun file h => ?_) hdomains _ _ hview
      rw [hcount file h]
      exact sub_one_ne domain.refCount
  · refine iff_of_false ?_ fun h => hroom h.2.2.1
    rintro ⟨s', hs', -⟩
    obtain ⟨c₂, hbuild, hs'⟩ := Option.bind_eq_some_iff.mp hs'
    obtain ⟨hgone, hothers⟩ := rvBuildObjectTable_of_no_room hd hopen.file hroom hbuild
    have hcopied : c₂.objects copy = some { o with refCount := fileCount o.refCount } := by
      rw [hothers _ hdc.symm, hobjects, if_pos rfl]
    rw [hkeepsClose, closeObject_of_gone (t := o.objType) keeps hcopied rfl hgone] at hs'
    cases hs'

include hopen hcopy in
/-- A copy of the location. -/
theorem copyObject_iff {exit : CopyExit} {removes : Prop}
    (htaken : ∀ ids id, id ∈ taken ids → id ∈ ids.all)
    (hfile : ∀ fapl fcpl, taken (.file fapl fcpl) = [])
    (hremoves : removes ↔ (o.objType = .file → fileCount o.refCount = 1)) :
    (∃ s', copyObject D taken fileCount below copy exit p s = some s' ∧ s'.view p = s.view p) ↔
      exit.Harmless (Spared s p o) D taken removes below (s.fields p).ids o domain := by
  have hfileIds (htype : o.objType = .file) : taken (s.fields p).ids = [] := by
    have hkind := hopen.kind.trans htype
    cases hids : (s.fields p).ids with
    | file fapl fcpl => exact hfile fapl fcpl
    | group gapl gcpl => rw [hids] at hkind; cases hkind
    | dataset space dtype dcpl dapl => rw [hids] at hkind; cases hkind
    | datatype dtype tapl tcpl => rw [hids] at hkind; cases hkind
  have hchanges (fields : Addr → Fields) (refs : Hid → Nat) :
      Session.view ⟨s.conn.store o.domain domain.counted, fields, refs⟩ p ≠ s.view p := by
    refine view_ne_of_count hopen (fun file h => ?_) (fun o' h => ?_) fields refs
    · rw [Connector.objects_store, if_pos rfl] at h
      rw [← Option.some.inj h]
      exact add_one_ne domain.refCount
    · rw [Connector.objects_store] at h
      split at h
      · next hp =>
          rw [← Option.some.inj h]
          have hdomain := hopen.located
          rw [← hp, hopen.object] at hdomain
          have hsame : o = domain := Option.some.inj hdomain
          change domain.domain = o.domain
          rw [hsame]
      · rw [hopen.object] at h
        rw [Option.some.inj h]
  cases exit with
  | refused =>
      rw [copyObject, hopen.object, Option.bind_some, hopen.located]
      simp [CopyExit.Harmless]
  | during k =>
      rw [copyObject, hopen.object, Option.bind_some, hopen.located]
      simp [CopyExit.Harmless, hchanges]
  | unregistered =>
      rw [copyObject, hopen.object, Option.bind_some, hopen.located, Option.bind_some]
      simp only [CopyExit.Harmless]
      by_cases hpath : o.hasPath = true
      · by_cases htype : o.objType = .file
        · have hsettled : Session.view ⟨(s.conn.store o.domain domain.counted).store o.domain
              { domain.counted with refCount := domain.counted.refCount - 1 }, s.fields,
                incRefs [] s.refs⟩ p = s.view p := by
            rw [counted_back]
            have hkeeps : Keeps s.conn
                ((s.conn.store o.domain domain.counted).store o.domain domain) := fun q object hq => by
              rw [Connector.objects_store, Connector.objects_store]
              split
              · next hqd => rw [← hopen.located, ← hqd, hq]
              · exact hq
            have hleaves : Leaves p [] s.conn
                ((s.conn.store o.domain domain.counted).store o.domain domain) :=
              Leaves.of_table_eq rfl
            refine (view_eq_iff_and hopen rfl).mpr ⟨?_, ?_⟩
            · exact (view_eq_iff hopen hkeeps hleaves).mpr fun _ h => by cases h
            · exact List.map_congr_left fun id _ => by simp [incRefs]
          simp [hpath, htype, hfileIds htype, hsettled]
        · simp [hpath, htype, hchanges]
      · simp [hpath]
  | registered =>
      simp only [CopyExit.Harmless]
      by_cases hpath : o.hasPath = true
      · by_cases htype : o.objType = .file
        · rw [copyObject_file_iff hopen hcopy htaken htype hpath]
          simp [hpath, htype, hremoves]
        · rw [copyObject_other_iff hopen hcopy htaken htype hpath]
          simp [hpath, htype, hremoves]
      · rw [copyObject, hopen.object, Option.bind_some, hopen.located]
        simp [hpath]

end Copies

/-! ## Every query -/

section Queries

variable {D : DefaultLists} {s : Session} {p : Addr} {o domain : RVObject} {q : Query}

/-- What a query through the connector alone comes to. -/
theorem exists_session_iff {f : Option Connector} :
    (∃ s', (f.map fun conn => { s with conn }) = some s' ∧ s'.view p = s.view p) ↔
      ∃ c', f = some c' ∧ Session.view { s with conn := c' } p = s.view p := by
  cases f with
  | none => simp
  | some c => simp

/-- The groups below are looked at for a file or a group only. -/
theorem groupsBelow_eq (t : ObjType) (below : List Bool) :
    groupsBelow t below = [] ∨ openedType t = .group := by
  unfold groupsBelow openedType
  split
  · next h =>
      right
      rcases h with rfl | rfl <;> rfl
  · exact Or.inl rfl

/-- The identifiers of the group below stand for the default lists. -/
def someDefaults : DefaultLists := ⟨5, 6, 0, 0, 0, 0⟩

/-- A group in a file, both with a handle. -/
def openedGroup : Session where
  conn := (((Connector.empty.store 1 { newFile 1 with refCount := 2 }).store 2
    { domain := 1, objType := .group, hasPath := true, refCount := 0 }).insert .file
      (keyOf 1 .file) 1).insert .group (keyOf 1 .group) 2
  fields _ := { uri := [], handlePath := [], ids := .group 5 6 }
  refs _ := 1

theorem openedGroup_open : Open openedGroup 2
    { domain := 1, objType := .group, hasPath := true, refCount := 0 }
    { newFile 1 with refCount := 2 } where
  object := rfl
  kind := rfl
  located := rfl
  file := rfl
  own := fun h => by cases h
  counted := by decide
  referenced := fun _ _ => Nat.one_pos

end Queries

end XHDF5.Client.Queries
