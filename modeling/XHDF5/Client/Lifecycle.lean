/-
# What the object calls do

A call that fails gives back everything it took, up to entries of the tables that it removed on the
way; one that succeeds leaves one more object behind a handle, counted by its domain. The lemmas
follow the calls from the inside out, and `connectorStep_effect` says once what a step can do.
-/

import XHDF5.Client.Objects

namespace XHDF5.Client

open XHDF5.Math

/-! ## What the primitives do -/

namespace Connector

variable (s : Connector) (p q : Addr) (o : RVObject) (t : ObjType) (k : Key)

@[simp] theorem objects_insert : (s.insert t k p).objects = s.objects := rfl

@[simp] theorem objects_remove : (s.remove t k).objects = s.objects := rfl

@[simp] theorem handles_store : (s.store p o).handles = s.handles := rfl

@[simp] theorem handles_free : (s.free p).handles = s.handles := rfl

@[simp] theorem handles_insert : (s.insert t k p).handles = s.handles := rfl

@[simp] theorem handles_remove : (s.remove t k).handles = s.handles := rfl

@[simp] theorem table_store : (s.store p o).table = s.table := rfl

@[simp] theorem table_free : (s.free p).table = s.table := rfl

theorem objects_store (q : Addr) :
    (s.store p o).objects q = if q = p then some o else s.objects q :=
  Function.update_apply ..

theorem objects_free (q : Addr) :
    (s.free p).objects q = if q = p then none else s.objects q :=
  Function.update_apply ..

theorem table_insert (t' : ObjType) (k' : Key) :
    (s.insert t k p).table t' k' = if t' = t ∧ k' = k then some p else s.table t' k' := by
  change Function.update s.table t (Function.update (s.table t) k (some p)) t' k' = _
  rw [Function.update_apply]
  split
  · next ht =>
      subst ht
      rw [Function.update_apply]
      simp
  · next ht => rw [if_neg fun h => ht h.1]

theorem table_remove (t' : ObjType) (k' : Key) :
    (s.remove t k).table t' k' = if t' = t ∧ k' = k then none else s.table t' k' := by
  change Function.update s.table t (Function.update (s.table t) k none) t' k' = _
  rw [Function.update_apply]
  split
  · next ht =>
      subst ht
      rw [Function.update_apply]
      simp
  · next ht => rw [if_neg fun h => ht h.1]

end Connector

/-- The calls so far have given back what they took: nothing is left but that some entries, all of
given keys, are gone. -/
structure Cleared (K : ObjType → Key → Prop) (s s' : Connector) : Prop where
  objects : s'.objects = s.objects
  handles : s'.handles = s.handles
  table : ∀ t k, s'.table t k = s.table t k ∨ K t k ∧ s'.table t k = none

namespace Cleared

variable {K L : ObjType → Key → Prop} {s s' s'' : Connector}

theorem refl (s : Connector) : Cleared K s s := ⟨rfl, rfl, fun _ _ => .inl rfl⟩

theorem trans (h : Cleared K s s') (h' : Cleared K s' s'') : Cleared K s s'' where
  objects := h'.objects.trans h.objects
  handles := h'.handles.trans h.handles
  table t k := by
    cases h'.table t k with
    | inl heq => exact heq ▸ h.table t k
    | inr hgone => exact .inr hgone

theorem mono (hKL : ∀ t k, K t k → L t k) (h : Cleared K s s') : Cleared L s s' where
  objects := h.objects
  handles := h.handles
  table t k := (h.table t k).imp_right fun hgone => ⟨hKL t k hgone.1, hgone.2⟩

theorem remove {t : ObjType} {k : Key} (h : K t k) : Cleared K s (s.remove t k) where
  objects := rfl
  handles := rfl
  table t' k' := by
    rw [Connector.table_remove]
    split
    · next heq => exact .inr ⟨heq.1 ▸ heq.2 ▸ h, rfl⟩
    · exact .inl rfl

end Cleared

/-- An object is in its table, and other entries are only gone if they have given keys. -/
structure Entered (K : ObjType → Key → Prop) (t : ObjType) (k : Key) (p : Addr)
    (s s' : Connector) : Prop where
  entered : s'.table t k = some p
  touched : K t k
  others : ∀ t' k', ¬ (t' = t ∧ k' = k) →
    s'.table t' k' = s.table t' k' ∨ K t' k' ∧ s'.table t' k' = none

theorem Cleared.insert {K : ObjType → Key → Prop} {s s' : Connector} (h : Cleared K s s')
    {t : ObjType} {k : Key} (hK : K t k) (p : Addr) : Entered K t k p s (s'.insert t k p) where
  entered := by rw [Connector.table_insert, if_pos ⟨rfl, rfl⟩]
  touched := hK
  others t' k' hne := by
    rw [Connector.table_insert, if_neg hne]
    exact h.table t' k'

/-- Closing a file that is counted more than once gives one reference back. -/
theorem rvFileClose_of_shared {s : Connector} {f : Addr} {file : RVObject}
    (h : s.objects f = some file) (hfile : file.objType = .file) (hshared : file.refCount ≠ 1) :
    rvFileClose f s = some (s.store f { file with refCount := file.refCount - 1 }, true) := by
  have hcount : file.refCount - 1 ≠ 0 := fun h0 => hshared (by grind)
  rw [rvFileClose, h]
  simp [hfile, hcount]

/-- Closing a file for the last time frees it. -/
theorem rvFileClose_of_last {s : Connector} {f : Addr} {file : RVObject}
    (h : s.objects f = some file) (hfile : file.objType = .file) (hlast : file.refCount = 1) :
    rvFileClose f s = some ((s.remove .file file.key).free f, true) := by
  rw [rvFileClose, h]
  simp [hfile, hlast]

/-- A file that cannot stay open leaves no object. -/
theorem rvFileClose_store {s : Connector} {f domain : Addr} (hfresh : s.objects f = none) :
    ∃ s', rvFileClose f (s.store f { newFile f with domain }) = some (s', true) ∧
      Cleared (fun t k => t = .file ∧ k = keyOf domain .file) s s' := by
  have h : (s.store f { newFile f with domain }).objects f = some { newFile f with domain } := by
    rw [Connector.objects_store, if_pos rfl]
  refine ⟨_, rvFileClose_of_last h rfl rfl, ?_, rfl, ?_⟩
  · funext q
    rw [Connector.objects_free, Connector.objects_remove, Connector.objects_store]
    split
    · next heq => rw [heq, hfresh]
    · rfl
  · intro t k
    rw [Connector.table_free]
    exact (Cleared.remove (K := fun t k => t = .file ∧ k = keyOf domain .file)
      (s := s.store f { newFile f with domain }) ⟨rfl, rfl⟩).table t k

/-- The detour's file is gone again when the search comes back. -/
theorem detour_spec {s : Connector} {f : Addr} (hfresh : s.objects f = none) :
    ∃ s', detour s f = some s' ∧ Cleared (fun t k => t = .file ∧ k = keyOf f .file) s s' := by
  have hopened : rvFileOpen f .completed s =
      some ((s.store f (newFile f)).insert .file (newFile f).key f, true) := rfl
  have h : ((s.store f (newFile f)).insert .file (newFile f).key f).objects f =
      some (newFile f) := by
    rw [Connector.objects_insert, Connector.objects_store, if_pos rfl]
  rw [detour, hopened, Option.bind_some, rvFileClose_of_last h rfl rfl]
  refine ⟨_, rfl, ?_, rfl, ?_⟩
  · funext q
    rw [Connector.objects_free, Connector.objects_remove, Connector.objects_insert,
      Connector.objects_store]
    split
    · next heq => rw [heq, hfresh]
    · rfl
  · intro t k
    rw [Connector.table_free, Connector.table_remove, Connector.table_insert]
    split
    · next heq => exact .inr ⟨heq, rfl⟩
    · exact .inl rfl

theorem foldlM_detour_spec {fs : List Addr} {s : Connector}
    (hfresh : ∀ f ∈ fs, s.objects f = none) :
    ∃ s', fs.foldlM detour s = some s' ∧
      Cleared (fun t k => t = .file ∧ ∃ f ∈ fs, k = keyOf f .file) s s' := by
  induction fs generalizing s with
  | nil => exact ⟨s, rfl, Cleared.refl s⟩
  | cons f fs ih =>
      obtain ⟨s₁, hs₁, hcleared⟩ := detour_spec (hfresh f List.mem_cons_self)
      have hfresh' : ∀ f' ∈ fs, s₁.objects f' = none := fun f' hf' =>
        hcleared.objects ▸ hfresh f' (List.mem_cons_of_mem f hf')
      obtain ⟨s₂, hs₂, hrest⟩ := ih hfresh'
      refine ⟨s₂, ?_, ?_⟩
      · rw [List.foldlM_cons, hs₁]
        exact hs₂
      · apply @Cleared.trans _ _ s₁
        · exact hcleared.mono fun t k h => ⟨h.1, f, List.mem_cons_self, h.2⟩
        · apply hrest.mono
          rintro t k ⟨ht, f', hf', hk⟩
          exact ⟨ht, f', List.mem_cons_of_mem f hf', hk⟩
/-! ## Attaching and closing -/

section Attach

variable {K : ObjType → Key → Prop} {t : ObjType} {call : Call} {d : Addr} {domain : RVObject}
  {s s₁ : Connector}

/-- The object of a call. -/
def newObject (t : ObjType) (call : Call) (d : Addr) : RVObject where
  domain := d
  objType := t
  hasPath := call.named
  refCount := 0

/-- A file with one more reference. -/
def RVObject.counted (domain : RVObject) : RVObject :=
  { domain with refCount := domain.refCount + 1 }

theorem RVObject.toNat_counted (h : domain.refCount.toNat + 1 < 2 ^ 32) :
    domain.counted.refCount.toNat = domain.refCount.toNat + 1 := by
  change (domain.refCount + 1).toNat = _
  rw [UInt32.toNat_add]
  exact Nat.mod_eq_of_lt h

theorem objects_attach (q : Addr) :
    (attach t call d domain s).objects q =
      if q = d then some domain.counted
      else if q = call.addr then some (newObject t call d) else s.objects q := by
  rw [attach, Connector.objects_store, Connector.objects_store]
  rfl

theorem table_attach : (attach t call d domain s).table = s.table := rfl

theorem handles_attach : (attach t call d domain s).handles = s.handles := rfl

theorem rvClose_of_ne (ht : t ≠ .file) : ∃ keeps, rvClose t = closeObject keeps t := by
  cases t with
  | file => exact absurd rfl ht
  | group | datatype | dataset => exact ⟨false, rfl⟩
  | attr => exact ⟨true, rfl⟩

/-- Closing an object whose domain is counted more than once. -/
theorem closeObject_of_shared (keeps : Bool) {p : Addr} {o : RVObject} (h : s.objects p = some o)
    (ht : o.objType = t) (hd : s.objects o.domain = some domain) (hfile : domain.objType = .file)
    (hshared : domain.refCount ≠ 1) :
    closeObject keeps t p s =
      some (((s.remove t o.key).store o.domain
        { domain with refCount := domain.refCount - 1 }).free p) := by
  have hclose := rvFileClose_of_shared (s := s.remove t o.key) hd hfile hshared
  rw [closeObject, h]
  simp [ht, hclose]

/-- Closing the last reference to a domain. -/
theorem closeObject_of_last (keeps : Bool) {p : Addr} {o : RVObject} (h : s.objects p = some o)
    (ht : o.objType = t) (hd : s.objects o.domain = some domain) (hfile : domain.objType = .file)
    (hlast : domain.refCount = 1) :
    closeObject keeps t p s =
      some ((((s.remove t o.key).remove .file domain.key).free o.domain).free p) := by
  have hclose := rvFileClose_of_last (s := s.remove t o.key) hd hfile hlast
  rw [closeObject, h]
  simp [ht, hclose]

variable (hfresh : s.objects call.addr = none) (hd : s.objects d = some domain)
  (hfile : domain.objType = .file) (hpos : domain.refCount ≠ 0)

include hfresh hd in
theorem addr_ne_domain : call.addr ≠ d := fun heq => by
  rw [heq, hd] at hfresh
  cases hfresh

include hfresh hd hfile hpos in
/-- Closing the object of a call leaves its domain as it was. -/
theorem rvClose_attached (ht : t ≠ .file)
    (hobjects : s₁.objects = (attach t call d domain s).objects)
    (hhandles : s₁.handles = s.handles) (hK : K t (keyOf d t))
    (htable : ∀ t' k', ¬ (t' = t ∧ k' = keyOf d t) →
      s₁.table t' k' = s.table t' k' ∨ K t' k' ∧ s₁.table t' k' = none) :
    ∃ s₂, rvClose t call.addr s₁ = some s₂ ∧ Cleared K s s₂ := by
  have hne := addr_ne_domain hfresh hd
  have hobject : s₁.objects call.addr = some (newObject t call d) := by
    rw [hobjects, objects_attach, if_neg hne, if_pos rfl]
  have hdomain : s₁.objects d = some domain.counted := by
    rw [hobjects, objects_attach, if_pos rfl]
  have hshared : domain.counted.refCount ≠ 1 := fun h1 => hpos (by
    change domain.refCount + 1 = 1 at h1
    grind)
  obtain ⟨keeps, hclose⟩ := rvClose_of_ne ht
  rw [hclose, closeObject_of_shared keeps (t := t) hobject rfl hdomain hfile hshared]
  refine ⟨_, rfl, ?_, hhandles, ?_⟩
  · funext q
    rw [Connector.objects_free, Connector.objects_store, Connector.objects_remove, hobjects,
      objects_attach]
    have hback : { domain.counted with refCount := domain.counted.refCount - 1 } = domain := by
      cases domain
      simp [RVObject.counted]
    by_cases hq : q = call.addr
    · rw [if_pos hq, hq, hfresh]
    · by_cases hqd : q = d
      · rw [if_neg hq, hqd, hd]
        exact (if_pos rfl).trans (congrArg some hback)
      · rw [if_neg hq, if_neg hqd, if_neg hq]
        exact if_neg hqd
  · intro t' k'
    rw [Connector.table_free, Connector.table_store, Connector.table_remove]
    split
    · next heq => exact .inr ⟨heq.1 ▸ heq.2 ▸ hK, rfl⟩
    · next hne => exact htable t' k' hne

/-- What a create call comes to: the object is counted and entered, or nothing is left of it. -/
structure Created (K : ObjType → Key → Prop) (t : ObjType) (call : Call) (d : Addr)
    (domain : RVObject) (s : Connector) (result : Connector × Bool) : Prop where
  made : result.2 = true →
    result.1.objects = (attach t call d domain s).objects ∧ result.1.handles = s.handles ∧
      Entered K t (keyOf d t) call.addr s result.1
  undone : result.2 = false → Cleared K s result.1

include hfresh hd hfile hpos in
theorem finish_attached (ht : t ≠ .file) (h : Cleared K (attach t call d domain s) s₁)
    (hK : K t (keyOf d t)) (succeeds : Bool) :
    ∃ result, finish t call.addr succeeds s₁ = some result ∧ result.2 = succeeds ∧
      Created K t call d domain s result := by
  cases succeeds with
  | true =>
      have hobject : s₁.objects call.addr = some (newObject t call d) := by
        rw [h.objects, objects_attach, if_neg (addr_ne_domain hfresh hd), if_pos rfl]
      refine ⟨(s₁.insert t (keyOf d t) call.addr, true), ?_, rfl, fun _ => ?_, fun hf => ?_⟩
      · rw [finish, if_pos rfl, hobject]
        rfl
      · have hentered := h.insert hK call.addr
        exact ⟨h.objects, h.handles, hentered.entered, hentered.touched, hentered.others⟩
      · cases hf
  | false =>
      obtain ⟨s₂, hclosed, hcleared⟩ :=
        rvClose_attached hfresh hd hfile hpos ht h.objects h.handles hK fun t' k' _ => h.table t' k'
      refine ⟨(s₂, false), ?_, rfl, fun hf => ?_, fun _ => hcleared⟩
      · rw [finish, if_neg Bool.false_ne_true, hclosed]
        rfl
      · cases hf

include hfresh hd hfile hpos in
/-- A create call whose part in between gives back what it takes. -/
theorem createObject_spec (ht : t ≠ .file) (hK : K t (keyOf d t))
    (hdetours : ∀ f ∈ call.detours, s.objects f = none ∧ f ≠ call.addr)
    (hKdetours : ∀ f ∈ call.detours, K .file (keyOf f .file))
    {between : Connector → Option (Connector × Bool)}
    (hbetween : ∀ s₁, Cleared K (attach t call d domain s) s₁ →
      ∃ result, between s₁ = some result ∧ Cleared K s₁ result.1) :
    ∃ result, createObject t call d domain between s = some result ∧
      (result.2 = true → call.completes = true) ∧ Created K t call d domain s result := by
  have hfree : ∀ f ∈ call.detours, (attach t call d domain s).objects f = none := fun f hf => by
    have hfd : f ≠ d := fun heq => by
      have := (hdetours f hf).1
      rw [heq, hd] at this
      cases this
    rw [objects_attach, if_neg hfd, if_neg (hdetours f hf).2, (hdetours f hf).1]
  obtain ⟨s₁, hs₁, hcleared⟩ := foldlM_detour_spec hfree
  have hcleared' : Cleared K (attach t call d domain s) s₁ := hcleared.mono fun t' k' h => by
    obtain ⟨rfl, f, hf, rfl⟩ := h
    exact hKdetours f hf
  obtain ⟨r, hr, hr'⟩ := hbetween s₁ hcleared'
  obtain ⟨result, hresult, hsucceeds, hcreated⟩ :=
    finish_attached hfresh hd hfile hpos ht (hcleared'.trans hr') hK (r.2 && call.completes)
  refine ⟨result, ?_, fun htrue => ?_, hcreated⟩
  · rw [createObject, hs₁, Option.bind_some, hr, Option.bind_some, hresult]
  · rw [hsucceeds, Bool.and_eq_true] at htrue
    exact htrue.2

/-- A call makes its object only when its part in between succeeds. -/
theorem createObject_made {between : Connector → Option (Connector × Bool)}
    {result : Connector × Bool} (h : createObject t call d domain between s = some result)
    (hmade : result.2 = true) : ∃ s₁ r, between s₁ = some r ∧ r.2 = true := by
  obtain ⟨s₁, -, h⟩ := Option.bind_eq_some_iff.1 h
  obtain ⟨r, hr, h⟩ := Option.bind_eq_some_iff.1 h
  refine ⟨s₁, r, hr, ?_⟩
  cases hfound : r.2 with
  | true => rfl
  | false =>
      rw [hfound, Bool.false_and, finish, if_neg Bool.false_ne_true] at h
      obtain ⟨_, -, rfl⟩ := Option.map_eq_some_iff.1 h
      cases hmade

end Attach

/-! ## The calls -/

section Calls

variable {K : ObjType → Key → Prop} {t : ObjType} {call : Call} {d : Addr} {s : Connector}
  {parent domain : RVObject}

theorem admit_of_not {types : List ObjType} (hparent : s.objects call.parent = some parent)
    (h : ¬ (call.admitted = true ∧ parent.objType ∈ types))
    (rest : RVObject → RVObject → Option (Connector × Bool)) :
    admitCall types call s rest = some (s, false) := by
  have hb : (call.admitted && decide (parent.objType ∈ types)) = false := by
    rw [Bool.and_eq_false_iff, decide_eq_false_iff_not]
    by_cases hadmitted : call.admitted = true
    · exact .inr fun ht => h ⟨hadmitted, ht⟩
    · exact .inl (Bool.eq_false_of_not_eq_true hadmitted)
  rw [admitCall, hparent, Option.bind_some, hb]
  rfl

theorem admit_of {types : List ObjType} (hparent : s.objects call.parent = some parent)
    (hdomain : s.objects parent.domain = some domain)
    (h : call.admitted = true ∧ parent.objType ∈ types)
    (rest : RVObject → RVObject → Option (Connector × Bool)) :
    admitCall types call s rest = rest parent domain := by
  have hb : (call.admitted && decide (parent.objType ∈ types)) = true := by
    rw [h.1, decide_eq_true h.2]
    rfl
  rw [admitCall, hparent, Option.bind_some, if_pos hb, hdomain, Option.bind_some]

theorem Created.refl (s : Connector) : Created K t call d domain s (s, false) where
  made h := by cases h
  undone _ := Cleared.refl s

/-- Counting a new object changes no other object but for the counter. -/
theorem attach_of_some {q : Addr} {o : RVObject} (hq : s.objects q = some o)
    (hd : s.objects d = some domain) (hfresh : s.objects call.addr = none) :
    ∃ o', (attach t call d domain s).objects q = some o' ∧ o'.domain = o.domain ∧
      o'.objType = o.objType ∧ o'.hasPath = o.hasPath := by
  have hne : q ≠ call.addr := fun heq => by
    rw [heq, hfresh] at hq
    cases hq
  rw [objects_attach]
  by_cases hqd : q = d
  · have heq : o = domain := by
      rw [hqd, hd] at hq
      exact (Option.some.inj hq).symm
    rw [heq]
    exact ⟨domain.counted, if_pos hqd, rfl, rfl, rfl⟩
  · rw [if_neg hqd, if_neg hne]
    exact ⟨o, hq, rfl, rfl, rfl⟩

/-- Creating a group, whatever intermediate groups come and go. -/
theorem rvGroupCreate_spec {intermediates : List Call}
    (hparent : s.objects call.parent = some parent) (hpath : parent.hasPath = true)
    (hdomain : s.objects parent.domain = some domain) (hfile : domain.objType = .file)
    (hpos : domain.refCount ≠ 0) (hroom : domain.refCount.toNat + intermediates.length < 2 ^ 32)
    (hparents : ∀ c ∈ intermediates, c.parent = call.parent)
    (hnodup : ((call :: intermediates).map Call.addr).Nodup)
    (hfresh : ∀ c ∈ call :: intermediates, s.objects c.addr = none)
    (hdetours : ∀ c ∈ call :: intermediates, ∀ f ∈ c.detours,
      s.objects f = none ∧ f ∉ (call :: intermediates).map Call.addr)
    (hK : K .group (keyOf parent.domain .group))
    (hKdetours : ∀ c ∈ call :: intermediates, ∀ f ∈ c.detours, K .file (keyOf f .file)) :
    ∃ result, rvGroupCreate call s intermediates = some result ∧
      (result.2 = true → call.completes = true) ∧
      Created K .group call parent.domain domain s result := by
  induction intermediates generalizing call s parent domain with
  | nil =>
      rw [rvGroupCreate]
      by_cases hreach : call.admitted = true ∧ parent.objType ∈ containers
      · rw [admit_of hparent hdomain hreach, if_pos hpath]
        apply createObject_spec (hfresh call List.mem_cons_self) hdomain hfile hpos
          (by decide) hK
        · intro f hf
          have h := hdetours call List.mem_cons_self f hf
          exact ⟨h.1, fun heq => h.2 (heq ▸ List.mem_cons_self)⟩
        · exact hKdetours call List.mem_cons_self
        · exact fun s₁ _ => ⟨_, rfl, Cleared.refl s₁⟩
      · rw [admit_of_not hparent hreach]
        exact ⟨_, rfl, fun h => absurd h Bool.false_ne_true, Created.refl s⟩
  | cons intermediate rest ih =>
      rw [rvGroupCreate]
      by_cases hreach : call.admitted = true ∧ parent.objType ∈ containers
      · rw [admit_of hparent hdomain hreach, if_pos hpath]
        have haddr := hfresh call List.mem_cons_self
        apply createObject_spec haddr hdomain hfile hpos (by decide) hK
        · intro f hf
          have h := hdetours call List.mem_cons_self f hf
          exact ⟨h.1, fun heq => h.2 (heq ▸ List.mem_cons_self)⟩
        · exact hKdetours call List.mem_cons_self
        · intro s₁ hs₁
          obtain ⟨parent', hparent', hd', -, hpath'⟩ :=
            attach_of_some (t := .group) hparent hdomain haddr
          have hobjects := hs₁.objects
          have hsame : intermediate.parent = call.parent := hparents _ List.mem_cons_self
          have hkeeps : ∀ q, s.objects q = none → q ≠ call.addr → s₁.objects q = none :=
            fun q hq hqa => by
              rw [hobjects, objects_attach, if_neg (fun h => by
                rw [h, hdomain] at hq
                cases hq), if_neg hqa, hq]
          rw [List.length_cons] at hroom
          have hcounted : domain.counted.refCount.toNat = domain.refCount.toNat + 1 :=
            RVObject.toNat_counted (by omega)
          have hroom' : domain.counted.refCount.toNat + rest.length < 2 ^ 32 := by
            rw [hcounted]
            omega
          have hpos' : domain.counted.refCount ≠ 0 := fun h0 => by
            rw [h0] at hcounted
            cases hcounted
          have hnodup' := List.nodup_cons.1 hnodup
          have hfresh' : ∀ c ∈ intermediate :: rest, s₁.objects c.addr = none := fun c hc =>
            hkeeps c.addr (hfresh c (List.mem_cons_of_mem call hc)) fun heq =>
              hnodup'.1 (heq ▸ List.mem_map_of_mem hc)
          have hdomain' : s₁.objects parent'.domain = some domain.counted := by
            rw [hd', hobjects, objects_attach, if_pos rfl]
          obtain ⟨result, hresult, -, hcreated⟩ := @ih intermediate s₁ parent' domain.counted
            (by rw [hsame, hobjects, hparent']) (hpath'.trans hpath)
            hdomain' hfile hpos' hroom'
            (fun c hc => (hparents c (List.mem_cons_of_mem _ hc)).trans hsame.symm) hnodup'.2 hfresh'
            (fun c hc f hf => by
              have h := hdetours c (List.mem_cons_of_mem call hc) f hf
              have hmem := List.not_mem_of_not_mem_cons h.2
              exact ⟨hkeeps f h.1 fun heq => h.2 (heq ▸ List.mem_cons_self), hmem⟩)
            (hd' ▸ hK) (fun c hc => hKdetours c (List.mem_cons_of_mem call hc))
          rw [hresult, Option.bind_some]
          by_cases hmade : result.2 = true
          · obtain ⟨hmadeObjects, hmadeHandles, hentered⟩ := hcreated.made hmade
            obtain ⟨s₂, hclosed, hcleared⟩ := rvClose_attached (hfresh' _ List.mem_cons_self)
              hdomain' hfile hpos' (by decide) hmadeObjects hmadeHandles hentered.touched
              hentered.others
            have hclosed : rvGroupClose intermediate.addr result.1 = some s₂ := hclosed
            rw [if_pos hmade, hclosed]
            exact ⟨_, rfl, hcleared⟩
          · rw [if_neg hmade]
            exact ⟨_, rfl, hcreated.undone (Bool.eq_false_of_not_eq_true hmade)⟩
      · rw [admit_of_not hparent hreach]
        exact ⟨_, rfl, fun h => absurd h Bool.false_ne_true, Created.refl s⟩

/-- Opening an object that the search finds in the same domain, or not at all. -/
theorem openObject_spec {search : Search} (hfresh : s.objects call.addr = none)
    (hd : s.objects d = some domain) (hfile : domain.objType = .file)
    (hpos : domain.refCount ≠ 0) (ht : t ≠ .file) (hK : K t (keyOf d t))
    (hdetours : ∀ f ∈ call.detours, s.objects f = none ∧ f ≠ call.addr)
    (hKdetours : ∀ f ∈ call.detours, K .file (keyOf f .file))
    (hsearch : search = .missed ∨ search = .inside) :
    ∃ result, openObject t call search d domain s = some result ∧
      (result.2 = true → call.completes = true) ∧ Created K t call d domain s result := by
  apply createObject_spec hfresh hd hfile hpos ht hK hdetours hKdetours
  intro s₁ _
  cases hsearch with
  | inl h => exact ⟨(s₁, false), by rw [h]; rfl, Cleared.refl s₁⟩
  | inr h => exact ⟨(s₁, true), by rw [h]; rfl, Cleared.refl s₁⟩

/-- What opening an object in another domain comes to. -/
structure OpenedElsewhere (t : ObjType) (call : Call) (newDomain : Addr) (s : Connector)
    (result : Connector × Bool) : Prop where
  made : result.2 = true → ∀ q, result.1.objects q =
    if q = newDomain then some (newFile newDomain)
    else if q = call.addr then some (newObject t call newDomain) else s.objects q
  undone : result.2 = false → result.1.objects = s.objects
  handles : result.1.handles = s.handles

/-- Opening an object in another domain: the reference to the parent's domain is given back, and
the new domain goes with the object. -/
theorem openObject_external {newDomain : Addr} (hfresh : s.objects call.addr = none)
    (hd : s.objects d = some domain) (hfile : domain.objType = .file)
    (hpos : domain.refCount ≠ 0) (ht : t ≠ .file)
    (hdetours : ∀ f ∈ call.detours, s.objects f = none ∧ f ≠ call.addr)
    (hnew : s.objects newDomain = none) (hne : newDomain ≠ call.addr) :
    ∃ result, openObject t call (.external newDomain) d domain s = some result ∧
      OpenedElsewhere t call newDomain s result := by
  have haddr := addr_ne_domain hfresh hd
  have hnewd : newDomain ≠ d := fun heq => by
    rw [heq, hd] at hnew
    cases hnew
  have hfree : ∀ f ∈ call.detours, (attach t call d domain s).objects f = none := fun f hf => by
    have hfd : f ≠ d := fun heq => by
      have := (hdetours f hf).1
      rw [heq, hd] at this
      cases this
    rw [objects_attach, if_neg hfd, if_neg (hdetours f hf).2, (hdetours f hf).1]
  obtain ⟨s₁, hs₁, hcleared⟩ := foldlM_detour_spec hfree
  let s₂ := s₁.store newDomain (newFile newDomain)
  have hs₂ : ∀ q, s₂.objects q = if q = newDomain then some (newFile newDomain)
      else (attach t call d domain s).objects q := fun q => by
    rw [Connector.objects_store, hcleared.objects]
  have hdomain : s₂.objects d = some domain.counted := by
    rw [hs₂, if_neg hnewd.symm, objects_attach, if_pos rfl]
  have hshared : domain.counted.refCount ≠ 1 := fun h1 => hpos (by
    change domain.refCount + 1 = 1 at h1
    grind)
  have hback : { domain.counted with refCount := domain.counted.refCount - 1 } = domain := by
    cases domain
    simp [RVObject.counted]
  have hclose := rvFileClose_of_shared hdomain hfile hshared
  rw [hback] at hclose
  let s₃ := (s₂.store d domain).store call.addr (newObject t call newDomain)
  have hs₃ : ∀ q, s₃.objects q = if q = newDomain then some (newFile newDomain)
      else if q = call.addr then some (newObject t call newDomain) else s.objects q := fun q => by
    rw [Connector.objects_store, Connector.objects_store, hs₂, objects_attach]
    by_cases hq : q = call.addr
    · rw [if_pos hq, if_neg (fun h => hne (h.symm.trans hq)), if_pos hq]
    · by_cases hqd : q = d
      · rw [if_neg hq, if_pos hqd, if_neg (fun h => hnewd (h.symm.trans hqd)), if_neg hq, hqd, hd]
      · rw [if_neg hq, if_neg hqd, if_neg hqd, if_neg hq, if_neg hq]
  have hopen : openObject t call (.external newDomain) d domain s =
      finish t call.addr call.completes s₃ := by
    rw [openObject, createObject, hs₁, Option.bind_some, locate, hclose]
    rfl
  rw [hopen]
  have hobject : s₃.objects call.addr = some (newObject t call newDomain) := by
    rw [hs₃, if_neg hne.symm, if_pos rfl]
  cases hcompletes : call.completes with
  | true =>
      refine ⟨(s₃.insert t (keyOf newDomain t) call.addr, true), ?_, fun _ => hs₃, fun h => ?_, ?_⟩
      · rw [finish, if_pos rfl, hobject]
        rfl
      · cases h
      · exact hcleared.handles
  | false =>
      have hfile' : s₃.objects newDomain = some (newFile newDomain) := by
        rw [hs₃, if_pos rfl]
      obtain ⟨keeps, hkeeps⟩ := rvClose_of_ne ht
      rw [finish, if_neg Bool.false_ne_true, hkeeps,
        closeObject_of_last keeps (t := t) hobject rfl hfile' rfl rfl]
      refine ⟨_, rfl, fun h => ?_, fun _ => ?_, hcleared.handles⟩
      · cases h
      · funext q
        change ((((s₃.remove t _).remove .file _).free newDomain).free call.addr).objects q = _
        rw [Connector.objects_free, Connector.objects_free, Connector.objects_remove,
          Connector.objects_remove, hs₃]
        by_cases hq : q = call.addr
        · rw [if_pos hq, hq, hfresh]
        · by_cases hqn : q = newDomain
          · rw [if_neg hq, if_pos hqn, hqn, hnew]
          · rw [if_neg hq, if_neg hqn, if_neg hqn, if_neg hq]

end Calls

/-! ## What a call may find -/

/-- The domain that a search brings along. -/
def Search.newDomain? : Search → Option Addr
  | .missed | .inside => none
  | .aborted newDomain _ | .lost newDomain | .external newDomain => some newDomain

/-- The application passes a handle it holds, and memory for the object is fresh. -/
def Allocates (call : Call) (s : Connector) : Prop :=
  call.parent ∈ s.handles ∧ s.objects call.addr = none ∧
    ∀ f ∈ call.detours, s.objects f = none ∧ f ≠ call.addr

/-- The calls an application and an allocator make. -/
def Possible (s : Connector) : Event → Prop
  | .fileCreate f _ | .fileOpen f _ => s.objects f = none
  | .groupCreate call intermediates =>
      call.parent ∈ s.handles ∧ (∀ c ∈ intermediates, c.parent = call.parent) ∧
        ((call :: intermediates).map Call.addr).Nodup ∧
        ∀ c ∈ call :: intermediates, s.objects c.addr = none ∧
          ∀ f ∈ c.detours, s.objects f = none ∧ f ∉ (call :: intermediates).map Call.addr
  | .datasetCreate call | .datatypeCommit call _ | .attrCreate call _ | .attrOpen call _ =>
      Allocates call s
  | .groupOpen call search | .datasetOpen call search | .datatypeOpen call search =>
      Allocates call s ∧ ∀ newDomain, search.newDomain? = some newDomain →
        s.objects newDomain = none ∧ newDomain ≠ call.addr
  | .close p => p ∈ s.handles

/-- The checks before the allocation pass. -/
def Reaches (types : List ObjType) (call : Call) (s : Connector) : Prop :=
  call.admitted = true ∧ ∃ parent, s.objects call.parent = some parent ∧ parent.objType ∈ types

/-- The parent has a path. -/
def HasPath (call : Call) (s : Connector) : Prop :=
  ∃ parent, s.objects call.parent = some parent ∧ parent.hasPath = true

/-- The counter of the parent's domain has room for more references. -/
def CounterRoom (call : Call) (more : Nat) (s : Connector) : Prop :=
  ∀ parent domain, s.objects call.parent = some parent →
    s.objects parent.domain = some domain → domain.refCount.toNat + more < 2 ^ 32

/-- A search that does not fail while it replaces the domain. -/
def Search.Kept : Search → Prop
  | .missed | .inside | .external _ => True
  | .aborted _ _ | .lost _ => False

/-- The search is not cut short while it replaces the domain, and the counter has room. -/
def OrderlySearch (call : Call) (search : Search) (s : Connector) : Prop :=
  search.Kept ∧ (search = .inside → call.completes = true → CounterRoom call 1 s)

/-- No group is created below one without a path, nothing fails while a domain is replaced or
before the pointers that closing frees are set, and the counter has room. -/
def Orderly (s : Connector) : Event → Prop
  | .fileCreate _ _ | .fileOpen _ _ | .close _ => True
  | .groupCreate call intermediates => Reaches containers call s →
      HasPath call s ∧ CounterRoom call intermediates.length s ∧ (call.completes = true → CounterRoom call 1 s)
  | .datasetCreate call => Reaches containers call s → call.completes = true → CounterRoom call 1 s
  | .datatypeCommit call typeCopied => Reaches containers call s →
      typeCopied = true ∧ (call.completes = true → CounterRoom call 1 s)
  | .groupOpen call search =>
      Reaches containers call s → HasPath call s → OrderlySearch call search s
  | .datasetOpen call search | .datatypeOpen call search =>
      Reaches containers call s → OrderlySearch call search s
  | .attrCreate call pathSet | .attrOpen call pathSet => Reaches attributeOwners call s →
      pathSet = true ∧ (call.completes = true → CounterRoom call 1 s)

/-- The search goes to another domain. -/
def Elsewhere (s : Connector) : Event → Prop
  | .groupOpen call (.external _) => Reaches containers call s ∧ HasPath call s
  | .datasetOpen call (.external _) | .datatypeOpen call (.external _) =>
      Reaches containers call s
  | _ => False

/-- The entries that calls on objects of a type may add or remove. -/
def TouchesObject (t : ObjType) (call : Call) (calls : List Call) (s : Connector)
    (t' : ObjType) (k : Key) : Prop :=
  (t' = t ∧ ∃ parent, s.objects call.parent = some parent ∧ k = keyOf parent.domain t) ∨
    (t' = .file ∧ ∃ c ∈ calls, ∃ f ∈ c.detours, k = keyOf f .file)

/-- The entries that a file call may add or remove. -/
def TouchesFile (f : Addr) (result : FileResult) (t : ObjType) (k : Key) : Prop :=
  match result with
  | .refused => False
  | .unset garbage => t = .file ∧ k = keyOf garbage .file
  | .failed | .completed => t = .file ∧ k = keyOf f .file

/-- The entries that a create or open call may add or remove. -/
def Touches (s : Connector) : Event → ObjType → Key → Prop
  | .fileCreate f result | .fileOpen f result => TouchesFile f result
  | .groupCreate call intermediates => fun t k =>
      Reaches containers call s ∧ TouchesObject .group call (call :: intermediates) s t k
  | .datasetCreate call | .datasetOpen call _ => fun t k =>
      Reaches containers call s ∧ TouchesObject .dataset call [call] s t k
  | .datatypeCommit call _ | .datatypeOpen call _ => fun t k =>
      Reaches containers call s ∧ TouchesObject .datatype call [call] s t k
  | .groupOpen call _ => fun t k =>
      Reaches containers call s ∧ HasPath call s ∧ TouchesObject .group call [call] s t k
  | .attrCreate call _ | .attrOpen call _ => fun t k =>
      Reaches attributeOwners call s ∧ TouchesObject .attr call [call] s t k
  | .close _ => fun _ _ => False

/-! ## What a step does -/

/-- Everything a step can do. -/
inductive Effect (K : ObjType → Key → Prop) (elsewhere : Prop) (s s' : Connector) : Prop
  | undone (h : Cleared K s s')
  | made (t : ObjType) (call : Call) (d : Addr) (domain : RVObject) (ht : t ≠ .file)
      (hfresh : s.objects call.addr = none) (hd : s.objects d = some domain)
      (hfile : domain.objType = .file) (hroom : domain.refCount.toNat + 1 < 2 ^ 32)
      (objects : s'.objects = (attach t call d domain s).objects)
      (handles : s'.handles = call.addr :: s.handles)
      (entered : Entered K t (keyOf d t) call.addr s s')
  | file (f : Addr) (hfresh : s.objects f = none)
      (objects : s'.objects = (s.store f (newFile f)).objects)
      (handles : s'.handles = f :: s.handles)
      (entered : Entered K .file (keyOf f .file) f s s')
  | closed (p : Addr) (o domain : RVObject) (hp : p ∈ s.handles) (ho : s.objects p = some o)
      (hd : s.objects o.domain = some domain) (hfile : domain.objType = .file)
      (objects : ∀ q, s'.objects q =
        if q = p ∧ o.objType ≠ .file then none
        else if q = o.domain then
          if domain.refCount = 1 then none
          else some { domain with refCount := domain.refCount - 1 }
        else s.objects q)
      (handles : s'.handles = s.handles.erase p)
      (table : ∀ t k, s'.table t k =
        if (o.objType ≠ .file ∧ t = o.objType ∧ k = o.key) ∨
            (domain.refCount = 1 ∧ t = .file ∧ k = domain.key) then none
        else s.table t k)
  | madeElsewhere (helsewhere : elsewhere) (t : ObjType) (call : Call) (newDomain : Addr)
      (ht : t ≠ .file) (hfresh : s.objects call.addr = none)
      (hnew : s.objects newDomain = none) (hne : newDomain ≠ call.addr)
      (objects : ∀ q, s'.objects q =
        if q = newDomain then some (newFile newDomain)
        else if q = call.addr then some (newObject t call newDomain) else s.objects q)
      (handles : s'.handles = call.addr :: s.handles)
  | undoneElsewhere (helsewhere : elsewhere) (objects : s'.objects = s.objects)
      (handles : s'.handles = s.handles)
/-- How many handles refer to a file: its own, and those of the objects in it. -/
def references (s : Connector) (f : Addr) : Nat :=
  s.handles.countP fun p => (s.objects p).any fun o => o.domain = f

/-- The allocated objects are the ones behind the handles and their files, and every file counts
its handles. -/
structure Sound (s : Connector) : Prop where
  nodup : s.handles.Nodup
  own : ∀ f o, s.objects f = some o → o.objType = .file → o.domain = f
  handed : ∀ p o, s.objects p = some o → o.objType ≠ .file → p ∈ s.handles
  held : ∀ p ∈ s.handles, ∃ o domain, s.objects p = some o ∧
    s.objects o.domain = some domain ∧ domain.objType = .file
  counted : ∀ f file, s.objects f = some file → file.objType = .file →
    file.refCount.toNat = references s f
  referenced : ∀ f file, s.objects f = some file → file.objType = .file → 0 < references s f

namespace Sound

variable {s : Connector} {e : Event} {K : ObjType → Key → Prop} {E : Prop}

theorem refCount_ne_zero (h : Sound s) {f : Addr} {file : RVObject} (hf : s.objects f = some file)
    (hfile : file.objType = .file) : file.refCount ≠ 0 := fun h0 => by
  have hcount := h.counted f file hf hfile
  rw [h0] at hcount
  exact Nat.ne_of_gt (h.referenced f file hf hfile) hcount.symm

end Sound

section Effects

variable {s : Connector} {e : Event} {K : ObjType → Key → Prop} {E : Prop} {t : ObjType}
  {call : Call} {d : Addr} {domain : RVObject} {result : Connector × Bool}

theorem Created.effect (h : Created K t call d domain s result) (ht : t ≠ .file)
    (hfresh : s.objects call.addr = none) (hd : s.objects d = some domain)
    (hfile : domain.objType = .file)
    (hroom : result.2 = true → domain.refCount.toNat + 1 < 2 ^ 32) :
    Effect K E s (handOut call.addr result) := by
  by_cases hmade : result.2 = true
  · obtain ⟨hobjects, hhandles, hentered⟩ := h.made hmade
    rw [handOut, if_pos hmade]
    exact .made t call d domain ht hfresh hd hfile (hroom hmade) hobjects
      (congrArg (call.addr :: ·) hhandles) ⟨hentered.entered, hentered.touched, hentered.others⟩
  · rw [handOut, if_neg hmade]
    exact .undone (h.undone (Bool.eq_false_of_not_eq_true hmade))

theorem OpenedElsewhere.effect {newDomain : Addr} (h : OpenedElsewhere t call newDomain s result)
    (hE : E) (ht : t ≠ .file) (hfresh : s.objects call.addr = none)
    (hnew : s.objects newDomain = none) (hne : newDomain ≠ call.addr) :
    Effect K E s (handOut call.addr result) := by
  by_cases hmade : result.2 = true
  · rw [handOut, if_pos hmade]
    exact .madeElsewhere hE t call newDomain ht hfresh hnew hne (h.made hmade)
      (congrArg (call.addr :: ·) h.handles)
  · rw [handOut, if_neg hmade]
    exact .undoneElsewhere hE (h.undone (Bool.eq_false_of_not_eq_true hmade)) h.handles

/-- A call does nothing, or what its part behind the checks does. -/
theorem admit_effect (hs : Sound s) (hparent : call.parent ∈ s.handles) {types : List ObjType}
    {rest : RVObject → RVObject → Option (Connector × Bool)}
    (hrest : ∀ parent domain, s.objects call.parent = some parent →
      s.objects parent.domain = some domain → domain.objType = .file → domain.refCount ≠ 0 →
      Reaches types call s →
      ∃ result, rest parent domain = some result ∧ Effect K E s (handOut call.addr result)) :
    ∃ s', (admitCall types call s rest).map (handOut call.addr) = some s' ∧ Effect K E s s' := by
  obtain ⟨parent, domain, hp, hd, hfile⟩ := hs.held call.parent hparent
  by_cases hreach : call.admitted = true ∧ parent.objType ∈ types
  · obtain ⟨result, hresult, heffect⟩ :=
      hrest parent domain hp hd hfile (hs.refCount_ne_zero hd hfile) ⟨hreach.1, parent, hp, hreach.2⟩
    rw [admit_of hp hd hreach, hresult]
    exact ⟨_, rfl, heffect⟩
  · rw [admit_of_not hp hreach]
    exact ⟨_, rfl, .undone (Cleared.refl s)⟩

theorem setupFile_effect {f : Addr} (hfresh : s.objects f = none) (result : FileResult) :
    ∃ s', (setupFile f result s).map (handOut f) = some s' ∧
      Effect (TouchesFile f result) E s s' := by
  cases result with
  | refused => exact ⟨s, rfl, .undone (Cleared.refl s)⟩
  | unset garbage =>
      obtain ⟨s', hclose, hcleared⟩ := @rvFileClose_store _ _ garbage hfresh
      refine ⟨s', ?_, .undone hcleared⟩
      rw [setupFile, hclose]
      rfl
  | failed =>
      obtain ⟨s', hclose, hcleared⟩ := @rvFileClose_store _ _ f hfresh
      have hclose : rvFileClose f (s.store f (newFile f)) = some (s', true) := hclose
      refine ⟨s', ?_, .undone hcleared⟩
      rw [setupFile, hclose]
      rfl
  | completed =>
      refine ⟨_, rfl, .file f hfresh rfl rfl ?_⟩
      have h := (Cleared.refl s).insert (K := TouchesFile f .completed) ⟨rfl, rfl⟩ f
      exact ⟨h.entered, h.touched, h.others⟩

/-- Opening an object whose domain is not left behind half replaced. -/
theorem openObject_effect {search : Search} {parent : RVObject}
    (halloc : Allocates call s ∧ ∀ newDomain, search.newDomain? = some newDomain →
      s.objects newDomain = none ∧ newDomain ≠ call.addr)
    (ht : t ≠ .file) (hp : s.objects call.parent = some parent)
    (hd : s.objects parent.domain = some domain) (hfile : domain.objType = .file)
    (hpos : domain.refCount ≠ 0) (hK : K t (keyOf parent.domain t))
    (hKdetours : ∀ f ∈ call.detours, K .file (keyOf f .file))
    (horderly : OrderlySearch call search s)
    (hE : ∀ newDomain, search = .external newDomain → E) :
    ∃ result, openObject t call search parent.domain domain s = some result ∧
      Effect K E s (handOut call.addr result) := by
  obtain ⟨⟨-, hfresh, hdetours⟩, hnew⟩ := halloc
  cases search with
  | aborted | lost => exact absurd horderly.1 id
  | external newDomain =>
      obtain ⟨hnone, hne⟩ := hnew newDomain rfl
      obtain ⟨result, hresult, h⟩ :=
        openObject_external hfresh hd hfile hpos ht hdetours hnone hne
      exact ⟨result, hresult, h.effect (hE newDomain rfl) ht hfresh hnone hne⟩
  | missed =>
      obtain ⟨result, hresult, -, h⟩ :=
        openObject_spec hfresh hd hfile hpos ht hK hdetours hKdetours (.inl rfl)
      refine ⟨result, hresult, h.effect ht hfresh hd hfile fun hmade => ?_⟩
      obtain ⟨s₁, r, hr, hfound⟩ := createObject_made hresult hmade
      obtain rfl := Option.some.inj hr
      cases hfound
  | inside =>
      obtain ⟨result, hresult, hcompletes, h⟩ :=
        openObject_spec hfresh hd hfile hpos ht hK hdetours hKdetours (.inr rfl)
      exact ⟨result, hresult, h.effect ht hfresh hd hfile fun hmade =>
        horderly.2 rfl (hcompletes hmade) parent domain hp hd⟩

/-- Closing an object or a file handle gives one reference back. -/
theorem rvClose_effect (hs : Sound s) {p : Addr} (hp : p ∈ s.handles) :
    ∃ s', connectorStep s (.close p) = some s' ∧ Effect K E s s' := by
  obtain ⟨o, domain, ho, hd, hfile⟩ := hs.held p hp
  suffices h : ∃ s₁, rvClose o.objType p s = some s₁ ∧ s₁.handles = s.handles ∧
      (∀ q, s₁.objects q =
        if q = p ∧ o.objType ≠ .file then none
        else if q = o.domain then
          if domain.refCount = 1 then none
          else some { domain with refCount := domain.refCount - 1 }
        else s.objects q) ∧
      ∀ t k, s₁.table t k =
        if (o.objType ≠ .file ∧ t = o.objType ∧ k = o.key) ∨
            (domain.refCount = 1 ∧ t = .file ∧ k = domain.key) then none
        else s.table t k by
    obtain ⟨s₁, hclose, hhandles, hobjects, htable⟩ := h
    refine ⟨{ s₁ with handles := s₁.handles.erase p }, ?_, ?_⟩
    · rw [connectorStep, ho, Option.bind_some, hclose]
      rfl
    · exact .closed p o domain hp ho hd hfile hobjects (congrArg (·.erase p) hhandles) htable
  by_cases ht : o.objType = .file
  · have hself : o.domain = p := hs.own p o ho ht
    have heq : o = domain := by
      rw [hself, ho] at hd
      exact Option.some.inj hd
    subst heq
    have hrv : rvClose o.objType p s = (rvFileClose p s).map Prod.fst := by
      rw [ht]
      rfl
    by_cases hlast : o.refCount = 1
    · have hclose := rvFileClose_of_last ho ht hlast
      refine ⟨(s.remove .file o.key).free p, ?_, rfl, fun q => ?_, fun t k => ?_⟩
      · rw [hrv, hclose]
        rfl
      · rw [Connector.objects_free, Connector.objects_remove]
        simp [ht, hself, hlast]
      · rw [Connector.table_free, Connector.table_remove]
        simp [ht, hlast]
    · have hclose := rvFileClose_of_shared ho ht hlast
      refine ⟨s.store p { o with refCount := o.refCount - 1 }, ?_, rfl, fun q => ?_, fun t k => ?_⟩
      · rw [hrv, hclose]
        rfl
      · rw [Connector.objects_store]
        simp [ht, hself, hlast]
      · rw [Connector.table_store]
        simp [ht, hlast]
  · have hne : o.domain ≠ p := fun heq => ht (by
      rw [heq, ho] at hd
      rw [Option.some.inj hd, hfile])
    obtain ⟨keeps, hkeeps⟩ := rvClose_of_ne ht
    by_cases hlast : domain.refCount = 1
    · have hclose := closeObject_of_last keeps ho rfl hd hfile hlast
      refine ⟨(((s.remove o.objType o.key).remove .file domain.key).free o.domain).free p,
        (congrFun (congrFun hkeeps p) s).trans hclose, rfl, fun q => ?_, fun t k => ?_⟩
      · rw [Connector.objects_free, Connector.objects_free, Connector.objects_remove,
          Connector.objects_remove]
        simp [ht, hlast]
      · rw [Connector.table_free, Connector.table_free, Connector.table_remove,
          Connector.table_remove]
        by_cases h1 : t = .file ∧ k = domain.key
        · simp [h1, hlast]
        · simp [h1, hlast, ht]
    · have hclose := closeObject_of_shared keeps ho rfl hd hfile hlast
      refine ⟨((s.remove o.objType o.key).store o.domain
          { domain with refCount := domain.refCount - 1 }).free p,
        (congrFun (congrFun hkeeps p) s).trans hclose, rfl, fun q => ?_, fun t k => ?_⟩
      · rw [Connector.objects_free, Connector.objects_store, Connector.objects_remove]
        simp [ht, hlast]
      · rw [Connector.table_free, Connector.table_store, Connector.table_remove]
        simp [ht, hlast]

end Effects
/-- Creating an object that needs no further call. -/
theorem createObject_effect {s : Connector} {K : ObjType → Key → Prop} {E : Prop} {t : ObjType}
    {call : Call} {parent domain : RVObject} (halloc : Allocates call s) (ht : t ≠ .file)
    (hp : s.objects call.parent = some parent) (hd : s.objects parent.domain = some domain)
    (hfile : domain.objType = .file) (hpos : domain.refCount ≠ 0)
    (hK : ∀ t' k, TouchesObject t call [call] s t' k → K t' k)
    (hroom : call.completes = true → CounterRoom call 1 s) :
    ∃ result, createObject t call parent.domain domain (fun s' => some (s', true)) s =
      some result ∧ Effect K E s (handOut call.addr result) := by
  obtain ⟨-, hfresh, hdetours⟩ := halloc
  have hbetween : ∀ s₁, Cleared K (attach t call parent.domain domain s) s₁ →
      ∃ result, (fun s' : Connector => some (s', true)) s₁ = some result ∧
        Cleared K s₁ result.1 := fun s₁ _ => ⟨(s₁, true), rfl, Cleared.refl s₁⟩
  obtain ⟨result, hresult, hcompletes, h⟩ := createObject_spec hfresh hd hfile hpos ht
    (hK t _ (.inl ⟨rfl, parent, hp, rfl⟩)) hdetours
    (fun f hf => hK .file _ (.inr ⟨rfl, call, List.mem_singleton_self call, f, hf, rfl⟩)) hbetween
  exact ⟨result, hresult, h.effect ht hfresh hd hfile fun hmade =>
    hroom (hcompletes hmade) parent domain hp hd⟩

/-- What every call of an orderly run does. -/
theorem connectorStep_effect {s : Connector} {e : Event} (hs : Sound s) (hpossible : Possible s e)
    (horderly : Orderly s e) :
    ∃ s', connectorStep s e = some s' ∧ Effect (Touches s e) (Elsewhere s e) s s' := by
  cases e with
  | fileCreate f result | fileOpen f result => exact setupFile_effect hpossible result
  | close p => exact rvClose_effect hs hpossible
  | datasetCreate call =>
      apply admit_effect hs hpossible.1
      intro parent domain hp hd hfile hpos hreach
      exact createObject_effect hpossible (by decide) hp hd hfile hpos
        (fun _ _ h => ⟨hreach, h⟩) (horderly hreach)
  | datatypeCommit call typeCopied =>
      apply admit_effect hs hpossible.1
      intro parent domain hp hd hfile hpos hreach
      obtain ⟨hcopied, hroom⟩ := horderly hreach
      rw [if_pos hcopied]
      exact createObject_effect hpossible (by decide) hp hd hfile hpos
        (fun _ _ h => ⟨hreach, h⟩) hroom
  | attrCreate call pathSet | attrOpen call pathSet =>
      apply admit_effect hs hpossible.1
      intro parent domain hp hd hfile hpos hreach
      obtain ⟨hset, hroom⟩ := horderly hreach
      rw [if_pos hset]
      exact createObject_effect hpossible (by decide) hp hd hfile hpos
        (fun _ _ h => ⟨hreach, h⟩) hroom
  | datasetOpen call search | datatypeOpen call search =>
      apply admit_effect hs hpossible.1.1
      intro parent domain hp hd hfile hpos hreach
      apply openObject_effect hpossible (by decide) hp hd hfile hpos
      · exact ⟨hreach, .inl ⟨rfl, parent, hp, rfl⟩⟩
      · exact fun f hf =>
          ⟨hreach, .inr ⟨rfl, call, List.mem_singleton_self call, f, hf, rfl⟩⟩
      · exact horderly hreach
      · intro newDomain hsearch
        rw [hsearch]
        exact hreach
  | groupOpen call search =>
      apply admit_effect hs hpossible.1.1
      intro parent domain hp hd hfile hpos hreach
      by_cases hpath : parent.hasPath = true
      · have hhas : HasPath call s := ⟨parent, hp, hpath⟩
        rw [if_pos hpath]
        apply openObject_effect hpossible (by decide) hp hd hfile hpos
        · exact ⟨hreach, hhas, .inl ⟨rfl, parent, hp, rfl⟩⟩
        · exact fun f hf =>
            ⟨hreach, hhas, .inr ⟨rfl, call, List.mem_singleton_self call, f, hf, rfl⟩⟩
        · exact horderly hreach hhas
        · intro newDomain hsearch
          rw [hsearch]
          exact ⟨hreach, hhas⟩
      · rw [if_neg hpath]
        exact ⟨_, rfl, .undone (Cleared.refl s)⟩
  | groupCreate call intermediates =>
      obtain ⟨hparent, hparents, hnodup, hfresh⟩ := hpossible
      obtain ⟨parent, domain, hp, hd, hfile⟩ := hs.held call.parent hparent
      have haddr := (hfresh call List.mem_cons_self).1
      by_cases hreach : call.admitted = true ∧ parent.objType ∈ containers
      · have hreach' : Reaches containers call s := ⟨hreach.1, parent, hp, hreach.2⟩
        obtain ⟨⟨_, hp', hpath⟩, hroom, hroom₁⟩ := horderly hreach'
        obtain rfl : parent = _ := Option.some.inj (hp.symm.trans hp')
        obtain ⟨result, hresult, hcompletes, h⟩ := rvGroupCreate_spec
          (K := Touches s (.groupCreate call intermediates)) hp hpath hd hfile
          (hs.refCount_ne_zero hd hfile) (hroom parent domain hp hd) hparents hnodup
          (fun c hc => (hfresh c hc).1) (fun c hc => (hfresh c hc).2)
          ⟨hreach', .inl ⟨rfl, parent, hp, rfl⟩⟩
          (fun c hc f hf => ⟨hreach', .inr ⟨rfl, c, hc, f, hf, rfl⟩⟩)
        refine ⟨_, ?_, h.effect (by decide) haddr hd hfile fun hmade =>
          hroom₁ (hcompletes hmade) parent domain hp hd⟩
        rw [connectorStep, hresult]
        rfl
      · refine ⟨s, ?_, .undone (Cleared.refl s)⟩
        cases intermediates with
        | nil | cons =>
            rw [connectorStep, rvGroupCreate, admit_of_not hp hreach]
            rfl

end XHDF5.Client
