/-
# The reference count of a file

A file's `ref_count` is one for its own handle and one for each open object in it. A handle more is
one reference more, whichever call it comes from, and a closed one is a reference less.
-/

import Mathlib.Data.List.Count
import XHDF5.Client.Lifecycle

namespace XHDF5.Client

open XHDF5.Math

/-- Whether the object behind a handle has a given domain. -/
def refersTo (s : Connector) (f p : Addr) : Bool := (s.objects p).any fun o => o.domain = f

namespace Sound

variable {s s' : Connector} {f p : Addr} {o : RVObject}

theorem refersTo_of_some (ho : s.objects p = some o) :
    refersTo s f p = decide (o.domain = f) := by
  rw [refersTo, ho, Option.any_some]

/-- Handles whose objects keep their domains are counted as before. -/
theorem countP_congr {handles : List Addr}
    (hdomains : ∀ p ∈ handles, ∃ o o', s.objects p = some o ∧ s'.objects p = some o' ∧
      o'.domain = o.domain) :
    handles.countP (refersTo s' f) = handles.countP (refersTo s f) := by
  apply List.countP_congr
  intro p hp
  obtain ⟨o, o', ho, ho', hdomain⟩ := hdomains p hp
  rw [refersTo_of_some ho, refersTo_of_some ho', hdomain]

theorem references_eq : references s f = s.handles.countP (refersTo s f) := rfl

/-- Nothing refers to memory that is not allocated. -/
theorem references_eq_zero (hs : Sound s) (hf : s.objects f = none) : references s f = 0 := by
  rw [references_eq, List.countP_eq_zero]
  intro p hp hrefers
  obtain ⟨o, domain, ho, hd, -⟩ := hs.held p hp
  rw [refersTo_of_some ho, decide_eq_true_eq] at hrefers
  rw [hrefers, hf] at hd
  cases hd

theorem not_mem_handles (hs : Sound s) (hp : s.objects p = none) : p ∉ s.handles := fun hmem => by
  obtain ⟨_, _, ho, -⟩ := hs.held p hmem
  rw [hp] at ho
  cases ho

theorem of_eq (hs : Sound s) (hobjects : s'.objects = s.objects)
    (hhandles : s'.handles = s.handles) : Sound s' := by
  obtain ⟨objects, table, handles⟩ := s
  obtain ⟨objects', table', handles'⟩ := s'
  obtain rfl : objects' = objects := hobjects
  obtain rfl : handles' = handles := hhandles
  exact ⟨hs.nodup, hs.own, hs.handed, hs.held, hs.counted, hs.referenced⟩

/-- A handle more, whose domain counts it. -/
theorem of_added (hs : Sound s) {d : Addr} {file : RVObject} (hfresh : s.objects p = none)
    (hhandles : s'.handles = p :: s.handles) (hp : s'.objects p = some o) (hod : o.domain = d)
    (hd : s'.objects d = some file) (hfile : file.objType = .file) (hself : file.domain = d)
    (hown : o.objType = .file → p = d) (hcount : file.refCount.toNat = references s d + 1)
    (hbefore : ∀ old, s.objects d = some old → old.objType = .file)
    (hold : ∀ q, q ≠ p → q ≠ d → s'.objects q = s.objects q) : Sound s' := by
  have hkeeps : ∀ q old, s.objects q = some old → ∃ o', s'.objects q = some o' ∧
      o'.domain = old.domain ∧ o'.objType = old.objType := fun q old hq => by
    have hqp : q ≠ p := fun heq => by
      rw [heq, hfresh] at hq
      cases hq
    by_cases hqd : q = d
    · subst hqd
      have hft := hbefore old hq
      exact ⟨file, hd, hself.trans (hs.own q old hq hft).symm, hfile.trans hft.symm⟩
    · exact ⟨old, (hold q hqp hqd).trans hq, rfl, rfl⟩
  have hreferences : ∀ f, references s' f = references s f + if d = f then 1 else 0 := fun f => by
    rw [references_eq, hhandles, List.countP_cons, references_eq, refersTo_of_some hp, hod]
    congr 1
    · apply countP_congr
      intro q hq
      obtain ⟨old, -, ho, -⟩ := hs.held q hq
      obtain ⟨o', ho', hdo, -⟩ := hkeeps q old ho
      exact ⟨old, o', ho, ho', hdo⟩
    · exact if_congr decide_eq_true_iff rfl rfl
  have hcases : ∀ q x, s'.objects q = some x →
      q = d ∧ x = file ∨ q ≠ d ∧ q = p ∧ x = o ∨ q ≠ d ∧ s.objects q = some x := by
    intro q x hq
    by_cases hqd : q = d
    · rw [hqd, hd] at hq
      exact .inl ⟨hqd, (Option.some.inj hq).symm⟩
    · by_cases hqp : q = p
      · rw [hqp, hp] at hq
        exact .inr (.inl ⟨hqd, hqp, (Option.some.inj hq).symm⟩)
      · exact .inr (.inr ⟨hqd, hold q hqp hqd ▸ hq⟩)
  constructor
  · rw [hhandles]
    exact List.nodup_cons.2 ⟨hs.not_mem_handles hfresh, hs.nodup⟩
  · intro q x hq hxt
    rcases hcases q x hq with ⟨rfl, rfl⟩ | ⟨hqd, rfl, rfl⟩ | ⟨-, hq⟩
    · exact hself
    · exact absurd (hown hxt) hqd
    · exact hs.own q x hq hxt
  · intro q x hq hxt
    rw [hhandles]
    rcases hcases q x hq with ⟨-, rfl⟩ | ⟨-, rfl, -⟩ | ⟨-, hq⟩
    · exact absurd hfile hxt
    · exact List.mem_cons_self
    · exact List.mem_cons_of_mem _ (hs.handed q x hq hxt)
  · intro q hq
    rw [hhandles] at hq
    cases List.mem_cons.1 hq with
    | inl heq => exact ⟨o, file, heq ▸ hp, hod ▸ hd, hfile⟩
    | inr hmem =>
        obtain ⟨old, domain, ho, hdo, hft⟩ := hs.held q hmem
        obtain ⟨o', ho', hdomain, -⟩ := hkeeps q old ho
        obtain ⟨domain', hdo', -, hft'⟩ := hkeeps _ domain hdo
        exact ⟨o', domain', ho', hdomain ▸ hdo', hft'.trans hft⟩
  · intro q x hq hxt
    rw [hreferences]
    rcases hcases q x hq with ⟨rfl, rfl⟩ | ⟨hqd, rfl, rfl⟩ | ⟨hqd, hq⟩
    · rw [if_pos rfl, hcount]
    · exact absurd (hown hxt) hqd
    · rw [if_neg (Ne.symm hqd)]
      exact hs.counted q x hq hxt
  · intro q x hq hxt
    rw [hreferences]
    rcases hcases q x hq with ⟨rfl, rfl⟩ | ⟨hqd, rfl, rfl⟩ | ⟨-, hq⟩
    · rw [if_pos rfl]
      exact Nat.succ_pos _
    · exact absurd (hown hxt) hqd
    · exact Nat.lt_add_right _ (hs.referenced q x hq hxt)

/-- A reference that is given back, the last one with its file. -/
theorem of_closed (hs : Sound s) {o domain : RVObject} (hp : p ∈ s.handles)
    (ho : s.objects p = some o) (hd : s.objects o.domain = some domain)
    (hfile : domain.objType = .file)
    (hobjects : ∀ q, s'.objects q =
      if q = p ∧ o.objType ≠ .file then none
      else if q = o.domain then
        if domain.refCount = 1 then none
        else some { domain with refCount := domain.refCount - 1 }
      else s.objects q)
    (hhandles : s'.handles = s.handles.erase p) : Sound s' := by
  have hperm : s.handles.Perm (p :: s.handles.erase p) := List.perm_cons_erase hp
  have hnodup : p ∉ s.handles.erase p := hs.nodup.not_mem_erase
  have hmem : ∀ q ∈ s.handles.erase p, q ∈ s.handles ∧ q ≠ p := fun q hq =>
    ⟨List.mem_of_mem_erase hq, fun heq => hnodup (heq ▸ hq)⟩
  have hcount : ∀ f, references s f =
      (s.handles.erase p).countP (refersTo s f) + if o.domain = f then 1 else 0 := fun f => by
    rw [references_eq, hperm.countP_eq, List.countP_cons, refersTo_of_some ho]
    congr 1
    exact if_congr decide_eq_true_iff rfl rfl
  have hone : domain.refCount.toNat = references s o.domain := hs.counted _ domain hd hfile
  have hkeeps : ∀ q ∈ s.handles.erase p, ∃ oq o' file, s.objects q = some oq ∧
      s'.objects q = some o' ∧ o'.domain = oq.domain ∧ s'.objects oq.domain = some file ∧
        file.objType = .file := by
    intro q hq
    obtain ⟨hqmem, hqp⟩ := hmem q hq
    obtain ⟨oq, file, hoq, hfq, hft⟩ := hs.held q hqmem
    have hdp : ¬ (oq.domain = p ∧ o.objType ≠ .file) := fun h => by
      rw [h.1, ho] at hfq
      exact h.2 (Option.some.inj hfq ▸ hft)
    by_cases hlast : domain.refCount = 1
    · have hzero : (s.handles.erase p).countP (refersTo s o.domain) = 0 := by
        have h := hcount o.domain
        rw [← hone, hlast, if_pos rfl] at h
        exact (Nat.succ.inj h).symm
      have hother : oq.domain ≠ o.domain := fun heq => by
        have h := List.countP_eq_zero.1 hzero q hq
        rw [refersTo_of_some hoq, decide_eq_true_eq] at h
        exact h heq
      have hqd : q ≠ o.domain := fun heq => by
        rw [heq, hd] at hoq
        exact hother (Option.some.inj hoq ▸ hs.own _ domain hd hfile)
      refine ⟨oq, oq, file, hoq, ?_, rfl, ?_, hft⟩
      · rw [hobjects, if_neg fun h => hqp h.1, if_neg hqd, hoq]
      · rw [hobjects, if_neg hdp, if_neg hother, hfq]
    · have hlower : ∀ r x, ¬ (r = p ∧ o.objType ≠ .file) → s.objects r = some x →
          ∃ x', s'.objects r = some x' ∧ x'.domain = x.domain ∧ x'.objType = x.objType := by
        intro r x hr hx
        rw [hobjects, if_neg hr]
        by_cases hrd : r = o.domain
        · rw [if_pos hrd, if_neg hlast]
          rw [hrd, hd] at hx
          exact ⟨_, rfl, Option.some.inj hx ▸ rfl, Option.some.inj hx ▸ rfl⟩
        · rw [if_neg hrd]
          exact ⟨x, hx, rfl, rfl⟩
      obtain ⟨o', ho', hdomain, -⟩ := hlower q oq (fun h => hqp h.1) hoq
      obtain ⟨file', hfile', -, hft'⟩ := hlower _ file hdp hfq
      exact ⟨oq, o', file', hoq, ho', hdomain, hfile', hft'.trans hft⟩
  have hreferences : ∀ f, references s f = references s' f + if o.domain = f then 1 else 0 :=
    fun f => by
      rw [hcount, references_eq, hhandles]
      congr 1
      exact (countP_congr fun q hq => by
        obtain ⟨oq, o', -, hoq, ho', hdomain, -⟩ := hkeeps q hq
        exact ⟨oq, o', hoq, ho', hdomain⟩).symm
  have hcases : ∀ q x, s'.objects q = some x →
      q = o.domain ∧ domain.refCount ≠ 1 ∧ x = { domain with refCount := domain.refCount - 1 } ∨
        q ≠ o.domain ∧ q ≠ p ∧ s.objects q = some x := by
    intro q x hq
    rw [hobjects] at hq
    by_cases hqp : q = p ∧ o.objType ≠ .file
    · rw [if_pos hqp] at hq
      cases hq
    · rw [if_neg hqp] at hq
      by_cases hqd : q = o.domain
      · rw [if_pos hqd] at hq
        by_cases hlast : domain.refCount = 1
        · rw [if_pos hlast] at hq
          cases hq
        · rw [if_neg hlast] at hq
          exact .inl ⟨hqd, hlast, (Option.some.inj hq).symm⟩
      · rw [if_neg hqd] at hq
        refine .inr ⟨hqd, fun heq => hqd ?_, hq⟩
        have hot : o.objType = .file := by
          by_contra hot
          exact hqp ⟨heq, hot⟩
        exact heq.trans (hs.own p o ho hot).symm
  have hpos : domain.refCount ≠ 0 := hs.refCount_ne_zero hd hfile
  have hlowered : (domain.refCount - 1).toNat + 1 = domain.refCount.toNat := by
    have hle : 1 ≤ domain.refCount := by
      rw [UInt32.le_iff_toNat_le]
      exact Nat.one_le_iff_ne_zero.2 fun h => hpos (UInt32.toNat_inj.1 h)
    rw [UInt32.toNat_sub_of_le _ _ hle]
    exact Nat.sub_add_cancel (UInt32.le_iff_toNat_le.1 hle)
  constructor
  · rw [hhandles]
    exact hs.nodup.erase p
  · intro q x hq hxt
    rcases hcases q x hq with ⟨rfl, -, rfl⟩ | ⟨-, -, hq⟩
    · exact hs.own _ domain hd hfile
    · exact hs.own q x hq hxt
  · intro q x hq hxt
    rcases hcases q x hq with ⟨-, -, rfl⟩ | ⟨-, hqp, hq⟩
    · exact absurd hfile hxt
    · rw [hhandles]
      exact (List.mem_erase_of_ne hqp).2 (hs.handed q x hq hxt)
  · intro q hq
    rw [hhandles] at hq
    obtain ⟨oq, o', file, -, ho', hdomain, hft, hfile'⟩ := hkeeps q hq
    exact ⟨o', file, ho', hdomain ▸ hft, hfile'⟩
  · intro q x hq hxt
    rcases hcases q x hq with ⟨rfl, -, rfl⟩ | ⟨hqd, -, hq⟩
    · have h := hreferences o.domain
      rw [if_pos rfl, ← hone, ← hlowered] at h
      exact Nat.succ.inj h
    · have h := hreferences q
      rw [if_neg (Ne.symm hqd)] at h
      exact (hs.counted q x hq hxt).trans h
  · intro q x hq hxt
    rcases hcases q x hq with ⟨rfl, hlast, rfl⟩ | ⟨hqd, -, hq⟩
    · have h := hreferences o.domain
      rw [if_pos rfl, ← hone, ← hlowered] at h
      rw [← Nat.succ.inj h]
      refine Nat.pos_of_ne_zero fun h0 => hlast (UInt32.toNat_inj.1 ?_)
      rw [← hlowered, h0]
      rfl
    · have h := hreferences q
      rw [if_neg (Ne.symm hqd)] at h
      exact Nat.lt_of_lt_of_eq (hs.referenced q x hq hxt) h

/-- Every effect leaves the files counted. -/
theorem of_effect {K : ObjType → Key → Prop} {E : Prop} (hs : Sound s)
    (heffect : Effect K E s s') : Sound s' := by
  cases heffect with
  | undone h => exact hs.of_eq h.objects h.handles
  | undoneElsewhere _ objects handles => exact hs.of_eq objects handles
  | closed p o domain hp ho hd hfile objects handles _ =>
      exact hs.of_closed hp ho hd hfile objects handles
  | made t call d domain ht hfresh hd hfile hroom objects handles _ =>
      have hne := addr_ne_domain hfresh hd
      have hobject : s'.objects call.addr = some (newObject t call d) := by
        rw [objects, objects_attach, if_neg hne, if_pos rfl]
      have hdomain : s'.objects d = some domain.counted := by
        rw [objects, objects_attach, if_pos rfl]
      apply hs.of_added hfresh handles hobject (d := d) rfl hdomain hfile
        (hs.own d domain hd hfile) (fun hot => absurd hot ht)
      · rw [RVObject.toNat_counted hroom, hs.counted d domain hd hfile]
      · intro old hold
        rw [hd] at hold
        exact Option.some.inj hold ▸ hfile
      · intro q hqp hqd
        rw [objects, objects_attach, if_neg hqd, if_neg hqp]
  | file f hfresh objects handles _ =>
      have hnew : s'.objects f = some (newFile f) := by
        rw [objects, Connector.objects_store, if_pos rfl]
      apply hs.of_added hfresh handles hnew (d := f) rfl hnew rfl rfl (fun _ => rfl)
      · rw [hs.references_eq_zero hfresh]
        rfl
      · intro old hold
        rw [hfresh] at hold
        cases hold
      · intro q hqf _
        rw [objects, Connector.objects_store, if_neg hqf]
  | madeElsewhere _ t call newDomain ht hfresh hnew hne objects handles =>
      have hobject : s'.objects call.addr = some (newObject t call newDomain) := by
        rw [objects, if_neg hne.symm, if_pos rfl]
      have hdomain : s'.objects newDomain = some (newFile newDomain) := by
        rw [objects, if_pos rfl]
      apply hs.of_added hfresh handles hobject (d := newDomain) rfl hdomain rfl rfl (fun hot => absurd hot ht)
      · rw [hs.references_eq_zero hnew]
        rfl
      · intro old hold
        rw [hnew] at hold
        cases hold
      · intro q hqp hqd
        rw [objects, if_neg hqd, if_neg hqp]

end Sound

/-- One for a file's own handle. -/
def ownHandle (s : Connector) (f : Addr) : Nat := if f ∈ s.handles then 1 else 0

/-- The number of open objects whose domain a file is. -/
def openObjects (s : Connector) (f : Addr) : Nat :=
  s.handles.countP fun p => decide (p ≠ f) && refersTo s f p

/-- Every file counts its own handle and the objects in it, is gone when there is none of them, and
is there as long as something refers to it. -/
structure ExactCount (s : Connector) : Prop where
  counted : ∀ f file, s.objects f = some file → file.objType = .file →
    file.refCount.toNat = ownHandle s f + openObjects s f
  freed : ∀ f file, s.objects f = some file → file.objType = .file →
    0 < ownHandle s f + openObjects s f
  held : ∀ p ∈ s.handles, ∃ o domain, s.objects p = some o ∧
    s.objects o.domain = some domain ∧ domain.objType = .file

/-- The call has a defined result, and the files are counted exactly after it. -/
def CountsExactly (s : Connector) (e : Event) : Prop :=
  ∃ s', connectorStep s e = some s' ∧ ExactCount s'

namespace Sound

variable {s : Connector} {f : Addr} {file : RVObject}

theorem references_eq_add (hs : Sound s) (hf : s.objects f = some file)
    (hft : file.objType = .file) : references s f = ownHandle s f + openObjects s f := by
  have hself : refersTo s f f = true := by
    rw [refersTo_of_some hf, decide_eq_true_eq]
    exact hs.own f file hf hft
  have hown : (s.handles.filter (· == f)).countP (refersTo s f) = ownHandle s f := by
    rw [List.countP_filter, ownHandle, ← List.Nodup.count hs.nodup]
    apply List.countP_congr
    intro p _
    rw [Bool.and_eq_true, beq_iff_eq]
    exact ⟨fun h => h.2, fun h => ⟨h ▸ hself, h⟩⟩
  have hopen : (s.handles.filter fun p => !(p == f)).countP (refersTo s f) = openObjects s f := by
    rw [List.countP_filter, openObjects]
    apply List.countP_congr
    intro p _
    simp [and_comm]
  rw [references_eq, List.countP_eq_countP_filter_add s.handles _ (· == f), hown]
  congr 1

theorem exactCount (hs : Sound s) : ExactCount s where
  counted f file hf hft := (hs.counted f file hf hft).trans (hs.references_eq_add hf hft)
  freed f file hf hft := hs.references_eq_add hf hft ▸ hs.referenced f file hf hft
  held := hs.held

theorem of_empty : Sound .empty where
  nodup := List.nodup_nil
  own _ _ h := by cases h
  handed _ _ h := by cases h
  held _ h := absurd h List.not_mem_nil
  counted _ _ h := by cases h
  referenced _ _ h := by cases h

end Sound

/-- An orderly call has a result. -/
theorem sound_step {s : Connector} {e : Event} (hs : Sound s) (hpossible : Possible s e)
    (horderly : Orderly s e) : ∃ s', connectorStep s e = some s' ∧ Sound s' := by
  obtain ⟨s', hstep, heffect⟩ := connectorStep_effect hs hpossible horderly
  exact ⟨s', hstep, hs.of_effect heffect⟩

/-- A call without further calls that succeeds. -/
def plainCall (parent addr : Addr) (named : Bool) : Call where
  parent := parent
  addr := addr
  admitted := true
  named := named
  detours := []
  completes := true

/-- A group call without further calls asks for little. -/
theorem possible_plainCall {s : Connector} {parent addr : Addr} (named : Bool)
    (hparent : parent ∈ s.handles) (hfresh : s.objects addr = none) :
    Possible s (.groupCreate (plainCall parent addr named) []) := by
  refine ⟨hparent, fun c hc => absurd hc List.not_mem_nil, ?_, fun c hc => ?_⟩
  · exact List.nodup_cons.2 ⟨List.not_mem_nil, List.nodup_nil⟩
  · obtain rfl := List.mem_singleton.1 hc
    exact ⟨hfresh, fun f hf => absurd hf List.not_mem_nil⟩

theorem counterRoom_newFile {s : Connector} {f addr : Addr} {named : Bool} {more : Nat}
    (hf : s.objects f = some (newFile f)) (hmore : 1 + more < 2 ^ 32) :
    CounterRoom (plainCall f addr named) more s := fun parent domain hp hd => by
  obtain rfl := Option.some.inj (hf.symm.trans hp)
  obtain rfl := Option.some.inj (hf.symm.trans hd)
  exact hmore

end XHDF5.Client
