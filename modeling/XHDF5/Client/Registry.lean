/-
# The tables of open objects

The table of a type is meant to hold the open objects of that type. An object's key is the object
itself read as a string, so only the bytes of its domain pointer up to the first zero count: two
objects of one type in one file have one key, and every call on one of them, failed or not, takes
the entry of the other.
-/

import XHDF5.Client.RefCount

namespace XHDF5.Client

open XHDF5.Math

/-- The tables hold the open objects and nothing else, each under its own key. -/
structure Registered (s : Connector) : Prop where
  exact : ∀ t k p, s.table t k = some p → ∃ o, s.objects p = some o ∧ o.objType = t ∧ o.key = k
  found : ∀ p o, s.objects p = some o → s.table o.objType o.key = some p

/-- The call has a defined result, and the tables are faithful after it. -/
def RegistersFaithfully (s : Connector) (e : Event) : Prop :=
  ∃ s', connectorStep s e = some s' ∧ Registered s'

/-- No open object has one of the given keys. -/
def Unused (K : ObjType → Key → Prop) (s : Connector) : Prop :=
  ∀ t k, K t k → ∀ p o, s.objects p = some o → o.objType = t → o.key ≠ k

/-- The call is orderly, stays in its domain, and no open object reads as a key that it adds or
removes on the way. -/
def Apart (s : Connector) (e : Event) : Prop :=
  Orderly s e ∧ ¬ Elsewhere s e ∧ Unused (Touches s e) s

namespace Registered

variable {K : ObjType → Key → Prop} {s s' : Connector}

/-- Keys that no open object has are not in the tables. -/
theorem table_of_unused (h : Registered s) (hunused : Unused K s) {t : ObjType} {k : Key}
    (hK : K t k) : s.table t k = none := by
  cases htable : s.table t k with
  | none => rfl
  | some p =>
      obtain ⟨o, ho, ht, hk⟩ := h.exact t k p htable
      exact absurd hk (hunused t k hK p o ho ht)

theorem of_cleared (h : Registered s) (hunused : Unused K s) (hcleared : Cleared K s s') :
    Registered s' := by
  have htable : ∀ t k, s'.table t k = s.table t k := fun t k => by
    cases hcleared.table t k with
    | inl heq => exact heq
    | inr hgone => rw [hgone.2, h.table_of_unused hunused hgone.1]
  constructor
  · intro t k p hp
    rw [hcleared.objects]
    exact h.exact t k p (htable t k ▸ hp)
  · intro p o ho
    rw [htable]
    exact h.found p o (hcleared.objects ▸ ho)

/-- A new object is entered, and the others stay where they are. -/
theorem of_entered (h : Registered s) (hunused : Unused K s) {p : Addr} {o : RVObject}
    (hentered : Entered K o.objType o.key p s s') (hp : s'.objects p = some o)
    (hold : ∀ q x, s.objects q = some x → ∃ x', s'.objects q = some x' ∧
      x'.domain = x.domain ∧ x'.objType = x.objType)
    (hcases : ∀ q x', s'.objects q = some x' → q = p ∨ ∃ x, s.objects q = some x ∧
      x'.domain = x.domain ∧ x'.objType = x.objType) : Registered s' := by
  have hothers : ∀ t k, ¬ (t = o.objType ∧ k = o.key) → s'.table t k = s.table t k :=
    fun t k hne => by
      cases hentered.others t k hne with
      | inl heq => exact heq
      | inr hgone => rw [hgone.2, h.table_of_unused hunused hgone.1]
  constructor
  · intro t k q hq
    by_cases hown : t = o.objType ∧ k = o.key
    · rw [hown.1, hown.2, hentered.entered] at hq
      exact ⟨o, Option.some.inj hq ▸ hp, hown.1.symm, hown.2.symm⟩
    · rw [hothers t k hown] at hq
      obtain ⟨x, hx, ht, hk⟩ := h.exact t k q hq
      obtain ⟨x', hx', hdomain, htype⟩ := hold q x hx
      refine ⟨x', hx', htype.trans ht, ?_⟩
      rw [RVObject.key, hdomain, htype]
      exact hk
  · intro q x' hq
    rcases hcases q x' hq with rfl | ⟨x, hx, hdomain, htype⟩
    · rw [hp] at hq
      rw [← Option.some.inj hq]
      exact hentered.entered
    · have hkey : x'.key = x.key := by rw [RVObject.key, hdomain, htype, RVObject.key]
      have hne : ¬ (x.objType = o.objType ∧ x.key = o.key) := fun heq =>
        hunused _ _ hentered.touched q x hx heq.1 heq.2
      rw [hkey, htype, hothers _ _ hne]
      exact h.found q x hx

/-- What closes takes its own entries along. -/
theorem of_closed (h : Registered s) {p : Addr} {o domain : RVObject}
    (ho : s.objects p = some o) (hd : s.objects o.domain = some domain)
    (hfile : domain.objType = .file)
    (hobjects : ∀ q, s'.objects q =
      if q = p ∧ o.objType ≠ .file then none
      else if q = o.domain then
        if domain.refCount = 1 then none
        else some { domain with refCount := domain.refCount - 1 }
      else s.objects q)
    (htable : ∀ t k, s'.table t k =
      if (o.objType ≠ .file ∧ t = o.objType ∧ k = o.key) ∨
          (domain.refCount = 1 ∧ t = .file ∧ k = domain.key) then none
      else s.table t k) : Registered s' := by
  constructor
  · intro t k q hq
    rw [htable] at hq
    split at hq
    · cases hq
    next hkept =>
      obtain ⟨x, hx, ht, hk⟩ := h.exact t k q hq
      have hqp : ¬ (q = p ∧ o.objType ≠ .file) := fun heq => by
        rw [heq.1, ho] at hx
        obtain rfl := Option.some.inj hx
        exact hkept (.inl ⟨heq.2, ht.symm, hk.symm⟩)
      rw [hobjects, if_neg hqp]
      by_cases hqd : q = o.domain
      · rw [hqd, hd] at hx
        obtain rfl := Option.some.inj hx
        have hlast : domain.refCount ≠ 1 := fun h1 =>
          hkept (.inr ⟨h1, ht.symm.trans hfile, hk.symm⟩)
        rw [if_pos hqd, if_neg hlast]
        exact ⟨_, rfl, ht, hk⟩
      · rw [if_neg hqd]
        exact ⟨x, hx, ht, hk⟩
  · intro q x' hq
    rw [hobjects] at hq
    split at hq
    · cases hq
    next hqp =>
      split at hq
      next hqd =>
        split at hq
        · cases hq
        next hlast =>
          obtain rfl := Option.some.inj hq
          have hkept : ¬ ((o.objType ≠ .file ∧ domain.objType = o.objType ∧ domain.key = o.key) ∨
              (domain.refCount = 1 ∧ domain.objType = .file ∧ domain.key = domain.key)) := by
            rintro (⟨hot, heq, -⟩ | ⟨h1, -⟩)
            · exact hot (heq ▸ hfile)
            · exact hlast h1
          refine (htable domain.objType domain.key).trans ?_
          rw [if_neg hkept, hqd]
          exact h.found _ domain hd
      next hqd =>
        have hfound := h.found q x' hq
        rw [htable, if_neg]
        · exact hfound
        · rintro (⟨hot, ht, hk⟩ | ⟨-, ht, hk⟩)
          · rw [ht, hk, h.found p o ho] at hfound
            exact hqp ⟨(Option.some.inj hfound).symm, hot⟩
          · rw [ht, hk, ← hfile, h.found _ domain hd] at hfound
            exact hqd (Option.some.inj hfound).symm

theorem of_effect (h : Registered s) (hunused : Unused K s)
    (heffect : Effect K False s s') : Registered s' := by
  cases heffect with
  | undone hcleared => exact h.of_cleared hunused hcleared
  | undoneElsewhere helsewhere | madeElsewhere helsewhere => exact False.elim helsewhere
  | closed p o domain hp ho hd hfile objects _ table =>
      exact h.of_closed ho hd hfile objects table
  | made t call d domain ht hfresh hd hfile hroom objects _ entered =>
      have hne := addr_ne_domain hfresh hd
      have hobject : s'.objects call.addr = some (newObject t call d) := by
        rw [objects, objects_attach, if_neg hne, if_pos rfl]
      apply h.of_entered hunused entered hobject
      · intro q x hx
        obtain ⟨x', hx', hdomain, htype, -⟩ := attach_of_some (t := t) hx hd hfresh
        exact ⟨x', objects ▸ hx', hdomain, htype⟩
      · intro q x' hx'
        rw [objects, objects_attach] at hx'
        split at hx'
        next hqd =>
          obtain rfl := Option.some.inj hx'
          exact .inr ⟨domain, hqd ▸ hd, rfl, rfl⟩
        next =>
          split at hx'
          · exact .inl ‹_›
          · exact .inr ⟨x', hx', rfl, rfl⟩
  | file f hfresh objects _ entered =>
      have hobject : s'.objects f = some (newFile f) := by
        rw [objects, Connector.objects_store, if_pos rfl]
      apply h.of_entered hunused entered hobject
      · intro q x hx
        have hqf : q ≠ f := fun heq => by
          rw [heq, hfresh] at hx
          cases hx
        rw [objects, Connector.objects_store, if_neg hqf]
        exact ⟨x, hx, rfl, rfl⟩
      · intro q x' hx'
        rw [objects, Connector.objects_store] at hx'
        split at hx'
        · exact .inl ‹_›
        · exact .inr ⟨x', hx', rfl, rfl⟩

theorem of_empty : Registered .empty where
  exact _ _ _ h := by cases h
  found _ _ h := by cases h

end Registered

/-- A call that stays apart has a result and leaves the tables faithful. -/
theorem registered_step {s : Connector} {e : Event} (h : Sound s ∧ Registered s)
    (hpossible : Possible s e) (hapart : Apart s e) :
    ∃ s', connectorStep s e = some s' ∧ Sound s' ∧ Registered s' := by
  obtain ⟨horderly, helsewhere, hunused⟩ := hapart
  obtain ⟨s', hstep, heffect⟩ := connectorStep_effect h.1 hpossible horderly
  rw [eq_false helsewhere] at heffect
  exact ⟨s', hstep, h.1.of_effect heffect, h.2.of_effect hunused heffect⟩

theorem possible_datasetCreate {s : Connector} {parent addr : Addr} {named : Bool}
    (hparent : parent ∈ s.handles) (hfresh : s.objects addr = none) :
    Possible s (.datasetCreate (plainCall parent addr named)) :=
  ⟨hparent, hfresh, fun _ hf => absurd hf List.not_mem_nil⟩

end XHDF5.Client
