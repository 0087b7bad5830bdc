/-
# Maps that forget the least recently used key

The history of a map is the list of what happened to its keys, the newest first: values set, values
read, deletions, and evictions by the map itself. The history alone says which value a key has and
in which order the keys were used; a map keeps to it when every read gave the latest value and every
eviction took the key used least recently.

The contents of a map, the most recently used key first, show a history; the rules below change both
together.
-/

import Mathlib.Data.List.Basic
import Mathlib.Data.List.Nodup

namespace XHDF5.Math

/-- What happened to a key of a map. -/
inductive MapEvent (κ ν : Type*)
  | set (key : κ) (value : ν)
  | got (key : κ) (value : ν)
  | deleted (key : κ)
  | evicted (key : κ)

theorem nodup_middle {κ ν : Type*} {pre post : List (κ × ν)} {key : κ} {value : ν}
    (h : ((pre ++ (key, value) :: post).map Prod.fst).Nodup) :
    key ∉ (pre ++ post).map Prod.fst ∧ ((pre ++ post).map Prod.fst).Nodup := by
  rw [List.map_append, List.map_cons, List.nodup_middle, List.nodup_cons, ← List.map_append] at h
  exact h

section Histories

variable {κ ν : Type*} [DecidableEq κ] (null : ν)

/-- The value set last, when the key was neither deleted nor evicted since. -/
def latest : List (MapEvent κ ν) → κ → ν
  | [], _ => null
  | .set key value :: history, k => if key = k then value else latest history k
  | .got _ _ :: history, k => latest history k
  | .deleted key :: history, k => if key = k then null else latest history k
  | .evicted key :: history, k => if key = k then null else latest history k

/-- The keys of the map by their last use, the newest first. Setting a key uses it, and so does
reading it while it is there. -/
def recency : List (MapEvent κ ν) → List κ
  | [] => []
  | .set key _ :: history => key :: (recency history).erase key
  | .got key _ :: history =>
      if key ∈ recency history then key :: (recency history).erase key else recency history
  | .deleted key :: history => (recency history).erase key
  | .evicted key :: history => (recency history).erase key

/-- Every read gave the latest value, and every eviction took the key used least recently. -/
def KeepsLru : List (MapEvent κ ν) → Prop
  | [] => True
  | .got key value :: history => value = latest null history key ∧ KeepsLru history
  | .evicted key :: history => (recency history).getLast? = some key ∧ KeepsLru history
  | _ :: history => KeepsLru history

/-- The contents, the most recently used key first, are those that the history leaves. -/
structure Shows (history : List (MapEvent κ ν)) (contents : List (κ × ν)) : Prop where
  keepsLru : KeepsLru null history
  recency : recency history = contents.map Prod.fst
  nodup : (contents.map Prod.fst).Nodup
  latest : ∀ entry ∈ contents, latest null history entry.1 = entry.2
  absent : ∀ key, key ∉ contents.map Prod.fst → Math.latest null history key = null

variable {null} {history : List (MapEvent κ ν)} {contents pre post : List (κ × ν)} {key : κ}
  {value old : ν}

theorem shows_nil : Shows null ([] : List (MapEvent κ ν)) [] where
  keepsLru := trivial
  recency := rfl
  nodup := List.nodup_nil
  latest := by
    intro entry hentry
    cases hentry
  absent _ _ := rfl

/-- Without a key in its middle a list of keys is what `erase` leaves. -/
theorem erase_middle (h : ((pre ++ (key, value) :: post).map Prod.fst).Nodup) :
    ((pre ++ (key, value) :: post).map Prod.fst).erase key = (pre ++ post).map Prod.fst := by
  have hkey := (nodup_middle h).1
  rw [List.map_append, List.mem_append, not_or] at hkey
  rw [List.map_append, List.map_cons, List.erase_append_right _ hkey.1, List.erase_cons_head,
    List.map_append]

/-- A key that is there is read. -/
theorem Shows.got (h : Shows null history (pre ++ (key, value) :: post)) :
    Shows null (.got key value :: history) ((key, value) :: (pre ++ post)) := by
  have hmiddle := nodup_middle h.nodup
  have hmem : key ∈ Math.recency history := by
    rw [h.recency]
    simp
  refine ⟨⟨(h.latest (key, value) (by simp)).symm, h.keepsLru⟩, ?_, List.nodup_cons.mpr hmiddle, ?_,
    ?_⟩
  · rw [Math.recency, if_pos hmem, h.recency, erase_middle h.nodup, List.map_cons]
  · intro entry hentry
    apply h.latest
    rcases List.mem_cons.mp hentry with rfl | hentry
    · simp
    · exact (List.perm_middle.mem_iff).mpr (List.mem_cons_of_mem _ hentry)
  · intro k hk
    apply h.absent
    intro hold
    apply hk
    rw [List.map_append, List.map_cons, List.perm_middle.mem_iff, ← List.map_append] at hold
    exact hold

/-- A key that is not there is read. -/
theorem Shows.got_absent (h : Shows null history contents) (hkey : key ∉ contents.map Prod.fst) :
    Shows null (.got key null :: history) contents := by
  refine ⟨⟨(h.absent key hkey).symm, h.keepsLru⟩, ?_, h.nodup, h.latest, h.absent⟩
  rw [Math.recency, if_neg (by rwa [h.recency]), h.recency]

/-- A key that is there gets another value. -/
theorem Shows.set (h : Shows null history (pre ++ (key, old) :: post)) (value : ν) :
    Shows null (.set key value :: history) ((key, value) :: (pre ++ post)) := by
  have hmiddle := nodup_middle h.nodup
  refine ⟨h.keepsLru, ?_, List.nodup_cons.mpr hmiddle, ?_, ?_⟩
  · rw [Math.recency, h.recency, erase_middle h.nodup, List.map_cons]
  · intro entry hentry
    rcases List.mem_cons.mp hentry with rfl | hold
    · exact if_pos rfl
    · have hne : key ≠ entry.1 := fun heq => hmiddle.1 (heq ▸ List.mem_map_of_mem hold)
      rw [Math.latest, if_neg hne]
      apply h.latest
      exact (List.perm_middle.mem_iff).mpr (List.mem_cons_of_mem _ hold)
  · intro k hk
    rw [List.map_cons, List.mem_cons, not_or] at hk
    rw [Math.latest, if_neg (Ne.symm hk.1)]
    apply h.absent
    intro hold
    rw [List.map_append, List.map_cons, List.perm_middle.mem_iff, ← List.map_append,
      List.mem_cons] at hold
    exact hold.elim hk.1 hk.2

/-- A key that is not there gets a value. -/
theorem Shows.set_new (h : Shows null history contents) (hkey : key ∉ contents.map Prod.fst)
    (value : ν) : Shows null (.set key value :: history) ((key, value) :: contents) := by
  refine ⟨h.keepsLru, ?_, List.nodup_cons.mpr ⟨hkey, h.nodup⟩, ?_, ?_⟩
  · rw [Math.recency, h.recency, List.erase_of_not_mem hkey, List.map_cons]
  · intro entry hentry
    rcases List.mem_cons.mp hentry with rfl | hold
    · exact if_pos rfl
    · have hne : key ≠ entry.1 := fun heq => hkey (heq ▸ List.mem_map_of_mem hold)
      rw [Math.latest, if_neg hne]
      exact h.latest entry hold
  · intro k hk
    rw [List.map_cons, List.mem_cons, not_or] at hk
    rw [Math.latest, if_neg (Ne.symm hk.1)]
    exact h.absent k hk.2

/-- What a removal leaves. -/
theorem Shows.removed (h : Shows null history (pre ++ (key, value) :: post)) :
    (∀ entry ∈ pre ++ post, (if key = entry.1 then null else Math.latest null history entry.1) =
      entry.2) ∧ ∀ k, k ∉ (pre ++ post).map Prod.fst →
        (if key = k then null else Math.latest null history k) = null := by
  have hmiddle := nodup_middle h.nodup
  constructor
  · intro entry hentry
    have hne : key ≠ entry.1 := by
      rintro rfl
      exact hmiddle.1 (List.mem_map_of_mem hentry)
    rw [if_neg hne]
    apply h.latest
    exact (List.perm_middle.mem_iff).mpr (List.mem_cons_of_mem _ hentry)
  · intro k hk
    by_cases hkey : key = k
    · rw [if_pos hkey]
    · rw [if_neg hkey]
      apply h.absent
      intro hold
      rw [List.map_append, List.map_cons, List.perm_middle.mem_iff, ← List.map_append,
        List.mem_cons] at hold
      exact hold.elim (fun heq => hkey heq.symm) hk

/-- A key that is there is deleted. -/
theorem Shows.deleted (h : Shows null history (pre ++ (key, value) :: post)) :
    Shows null (.deleted key :: history) (pre ++ post) := by
  refine ⟨h.keepsLru, ?_, (nodup_middle h.nodup).2, h.removed.1, h.removed.2⟩
  rw [Math.recency, h.recency, erase_middle h.nodup]

/-- A key that is not there is deleted. -/
theorem Shows.deleted_absent (h : Shows null history contents) (hkey : key ∉ contents.map Prod.fst) :
    Shows null (.deleted key :: history) contents := by
  refine ⟨h.keepsLru, ?_, h.nodup, fun entry hentry => ?_, fun k hk => ?_⟩
  · rw [Math.recency, h.recency, List.erase_of_not_mem hkey]
  · have hne : key ≠ entry.1 := by
      rintro rfl
      exact hkey (List.mem_map_of_mem hentry)
    rw [Math.latest, if_neg hne]
    exact h.latest entry hentry
  · rw [Math.latest]
    split
    · rfl
    · exact h.absent k hk

/-- The key used least recently is evicted. -/
theorem Shows.evicted (h : Shows null history (pre ++ [(key, value)])) :
    Shows null (.evicted key :: history) pre := by
  have hremoved := h.removed
  have hnodup := (nodup_middle h.nodup).2
  have herase := erase_middle h.nodup
  rw [List.append_nil] at hremoved hnodup herase
  refine ⟨⟨?_, h.keepsLru⟩, ?_, hnodup, hremoved.1, hremoved.2⟩
  · rw [h.recency, List.map_append, List.map_singleton, List.getLast?_concat]
  · rw [Math.recency, h.recency, herase]

end Histories

end XHDF5.Math
