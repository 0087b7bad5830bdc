/-
# What the functions of the read cache do

In memory the cache is a list of items. Each function of the cache has a defined result on such a
cache, when the numbers fit its counters, and leaves the list with an item moved, added or removed.
The evictions take items from the end of the list and stop at the first list that fits.
-/

import Mathlib.Algebra.BigOperators.Group.List.Basic
import XHDF5.Client.ReadCache

namespace XHDF5.Client

open XHDF5.Math LinkedList

/-! ## The cache in memory -/

/-- The keys and values of items. -/
def contents (cells : List (Nat × CacheEntry)) : List (Text × Addr) :=
  cells.map fun cell => (cell.2.key, cell.2.data)

/-- The values of items that are not NULL. -/
def values (cells : List (Nat × CacheEntry)) : List Addr :=
  (cells.map fun cell => cell.2.data).filter (· ≠ 0)

/-- The sum of the data sizes of items. -/
def sizes (cells : List (Nat × CacheEntry)) : Nat := (cells.map fun cell => cell.2.size).sum

/-- The cache consists of the items, and its counters count them. -/
structure Cache.Holds (c : Cache) (cells : List (Nat × CacheEntry)) : Prop where
  list : c.list.Represents cells
  keys : (cells.map fun cell => cell.2.key).Nodup
  items : c.items = cells.length
  size : c.size = cells.length
  counted : cells.length < 2 ^ 31
  totalSize : c.totalSize = sizes cells
  summed : sizes cells < 2 ^ 64
  freed : (values cells ++ c.freed).Nodup

@[simp]
theorem contents_append (xs ys : List (Nat × CacheEntry)) :
    contents (xs ++ ys) = contents xs ++ contents ys := List.map_append

@[simp]
theorem contents_cons (cell : Nat × CacheEntry) (cells : List (Nat × CacheEntry)) :
    contents (cell :: cells) = (cell.2.key, cell.2.data) :: contents cells := rfl

theorem keys_contents (cells : List (Nat × CacheEntry)) :
    (contents cells).map Prod.fst = cells.map fun cell => cell.2.key := by
  rw [contents, List.map_map]
  rfl

theorem sizes_middle (pre post : List (Nat × CacheEntry)) (cell : Nat × CacheEntry) :
    sizes (pre ++ cell :: post) = cell.2.size + sizes (pre ++ post) := by
  simp only [sizes, List.map_append, List.map_cons, List.sum_append, List.sum_cons]
  omega

theorem values_cons_perm (pre post : List (Nat × CacheEntry)) (cell : Nat × CacheEntry) :
    (values (pre ++ cell :: post)).Perm (values (cell :: (pre ++ post))) :=
  ((List.perm_middle).map _).filter _

theorem values_sublist (cell : Nat × CacheEntry) (cells : List (Nat × CacheEntry)) :
    (values cells).Sublist (values (cell :: cells)) :=
  ((List.sublist_cons_self cell cells).map _).filter _

theorem values_cons (cell : Nat × CacheEntry) (cells : List (Nat × CacheEntry)) :
    values (cell :: cells) =
      if cell.2.data = 0 then values cells else cell.2.data :: values cells := by
  rw [values, List.map_cons, List.filter_cons]
  split
  · next h =>
      rw [if_neg (by simpa using h)]
      rfl
  · next h =>
      rw [if_pos (by simpa using h)]
      rfl

/-! ## Single functions -/

section Functions

variable {c : Cache} {l : LinkedList CacheEntry} {cells pre post : List (Nat × CacheEntry)}
  {a : Nat} {e : CacheEntry} {key : Text}

theorem findItem_none (mem : Nat → Option (Node CacheEntry)) (key : Text) (rounds : Nat) :
    findItem mem key rounds none = some none := by
  cases rounds <;> rfl

/-- The search passes over other keys. -/
theorem findItem_append {mem : Nat → Option (Node CacheEntry)} {prev next : Option Nat}
    (h : Segment mem prev pre next) (hkey : ∀ cell ∈ pre, cell.2.key ≠ key) (rounds : Nat) :
    findItem mem key (pre.length + rounds) (firstOr pre next) = findItem mem key rounds next := by
  induction pre generalizing prev with
  | nil => rw [List.length_nil, Nat.zero_add, firstOr_nil]
  | cons cell pre ih =>
      have hne := hkey cell (by simp)
      rw [List.length_cons, Nat.add_right_comm, firstOr_cons, findItem, h.1, Option.bind_some,
        if_neg hne]
      exact ih h.2 fun other hother => hkey other (by simp [hother])

theorem Cache.Holds.find (h : c.Holds (pre ++ (a, e) :: post)) : c.find e.key = some (some a) := by
  obtain ⟨hpre, ha, -⟩ := segment_append.mp h.list.segment
  have hkeys := h.keys
  rw [List.map_append, List.map_cons, List.nodup_append] at hkeys
  have hitems : c.items = pre.length + (post.length + 1) := by
    rw [h.items, List.length_append, List.length_cons]
  have hfind := @findItem_append _ e.key _ _ _ hpre (fun cell hcell heq =>
    hkeys.2.2 _ (List.mem_map_of_mem hcell) e.key (by simp) heq)
    (post.length + 1)
  rw [Cache.find, h.list.head, firstOr_append, hitems, hfind, firstOr_cons, findItem, ha,
    Option.bind_some, if_pos rfl]

theorem Cache.Holds.find_absent (h : c.Holds cells) (hkey : ∀ cell ∈ cells, cell.2.key ≠ key) :
    c.find key = some none := by
  have hfind := findItem_append h.list.segment hkey 0
  rw [Nat.add_zero, findItem_none] at hfind
  rw [Cache.find, h.list.head, h.items, hfind]

/-- A node of a list is its last one when none come behind it. -/
theorem lastOr_mem (cell : Nat × CacheEntry) (cells : List (Nat × CacheEntry))
    (h : lastOr (some cell.1) cells = some a) : a ∈ (cell :: cells).map Prod.fst := by
  induction cells generalizing cell with
  | nil =>
      rw [← Option.some.inj h]
      simp
  | cons next cells ih => exact List.mem_cons_of_mem _ (ih next h)

theorem tail_without (h : l.Represents (pre ++ (a, e) :: post)) :
    (if l.tail = some a then lastOr none pre else l.tail) = lastOr none (pre ++ post) := by
  have hnodup := nodup_middle h.nodup
  rw [h.tail, lastOr_append, lastOr_append, lastOr_cons]
  cases post with
  | nil => rw [lastOr_nil, if_pos rfl, lastOr_nil]
  | cons second post =>
      rw [if_neg]
      · rfl
      · intro heq
        apply hnodup.1
        rw [List.map_append]
        exact List.mem_append_right _ (lastOr_mem second post heq)

/-- A node of a list becomes its first one. -/
theorem moveToHead_spec (h : l.Represents (pre ++ (a, e) :: post)) :
    ∃ l', moveToHead l a = some l' ∧ l'.Represents ((a, e) :: (pre ++ post)) := by
  cases pre with
  | nil => exact ⟨l, if_pos h.head, h⟩
  | cons first pre =>
      have hnodup := nodup_middle h.nodup
      have hfirst : l.head ≠ some a := by
        rw [h.head, List.cons_append, firstOr_cons]
        intro heq
        apply hnodup.1
        rw [← Option.some.inj heq]
        simp
      obtain ⟨mem, hdetach, hsegment, ha⟩ := detach_spec h.segment h.nodup
      have htail := tail_without h
      have hdetached : Represents
          (if l.tail = some a then (⟨mem, l.head, lastOr none (first :: pre)⟩ : LinkedList CacheEntry)
            else ⟨mem, l.head, l.tail⟩) (first :: pre ++ post) := by
        have heq : (if l.tail = some a then
            (⟨mem, l.head, lastOr none (first :: pre)⟩ : LinkedList CacheEntry)
              else ⟨mem, l.head, l.tail⟩) = ⟨mem, l.head,
                if l.tail = some a then lastOr none (first :: pre) else l.tail⟩ := by
          split <;> rfl
        rw [heq]
        exact ⟨hsegment, h.head, htail, hnodup.2⟩
      have hmem : (if l.tail = some a then
          (⟨mem, l.head, lastOr none (first :: pre)⟩ : LinkedList CacheEntry)
            else ⟨mem, l.head, l.tail⟩).mem a =
              some ⟨e, lastOr none (first :: pre), firstOr post none⟩ := by
        split <;> exact ha
      obtain ⟨l', hpush, hresult⟩ := pushFront_spec hdetached hmem hnodup.1
      refine ⟨l', ?_, hresult⟩
      rw [moveToHead, if_neg hfirst, hdetach, Option.bind_some]
      simp only [ha, Option.bind_some]
      exact hpush

/-- The value of an item that is freed was not freed before. -/
theorem freeData_spec {old : List Addr} (h : (values (pre ++ (a, e) :: post) ++ old).Nodup) :
    ∃ freed : List Addr, (∀ (list : LinkedList CacheEntry) (capacity size : Int) (totalSize items : Nat),
      Cache.freeData ⟨list, capacity, size, totalSize, items, old⟩ e.data =
        some ⟨list, capacity, size, totalSize, items, freed⟩) ∧
      (values (pre ++ post) ++ freed).Nodup ∧
        ∀ d ∈ values (pre ++ post) ++ freed, d ∈ values (pre ++ (a, e) :: post) ++ old := by
  have hperm := (values_cons_perm pre post (a, e)).append_right old
  have hnodup := hperm.nodup_iff.mp h
  rw [values_cons] at hperm hnodup
  by_cases hzero : e.data = 0
  · rw [if_pos hzero] at hperm hnodup
    exact ⟨old, fun _ _ _ _ _ => if_pos hzero, hnodup, fun d hd => hperm.mem_iff.mpr hd⟩
  · rw [if_neg hzero, List.cons_append] at hperm hnodup
    have hmiddle : (values (pre ++ post) ++ e.data :: old).Perm
        (e.data :: (values (pre ++ post) ++ old)) := List.perm_middle
    refine ⟨e.data :: old, fun _ _ _ _ _ => ?_, hmiddle.nodup_iff.mpr hnodup,
      fun d hd => hperm.mem_iff.mpr (hmiddle.mem_iff.mp hd)⟩
    rw [Cache.freeData, if_neg hzero, if_neg]
    rw [List.nodup_cons, List.mem_append, not_or] at hnodup
    exact hnodup.1.2

end Functions

/-! ## Removing and adding items -/

section Items

variable {c : Cache} {cells pre post : List (Nat × CacheEntry)} {a : Nat} {e : CacheEntry}

/-- An item is taken out of the list, its value is freed, and the counters follow. -/
theorem Cache.Holds.remove (h : c.Holds (pre ++ (a, e) :: post)) {l : LinkedList CacheEntry}
    (hl : l.Represents (pre ++ post)) {freed : List Addr}
    (hfreed : (values (pre ++ post) ++ freed).Nodup) :
    ∃ size, cint (c.size - 1) = some size ∧
      Cache.Holds ⟨l.free a, c.capacity, size, wrap64 (c.totalSize + 2 ^ 64 - e.size), c.items - 1,
        freed⟩ (pre ++ post) := by
  have hlength : (pre ++ (a, e) :: post).length = (pre ++ post).length + 1 := by
    simp only [List.length_append, List.length_cons]
    omega
  have hsize := h.size
  have hcounted := h.counted
  have htotal := h.totalSize
  have hsummed := h.summed
  have hitems := h.items
  rw [sizes_middle] at htotal hsummed
  simp only at htotal hsummed
  rw [hlength] at hsize hcounted hitems
  refine ⟨((pre ++ post).length : Int), ?_, ?_⟩
  · rw [cint_eq_some_iff]
    omega
  · have ha := (nodup_middle h.list.nodup).1
    have hkeys := h.keys
    rw [List.map_append, List.map_cons, List.nodup_middle, List.nodup_cons, ← List.map_append]
      at hkeys
    refine ⟨⟨hl.segment.update ha none, hl.head, hl.tail, hl.nodup⟩, hkeys.2, ?_, rfl, by omega, ?_,
      by omega, hfreed⟩
    · simp only [hitems, Nat.add_sub_cancel]
    · simp only [wrap64, htotal]
      omega

/-- `cache_evict` takes the last item. -/
theorem cacheEvict_spec (h : c.Holds (pre ++ [(a, e)])) :
    ∃ c', cacheEvict c = some (c', [e.key]) ∧ c'.Holds pre ∧ c'.capacity = c.capacity ∧
      ∀ d ∈ values pre ++ c'.freed, d ∈ values (pre ++ [(a, e)]) ++ c.freed := by
  obtain ⟨hpre, ha, -⟩ := segment_append.mp h.list.segment
  have hnodup := nodup_middle h.list.nodup
  rw [List.append_nil] at hnodup
  have htail : c.list.tail = some a := by
    rw [h.list.tail, lastOr_append]
    rfl
  obtain ⟨mem, hmem, hsegment, -⟩ := setNext_spec hpre hnodup.2 none
  have hhead : (if c.list.head = some a then none else c.list.head) = firstOr pre none := by
    rw [h.list.head, firstOr_append]
    cases pre with
    | nil => exact if_pos rfl
    | cons first pre =>
        rw [firstOr_cons, if_neg]
        · rfl
        · intro heq
          apply hnodup.1
          rw [← Option.some.inj heq]
          simp
  obtain ⟨freed, hfree, hfreed, hsub⟩ := freeData_spec h.freed
  have hlist : Represents ⟨mem, firstOr pre none, lastOr none pre⟩ (pre ++ []) := by
    rw [List.append_nil]
    exact ⟨hsegment, rfl, rfl, hnodup.2⟩
  obtain ⟨size, hsize, hholds⟩ := h.remove hlist hfreed
  rw [List.append_nil] at hholds hsub
  refine ⟨_, ?_, hholds, rfl, hsub⟩
  have hl : (if c.list.head = some a then
      (⟨mem, none, lastOr none pre⟩ : LinkedList CacheEntry) else ⟨mem, c.list.head, lastOr none pre⟩) =
        ⟨mem, firstOr pre none, lastOr none pre⟩ := by
    rw [← hhead]
    split <;> rfl
  rw [cacheEvict, htail]
  simp only [ha, Option.bind_some, hmem, hl, hfree, hsize, Option.map_some, Cache.freeItem]

/-- The evictions take the last items until the others fit, and no more than that. -/
theorem evictLoop_spec {rounds : Nat} (h : c.Holds cells) (hrounds : cells.length ≤ rounds) :
    ∃ c' kept dropped, cells = kept ++ dropped ∧
      evictLoop rounds c = some (c', dropped.map fun cell => cell.2.key) ∧ c'.Holds kept ∧
        c'.capacity = c.capacity ∧ sizes kept ≤ toSize c.capacity ∧
          (∀ more, more <+: cells → sizes more ≤ toSize c.capacity → more <+: kept) ∧
            ∀ d ∈ values kept ++ c'.freed, d ∈ values cells ++ c.freed := by
  induction rounds generalizing c cells with
  | zero =>
      have hnil := List.eq_nil_of_length_eq_zero (Nat.le_zero.mp hrounds)
      have hfits : ¬ toSize c.capacity < c.totalSize := by
        rw [h.totalSize, hnil]
        exact Nat.not_lt_zero _
      refine ⟨c, cells, [], (List.append_nil _).symm, if_neg hfits, h, rfl, ?_, fun _ hmore _ => hmore,
        fun d hd => hd⟩
      rw [← h.totalSize]
      exact Nat.le_of_not_lt hfits
  | succ rounds ih =>
      by_cases hover : toSize c.capacity < c.totalSize
      · cases cells using List.reverseRecOn with
        | nil =>
            rw [h.totalSize] at hover
            cases hover
        | append_singleton cells cell =>
            obtain ⟨first, hfirst, hholds, hcapacity, hsub⟩ := cacheEvict_spec h
            rw [List.length_append] at hrounds
            obtain ⟨c', kept, dropped, hcells, hloop, hkept, hsame, hfits, hmax, hsub'⟩ :=
              ih hholds (Nat.le_of_succ_le_succ hrounds)
            rw [hcapacity] at hfits hmax hsame
            refine ⟨c', kept, dropped ++ [cell], ?_, ?_, hkept, hsame, hfits, fun more hmore hsum => ?_,
              fun d hd => hsub d (hsub' d hd)⟩
            · rw [hcells, List.append_assoc]
            · rw [evictLoop, if_pos hover, hfirst]
              simp only [Option.bind_some, hloop, Option.map_some, List.map_append, List.map_cons,
                List.map_nil]
            · rcases List.prefix_concat_iff.mp hmore with rfl | hmore
              · rw [h.totalSize] at hover
                exact absurd hsum (Nat.not_le_of_lt hover)
              · exact hmax more hmore hsum
      · refine ⟨c, cells, [], (List.append_nil _).symm, if_neg hover, h, rfl, ?_,
          fun _ hmore _ => hmore, fun d hd => hd⟩
        rw [← h.totalSize]
        exact Nat.le_of_not_lt hover

/-- An item moves to the front, with another value. -/
theorem Cache.Holds.front (h : c.Holds (pre ++ (a, e) :: post)) {l : LinkedList CacheEntry}
    {new : CacheEntry} (hl : l.Represents ((a, new) :: (pre ++ post))) (hkey : new.key = e.key)
    (hsum : new.size + sizes (pre ++ post) < 2 ^ 64)
    (hdata : (values ((a, new) :: (pre ++ post)) ++ c.freed).Nodup) :
    Cache.Holds ⟨l, c.capacity, c.size, new.size + sizes (pre ++ post), c.items, c.freed⟩
      ((a, new) :: (pre ++ post)) := by
  have hlength : (pre ++ (a, e) :: post).length = ((a, new) :: (pre ++ post)).length := by
    simp only [List.length_append, List.length_cons]
    omega
  have hkeys := h.keys
  rw [List.map_append, List.map_cons, List.nodup_middle, ← List.map_append] at hkeys
  refine ⟨hl, ?_, h.items.trans hlength, ?_, ?_, ?_, ?_, hdata⟩
  · rw [List.map_cons, hkey]
    exact hkeys
  · rw [← hlength]
    exact h.size
  · rw [← hlength]
    exact h.counted
  · rfl
  · exact hsum

/-- `cache_get` of a key that is there. -/
theorem cacheGet_spec (h : c.Holds (pre ++ (a, e) :: post)) :
    ∃ c', cacheGet c e.key = some (c', e.data) ∧ c'.Holds ((a, e) :: (pre ++ post)) ∧
      c'.capacity = c.capacity ∧ c'.freed = c.freed := by
  obtain ⟨l, hmove, hl⟩ := moveToHead_spec h.list
  have htotal := h.totalSize
  have hsummed := h.summed
  rw [sizes_middle] at htotal hsummed
  have hperm := (values_cons_perm pre post (a, e)).append_right c.freed
  have hholds := h.front hl rfl hsummed (hperm.nodup_iff.mp h.freed)
  rw [← htotal] at hholds
  refine ⟨_, ?_, hholds, rfl, rfl⟩
  rw [cacheGet, h.find]
  simp only [Option.bind_some, hmove, hl.segment.1, Option.map_some]

theorem cacheGet_absent (h : c.Holds cells) {key : Text} (hkey : ∀ cell ∈ cells, cell.2.key ≠ key) :
    cacheGet c key = some (c, 0) := by
  rw [cacheGet, h.find_absent hkey]
  rfl

/-- `cache_set` of a key that is there. -/
theorem cacheUpdate_spec (h : c.Holds (pre ++ (a, e) :: post)) {data : Addr} {size : Nat}
    (hsize : size < 2 ^ 64) (hsum : size + sizes (pre ++ post) < 2 ^ 64)
    (hdata : data ≠ 0 → data ∉ values (pre ++ (a, e) :: post) ++ c.freed) :
    ∃ c', cacheUpdate c ⟨e.key, data, size⟩ a = some c' ∧
      c'.Holds ((a, ⟨e.key, data, size⟩) :: (pre ++ post)) ∧ c'.capacity = c.capacity ∧
        c'.freed = c.freed := by
  obtain ⟨hpre, ha, hpost⟩ := segment_append.mp h.list.segment
  have hnodup := nodup_middle h.list.nodup
  have hpointers : ((pre ++ (a, (⟨e.key, data, size⟩ : CacheEntry)) :: post).map Prod.fst) =
      (pre ++ (a, e) :: post).map Prod.fst := by
    rw [List.map_append, List.map_append, List.map_cons, List.map_cons]
  have hchanged : Represents ⟨Function.update c.list.mem a
      (some ⟨⟨e.key, data, size⟩, lastOr none pre, firstOr post none⟩), c.list.head, c.list.tail⟩
        (pre ++ (a, (⟨e.key, data, size⟩ : CacheEntry)) :: post) := by
    rw [List.map_append, List.mem_append, not_or] at hnodup
    refine ⟨segment_append.mpr ⟨hpre.update hnodup.1.1 _, Function.update_self _ _ _,
      hpost.update hnodup.1.2 _⟩, ?_, ?_, ?_⟩
    · rw [h.list.head, firstOr_append, firstOr_append]
      rfl
    · rw [h.list.tail, lastOr_append, lastOr_append]
      rfl
    · rw [hpointers]
      exact h.list.nodup
  obtain ⟨l, hmove, hl⟩ := moveToHead_spec hchanged
  have hnew : (values ((a, ⟨e.key, data, size⟩) :: (pre ++ post)) ++ c.freed).Nodup := by
    have hperm := (values_cons_perm pre post (a, e)).append_right c.freed
    have hold := hperm.nodup_iff.mp h.freed
    have hsub := (values_sublist (a, e) (pre ++ post)).append_right c.freed
    rw [values_cons]
    split
    · exact hold.sublist hsub
    · next hzero =>
        rw [List.cons_append, List.nodup_cons]
        exact ⟨fun hmem => hdata hzero (hperm.mem_iff.mpr (hsub.subset hmem)), hold.sublist hsub⟩
  have hholds := h.front hl rfl hsum hnew
  refine ⟨_, ?_, hholds, rfl, rfl⟩
  have htotal : wrap64 (wrap64 (c.totalSize + 2 ^ 64 - e.size) + size) = size + sizes (pre ++ post) := by
    have htotal := h.totalSize
    have hsummed := h.summed
    rw [sizes_middle] at htotal hsummed
    simp only at htotal hsummed
    simp only [wrap64, htotal]
    omega
  rw [cacheUpdate, ha]
  simp only [Option.bind_some, LinkedList.modify, ha, Option.map_some, hmove, htotal]

/-- `cache_delete` of a key that is there. -/
theorem cacheDelete_spec (h : c.Holds (pre ++ (a, e) :: post)) :
    ∃ c', cacheDelete c e.key = some c' ∧ c'.Holds (pre ++ post) ∧ c'.capacity = c.capacity ∧
      ∀ d ∈ values (pre ++ post) ++ c'.freed, d ∈ values (pre ++ (a, e) :: post) ++ c.freed := by
  have hnodup := nodup_middle h.list.nodup
  obtain ⟨mem, hdetach, hsegment, ha⟩ := detach_spec h.list.segment h.list.nodup
  have hhead : (if c.list.head = some a then firstOr post none else c.list.head) =
      firstOr (pre ++ post) none := by
    rw [h.list.head, firstOr_append, firstOr_append]
    cases pre with
    | nil => exact if_pos rfl
    | cons first pre =>
        rw [firstOr_cons, if_neg]
        · rfl
        · intro heq
          apply hnodup.1
          rw [← Option.some.inj heq]
          simp
  have hlist : Represents ⟨mem, firstOr (pre ++ post) none, lastOr none (pre ++ post)⟩ (pre ++ post) :=
    ⟨hsegment, rfl, rfl, hnodup.2⟩
  obtain ⟨freed, hfree, hfreed, hsub⟩ := freeData_spec h.freed
  obtain ⟨size, hsize, hholds⟩ := h.remove hlist hfreed
  refine ⟨_, ?_, hholds, rfl, hsub⟩
  have hl : (if c.list.head = some a then
      (⟨mem, firstOr post none, c.list.tail⟩ : LinkedList CacheEntry)
        else ⟨mem, c.list.head, c.list.tail⟩) = ⟨mem, firstOr (pre ++ post) none, c.list.tail⟩ := by
    rw [← hhead]
    split <;> rfl
  have htail : (if c.list.tail = some a then
      (⟨mem, firstOr (pre ++ post) none, lastOr none pre⟩ : LinkedList CacheEntry)
        else ⟨mem, firstOr (pre ++ post) none, c.list.tail⟩) =
          ⟨mem, firstOr (pre ++ post) none, lastOr none (pre ++ post)⟩ := by
    rw [← tail_without h.list]
    split <;> rfl
  rw [cacheDelete, h.find]
  simp only [Option.bind_some, hdetach, ha, hl, htail, hfree, hsize, Option.map_some, Cache.freeItem]

theorem cacheDelete_absent (h : c.Holds cells) {key : Text}
    (hkey : ∀ cell ∈ cells, cell.2.key ≠ key) : cacheDelete c key = some c := by
  rw [cacheDelete, h.find_absent hkey]
  rfl

/-- A new item is at the front before the evictions. -/
theorem Cache.Holds.insert (h : c.Holds cells) (hkey : ∀ cell ∈ cells, cell.2.key ≠ e.key)
    {l : LinkedList CacheEntry} (hl : l.Represents ((a, e) :: cells))
    (hcount : cells.length + 1 < 2 ^ 31) (hsum : e.size + sizes cells < 2 ^ 64)
    (hdata : e.data ≠ 0 → e.data ∉ values cells ++ c.freed) :
    Cache.Holds ⟨l, c.capacity, cells.length + 1, e.size + sizes cells, c.items + 1, c.freed⟩
      ((a, e) :: cells) := by
  refine ⟨hl, ?_, congrArg (· + 1) h.items, ?_, hcount, rfl, hsum, ?_⟩
  · rw [List.map_cons, List.nodup_cons]
    refine ⟨fun hmem => ?_, h.keys⟩
    obtain ⟨cell, hcell, heq⟩ := List.mem_map.mp hmem
    exact hkey cell hcell heq
  · rw [List.length_cons, Nat.cast_add]
    rfl
  · rw [values_cons]
    split
    · exact h.freed
    · next hzero =>
        rw [List.cons_append, List.nodup_cons]
        exact ⟨hdata hzero, h.freed⟩

/-- `cache_set` of a key that is not there counts the item in an `int`. -/
theorem cacheInsert_none (h : c.Holds cells) (hcount : 2 ^ 31 ≤ cells.length + 1) :
    cacheInsert c e a = none := by
  have hcint : cint (c.size + 1) = none := by
    rw [h.size, cint, if_neg]
    omega
  rw [cacheInsert, hcint]
  cases (c.list.malloc a e).pushFront a <;> rfl

/-- `cache_set` of a key that is not there puts the item to the front before the evictions. -/
theorem cacheInsert_eq (h : c.Holds cells) (hkey : ∀ cell ∈ cells, cell.2.key ≠ e.key)
    (ha : c.list.mem a = none) (hcount : cells.length + 1 < 2 ^ 31)
    (hsum : e.size + sizes cells < 2 ^ 64) (hdata : e.data ≠ 0 → e.data ∉ values cells ++ c.freed) :
    ∃ l : LinkedList CacheEntry, cacheInsert c e a = evictLoop (c.items + 1)
      ⟨l, c.capacity, cells.length + 1, e.size + sizes cells, c.items + 1, c.freed⟩ ∧
        Cache.Holds ⟨l, c.capacity, cells.length + 1, e.size + sizes cells, c.items + 1, c.freed⟩
          ((a, e) :: cells) ∧ ∀ x, x ≠ a → c.list.mem x = none → l.mem x = none := by
  have hnew : a ∉ cells.map Prod.fst := fun hmem => h.list.segment.mem_ne_none hmem ha
  have halloc : (c.list.malloc a e).Represents cells :=
    ⟨h.list.segment.update hnew _, h.list.head, h.list.tail, h.list.nodup⟩
  obtain ⟨l, hpush, hl⟩ := pushFront_spec halloc (Function.update_self _ _ _) hnew
  refine ⟨l, ?_, h.insert hkey hl hcount hsum hdata, fun x hne hx => ?_⟩
  · have hcint : cint (c.size + 1) = some (cells.length + 1 : Int) := by
      rw [h.size, cint_eq_some_iff]
      omega
    have htotal : wrap64 (c.totalSize + e.size) = e.size + sizes cells := by
      rw [h.totalSize, wrap64, Nat.add_comm, Nat.mod_eq_of_lt hsum]
    rw [cacheInsert, hpush]
    simp only [Option.bind_some, hcint, htotal]
  · apply pushFront_none hpush
    exact (Function.update_of_ne hne _ _).trans hx

/-- `cache_set` of a key that is not there. -/
theorem cacheInsert_spec (h : c.Holds cells) (hkey : ∀ cell ∈ cells, cell.2.key ≠ e.key)
    (ha : c.list.mem a = none) (hcount : cells.length + 1 < 2 ^ 31)
    (hsum : e.size + sizes cells < 2 ^ 64) (hdata : e.data ≠ 0 → e.data ∉ values cells ++ c.freed) :
    ∃ c' kept dropped, (a, e) :: cells = kept ++ dropped ∧
      cacheInsert c e a = some (c', dropped.map fun cell => cell.2.key) ∧ c'.Holds kept ∧
        c'.capacity = c.capacity ∧ sizes kept ≤ toSize c.capacity ∧
          (∀ more, more <+: (a, e) :: cells → sizes more ≤ toSize c.capacity → more <+: kept) ∧
            ∀ d ∈ values kept ++ c'.freed, d ∈ values ((a, e) :: cells) ++ c.freed := by
  obtain ⟨l, hinsert, hholds, -⟩ := cacheInsert_eq h hkey ha hcount hsum hdata
  have hrounds : ((a, e) :: cells).length ≤ c.items + 1 := by
    rw [h.items, List.length_cons]
  rw [hinsert]
  exact evictLoop_spec hholds hrounds

/-- Nothing is evicted while the values fit. -/
theorem evictLoop_fits {rounds : Nat} (h : c.totalSize ≤ toSize c.capacity) :
    evictLoop rounds c = some (c, []) := by
  cases rounds <;> exact if_neg (Nat.not_lt_of_le h)

end Items

end XHDF5.Client
