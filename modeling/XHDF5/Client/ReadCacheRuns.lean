/-
# Runs of the read cache

The keys and values in the cache are the contents that its history leaves. Every call whose numbers
fit the cache's counters keeps this, so the cache is a map that forgets the least recently used key.
The budget holds along exactly the runs that add up to no more than it: an update does not evict,
and a capacity of more than 31 bits is not the one that the evictions compare with.
-/

import XHDF5.Client.ReadCacheSpec
import XHDF5.Math.Run

namespace XHDF5.Client

open XHDF5.Math LinkedList

/-! ## The invariant -/

/-- The items of the cache are the contents that the history leaves, and every value was passed
in. -/
structure TracedCache.Inv (capacity : Nat) (t : TracedCache) (cells : List (Nat × CacheEntry)) :
    Prop where
  holds : t.cache.Holds cells
  capacity : t.cache.capacity = toInt capacity
  shows : Shows 0 t.history (contents cells)
  passed : ∀ d ∈ values cells ++ t.cache.freed, ∃ k, .set k d ∈ t.history

/-- The items without the one of a key. -/
def others (cells : List (Nat × CacheEntry)) (key : Text) : List (Nat × CacheEntry) :=
  cells.filter fun cell => cell.2.key ≠ key

/-- The sizes of the items after `cache_set` and before the evictions, the newest first. -/
def newSizes (cells : List (Nat × CacheEntry)) (key : Text) (size : Nat) : List Nat :=
  size :: (others cells key).map fun cell => cell.2.size

/-- The number of the items fits an `int`, and the sum of their sizes a `size_t`. -/
def TracedCache.Counted (t : TracedCache) : CacheCall → Prop
  | .set key _ size _ => ∀ cells, t.cache.list.Represents cells →
      (newSizes cells key size).length < 2 ^ 31 ∧ (newSizes cells key size).sum < 2 ^ 64
  | .get _ => True
  | .delete _ => True

theorem holds_cacheInit (capacity : Nat) : (cacheInit capacity).Holds [] where
  list := represents_empty
  keys := List.nodup_nil
  items := rfl
  size := rfl
  counted := Nat.two_pow_pos 31
  totalSize := rfl
  summed := Nat.two_pow_pos 64
  freed := List.nodup_nil

theorem inv_init (capacity : Nat) : (TracedCache.init capacity).Inv capacity [] where
  holds := holds_cacheInit capacity
  capacity := rfl
  shows := shows_nil
  passed := by
    intro d hd
    cases hd

theorem others_absent {cells : List (Nat × CacheEntry)} {key : Text}
    (hkey : ∀ cell ∈ cells, cell.2.key ≠ key) : others cells key = cells := by
  apply List.filter_eq_self.mpr
  intro cell hcell
  exact decide_eq_true (hkey cell hcell)

theorem others_middle {pre post : List (Nat × CacheEntry)} {a : Nat} {e : CacheEntry}
    (hnodup : ((pre ++ (a, e) :: post).map fun cell => cell.2.key).Nodup) :
    others (pre ++ (a, e) :: post) e.key = pre ++ post := by
  rw [List.map_append, List.map_cons, List.nodup_middle, List.nodup_cons, ← List.map_append] at hnodup
  have hothers := @others_absent (pre ++ post) e.key fun cell hcell heq =>
    hnodup.1 (heq ▸ List.mem_map_of_mem hcell)
  rw [others, List.filter_append, List.filter_cons_of_neg (by simp), ← List.filter_append]
  exact hothers

/-- Keys that were evicted one after the other. -/
theorem shows_evictedAll {history : List (MapEvent Text Addr)} {kept dropped : List (Nat × CacheEntry)}
    (h : Shows 0 history (contents (kept ++ dropped))) :
    Shows 0 ((dropped.map fun cell => cell.2.key).map .evicted ++ history) (contents kept) := by
  induction dropped generalizing kept with
  | nil =>
      rw [List.append_nil] at h
      exact h
  | cons cell dropped ih =>
      rw [← List.singleton_append, ← List.append_assoc] at h
      have hlater := ih h
      rw [contents_append] at hlater
      exact hlater.evicted

namespace TracedCache.Inv

variable {capacity : Nat} {t : TracedCache} {cells pre post : List (Nat × CacheEntry)} {a item : Nat}
  {e : CacheEntry} {key : Text} {data : Addr} {size : Nat}

theorem absent (hkey : ∀ cell ∈ cells, cell.2.key ≠ key) : key ∉ (contents cells).map Prod.fst := by
  rw [keys_contents]
  intro hmem
  obtain ⟨cell, hcell, heq⟩ := List.mem_map.mp hmem
  exact hkey cell hcell heq

/-- A value that was not passed in yet is neither held nor freed. -/
theorem fresh (h : t.Inv capacity cells) (hdata : data ≠ 0 → ∀ k, .set k data ∉ t.history)
    (hzero : data ≠ 0) : data ∉ values cells ++ t.cache.freed := by
  intro hmem
  obtain ⟨k, hk⟩ := h.passed data hmem
  exact hdata hzero k hk

/-- The values after `cache_set` were passed in. -/
theorem passed_set (h : t.Inv capacity cells) {kept : List (Nat × CacheEntry)} {freed : List Addr}
    (hsub : ∀ d ∈ values kept ++ freed, d = data ∨ d ∈ values cells ++ t.cache.freed)
    (events : List (MapEvent Text Addr)) :
    ∀ d ∈ values kept ++ freed, ∃ k, .set k d ∈ events ++ .set key data :: t.history := by
  intro d hd
  rcases hsub d hd with rfl | hold
  · exact ⟨key, by simp⟩
  · obtain ⟨k, hk⟩ := h.passed d hold
    exact ⟨k, List.mem_append_right _ (List.mem_cons_of_mem _ hk)⟩

/-- The values after another call were passed in. -/
theorem passed_cons (h : t.Inv capacity cells) {left : List (Nat × CacheEntry)} {freed : List Addr}
    (event : MapEvent Text Addr)
    (hsub : ∀ d ∈ values left ++ freed, d ∈ values cells ++ t.cache.freed) :
    ∀ d ∈ values left ++ freed, ∃ k, .set k d ∈ event :: t.history := by
  intro d hd
  obtain ⟨k, hk⟩ := h.passed d (hsub d hd)
  exact ⟨k, List.mem_cons_of_mem _ hk⟩

/-- `cache_set` of a key that is there. -/
theorem set_present (h : t.Inv capacity (pre ++ (a, e) :: post))
    (hpossible : t.Possible (.set e.key data size item)) (hsum : size + sizes (pre ++ post) < 2 ^ 64) :
    ∃ t', t.step (.set e.key data size item) = some t' ∧
      t'.Inv capacity ((a, ⟨e.key, data, size⟩) :: (pre ++ post)) := by
  obtain ⟨-, hsize, -, hdata⟩ := hpossible
  obtain ⟨c', hupdate, hholds, hcapacity, hfreed⟩ :=
    cacheUpdate_spec h.holds hsize hsum (h.fresh hdata)
  refine ⟨⟨c', .set e.key data :: t.history⟩, ?_, hholds, hcapacity.trans h.capacity, ?_, ?_⟩
  · rw [step, cacheSet, h.holds.find]
    simp only [Option.bind_some, hupdate, Option.map_some, List.map_nil, List.nil_append]
  · have hshows := h.shows
    rw [contents_append, contents_cons] at hshows
    have hset := hshows.set data
    rw [← contents_append] at hset
    exact hset
  · refine h.passed_set (fun d hd => ?_) []
    rw [List.mem_append, values_cons] at hd
    simp only at hd
    rcases hd with hd | hd
    · have hkept : d ∈ values (pre ++ post) → d ∈ values (pre ++ (a, e) :: post) := fun hd =>
        (values_cons_perm pre post (a, e)).mem_iff.mpr ((values_sublist _ _).subset hd)
      split at hd
      · exact .inr (List.mem_append_left _ (hkept hd))
      · rcases List.mem_cons.mp hd with rfl | hd
        · exact .inl rfl
        · exact .inr (List.mem_append_left _ (hkept hd))
    · rw [hfreed] at hd
      exact .inr (List.mem_append_right _ hd)

/-- `cache_set` of a key that is not there. -/
theorem set_absent (h : t.Inv capacity cells) (hkey : ∀ cell ∈ cells, cell.2.key ≠ key)
    (hpossible : t.Possible (.set key data size item)) (hcount : cells.length + 1 < 2 ^ 31)
    (hsum : size + sizes cells < 2 ^ 64) :
    ∃ t' kept, t.step (.set key data size item) = some t' ∧ t'.Inv capacity kept ∧
      kept <+: (item, ⟨key, data, size⟩) :: cells ∧ sizes kept ≤ toSize (toInt capacity) ∧
        ∀ more, more <+: (item, ⟨key, data, size⟩) :: cells →
          sizes more ≤ toSize (toInt capacity) → more <+: kept := by
  obtain ⟨-, hsize, hitem, hdata⟩ := hpossible
  obtain ⟨c', kept, dropped, hcells, hinsert, hholds, hcapacity, hfits, hmax, hsub⟩ :=
    cacheInsert_spec (e := ⟨key, data, size⟩) h.holds hkey hitem hcount hsum (h.fresh hdata)
  rw [h.capacity] at hfits hmax hcapacity
  refine ⟨⟨c', (dropped.map fun cell => cell.2.key).map .evicted ++ .set key data :: t.history⟩, kept,
    ?_, ⟨hholds, hcapacity, ?_, h.passed_set (fun d hd => ?_) _⟩, ⟨dropped, hcells.symm⟩, hfits, hmax⟩
  · rw [step, cacheSet, h.holds.find_absent hkey]
    simp only [Option.bind_some, hinsert, Option.map_some]
  · apply shows_evictedAll
    rw [← hcells]
    exact h.shows.set_new (absent hkey) data
  · have hmem := hsub d hd
    rw [List.mem_append, values_cons] at hmem
    simp only at hmem
    rcases hmem with hmem | hmem
    · split at hmem
      · exact .inr (List.mem_append_left _ hmem)
      · rcases List.mem_cons.mp hmem with rfl | hmem
        · exact .inl rfl
        · exact .inr (List.mem_append_left _ hmem)
    · exact .inr (List.mem_append_right _ hmem)

/-- The key of a call is that of an item or of none. -/
theorem cases_key (cells : List (Nat × CacheEntry)) (key : Text) :
    (∀ cell ∈ cells, cell.2.key ≠ key) ∨
      ∃ pre post a e, cells = pre ++ (a, e) :: post ∧ key = e.key := by
  by_cases hkey : ∃ cell ∈ cells, cell.2.key = key
  · obtain ⟨cell, hcell, heq⟩ := hkey
    obtain ⟨pre, post, hsplit⟩ := List.append_of_mem hcell
    exact .inr ⟨pre, post, cell.1, cell.2, hsplit, heq.symm⟩
  · exact .inl fun cell hcell heq => hkey ⟨cell, hcell, heq⟩

theorem newSizes_absent (hkey : ∀ cell ∈ cells, cell.2.key ≠ key) (size : Nat) :
    newSizes cells key size = size :: cells.map fun cell => cell.2.size := by
  rw [newSizes, others_absent hkey]

theorem newSizes_present (h : t.Inv capacity (pre ++ (a, e) :: post)) (size : Nat) :
    newSizes (pre ++ (a, e) :: post) e.key size =
      size :: (pre ++ post).map fun cell => cell.2.size := by
  rw [newSizes, others_middle h.holds.keys]

/-- Every call whose numbers fit keeps the invariant. -/
theorem step_spec (h : t.Inv capacity cells) {call : CacheCall} (hpossible : t.Possible call)
    (hcounted : t.Counted call) : ∃ t' cells', t.step call = some t' ∧ t'.Inv capacity cells' := by
  cases call with
  | set key data size item =>
      obtain ⟨hlength, hsum⟩ := hcounted cells h.holds.list
      obtain hkey | ⟨pre, post, a, e, rfl, rfl⟩ := cases_key cells key
      · rw [newSizes_absent hkey] at hlength hsum
        rw [List.length_cons, List.length_map] at hlength
        obtain ⟨t', kept, hstep, hinv, -⟩ := h.set_absent hkey hpossible hlength hsum
        exact ⟨t', kept, hstep, hinv⟩
      · rw [h.newSizes_present] at hsum
        obtain ⟨t', hstep, hinv⟩ := h.set_present hpossible hsum
        exact ⟨t', _, hstep, hinv⟩
  | get key =>
      obtain hkey | ⟨pre, post, a, e, rfl, rfl⟩ := cases_key cells key
      · refine ⟨⟨t.cache, .got key 0 :: t.history⟩, cells, ?_, h.holds, h.capacity,
          h.shows.got_absent (absent hkey), h.passed_cons _ fun d hd => hd⟩
        rw [step, cacheGet_absent h.holds hkey]
        rfl
      · obtain ⟨c', hget, hholds, hcapacity, hfreed⟩ := cacheGet_spec h.holds
        refine ⟨⟨c', .got e.key e.data :: t.history⟩, _, ?_, hholds, hcapacity.trans h.capacity, ?_,
          h.passed_cons _ fun d hd => ?_⟩
        · rw [step, hget]
          rfl
        · have hshows := h.shows
          rw [contents_append, contents_cons] at hshows
          have hgot := hshows.got
          rw [← contents_append] at hgot
          exact hgot
        · rw [hfreed] at hd
          exact ((values_cons_perm pre post (a, e)).append_right t.cache.freed).mem_iff.mpr hd
  | delete key =>
      obtain hkey | ⟨pre, post, a, e, rfl, rfl⟩ := cases_key cells key
      · refine ⟨⟨t.cache, .deleted key :: t.history⟩, cells, ?_, h.holds, h.capacity,
          h.shows.deleted_absent (absent hkey), h.passed_cons _ fun d hd => hd⟩
        rw [step, cacheDelete_absent h.holds hkey]
        rfl
      · obtain ⟨c', hdelete, hholds, hcapacity, hsub⟩ := cacheDelete_spec h.holds
        refine ⟨⟨c', .deleted e.key :: t.history⟩, _, ?_, hholds, hcapacity.trans h.capacity, ?_,
          h.passed_cons _ hsub⟩
        · rw [step, hdelete]
          rfl
        · have hshows := h.shows
          rw [contents_append, contents_cons] at hshows
          have hdeleted := hshows.deleted
          rw [← contents_append] at hdeleted
          exact hdeleted

end TracedCache.Inv

/-! ## The map that the cache is -/

/-- The list is well formed with distinct keys in the order of their last use, the counters count
it, every read gave the latest value, and every eviction took the key used least recently. -/
def TracedCache.Refines (t : TracedCache) : Prop :=
  ∃ cells, t.cache.list.Represents cells ∧ (cells.map fun cell => cell.2.key).Nodup ∧
    t.cache.size = cells.length ∧ t.cache.totalSize = sizes cells ∧ KeepsLru 0 t.history ∧
      recency t.history = cells.map fun cell => cell.2.key

/-- Every call of the run has a result, and every state is that of the map. -/
def RefinesLru (capacity : Nat) (calls : List CacheCall) : Prop :=
  Along TracedCache.step (fun t call => (t.step call).isSome = true) calls (.init capacity) ∧
    Throughout TracedCache.step TracedCache.Refines calls (.init capacity)

theorem TracedCache.Inv.refines {capacity : Nat} {t : TracedCache} {cells : List (Nat × CacheEntry)}
    (h : t.Inv capacity cells) : t.Refines :=
  ⟨cells, h.holds.list, h.holds.keys, h.holds.size, h.holds.totalSize, h.shows.keepsLru,
    h.shows.recency.trans (keys_contents cells)⟩

/-- The cache is a map that forgets its least recently used key in every run whose calls fit its
counters. -/
theorem cache_refinesLru (capacity : Nat) (calls : List CacheCall)
    (hpossible : Along TracedCache.step TracedCache.Possible calls (.init capacity))
    (hcounted : Along TracedCache.step TracedCache.Counted calls (.init capacity)) :
    RefinesLru capacity calls := by
  have hstep (t : TracedCache) (call : CacheCall) (t' : TracedCache)
      (h : ∃ cells, t.Inv capacity cells) (hpossible : t.Possible call) (hcounted : t.Counted call)
      (ht' : t.step call = some t') : ∃ cells, t'.Inv capacity cells := by
    obtain ⟨cells, hinv⟩ := h
    obtain ⟨next, cells', hnext, hinv'⟩ := hinv.step_spec hpossible hcounted
    rw [ht'] at hnext
    exact ⟨cells', Option.some.inj hnext ▸ hinv'⟩
  constructor
  · apply along_of_along ?_ hstep ⟨[], inv_init capacity⟩ hpossible hcounted
    rintro t call ⟨cells, hinv⟩ hpossible hcounted
    obtain ⟨next, cells', hnext, -⟩ := hinv.step_spec hpossible hcounted
    rw [hnext]
    rfl
  · apply (throughout_of_along hstep ⟨[], inv_init capacity⟩ hpossible hcounted).imp
    rintro t ⟨cells, hinv⟩
    exact hinv.refines

theorem cache_refinesLru_evicts :
    RefinesLru 10 [.set ['a'] 1 6 0, .set ['b'] 2 5 1, .get ['a'], .delete ['b']] := by
  have hfirst : (cacheInit 10).list.Represents [] := represents_empty
  apply cache_refinesLru
  · refine ⟨⟨by decide, by decide, rfl, fun _ k hk => ?_⟩, fun t ht => ?_⟩
    · cases hk
    · obtain rfl := Option.some.inj ht
      refine ⟨⟨by decide, by decide, rfl, fun _ k hk => ?_⟩, fun _ _ => ⟨trivial, fun _ _ =>
        ⟨trivial, fun _ _ => trivial⟩⟩⟩
      cases hk with
      | tail _ hk => cases hk
  · refine ⟨fun cells hcells => ?_, fun t ht => ?_⟩
    · rw [hcells.unique hfirst]
      decide
    · obtain rfl := Option.some.inj ht
      refine ⟨fun cells hcells => ?_, fun _ _ => ⟨trivial, fun _ _ => ⟨trivial, fun _ _ => trivial⟩⟩⟩
      rw [@LinkedList.Represents.unique _ _ _ [(0, ⟨['a'], 1, 6⟩)] hcells
        ⟨⟨rfl, trivial⟩, rfl, rfl, by decide⟩]
      decide

/-- A key of its own for every item, with a value that takes no space. -/
def fillCall (n : Nat) : CacheCall := .set (decimal n) (n + 1) 0 n

/-- The cache after the first calls that fill it. -/
def Filled (t : TracedCache) (n : Nat) : Prop :=
  ∃ cells, t.cache.Holds cells ∧ cells.length = n ∧ sizes cells = 0 ∧ t.cache.freed = [] ∧
    (∀ cell ∈ cells, ∃ i < n, cell.2.key = decimal i) ∧ (∀ d ∈ values cells, d ≤ n) ∧
      (∀ a, n ≤ a → t.cache.list.mem a = none) ∧ ∀ k d, .set k d ∈ t.history → d ≤ n

section Filling

variable {t : TracedCache} {n : Nat}

theorem Filled.absent {cells : List (Nat × CacheEntry)}
    (h : ∀ cell ∈ cells, ∃ i < n, cell.2.key = decimal i) : ∀ cell ∈ cells, cell.2.key ≠ decimal n := by
  intro cell hcell heq
  obtain ⟨i, hi, hkey⟩ := h cell hcell
  exact Nat.ne_of_lt hi (decimal_injective (hkey.symm.trans heq))

theorem Filled.possible (h : Filled t n) (hn : n < 2 ^ 31) : t.Possible (fillCall n) := by
  obtain ⟨cells, -, -, -, -, -, -, hmem, hhistory⟩ := h
  refine ⟨?_, Nat.two_pow_pos 64, hmem n (Nat.le_refl n), fun _ k hk => ?_⟩
  · apply Nat.lt_of_le_of_lt ((@length_decimal_le_iff _ 10 (by decide)).mpr ?_)
    · decide
    · omega
  · exact absurd (hhistory k _ hk) (by omega)

theorem Filled.step (h : Filled t n) (hn : n + 1 < 2 ^ 31) :
    ∃ t', t.step (fillCall n) = some t' ∧ Filled t' (n + 1) := by
  obtain ⟨cells, hholds, hlength, hsizes, hfreed, hkeys, hvalues, hmem, hhistory⟩ := h
  have habsent := Filled.absent hkeys
  obtain ⟨l, hinsert, hnew, hframe⟩ := cacheInsert_eq (e := ⟨decimal n, n + 1, 0⟩) hholds habsent
    (hmem n (Nat.le_refl n)) (by rwa [hlength])
    (by rw [hsizes, Nat.add_zero]; exact Nat.two_pow_pos 64) fun _ hd => by
      rw [hfreed, List.append_nil] at hd
      exact absurd (hvalues _ hd) (Nat.not_succ_le_self n)
  rw [evictLoop_fits (by rw [hsizes]; exact Nat.zero_le _)] at hinsert
  refine ⟨⟨⟨l, t.cache.capacity, cells.length + 1, 0 + sizes cells, t.cache.items + 1, t.cache.freed⟩,
    .set (decimal n) (n + 1) :: t.history⟩, ?_, _, hnew, ?_, ?_, hfreed, fun cell hcell => ?_,
      fun d hd => ?_, fun a ha => ?_, fun k d hd => ?_⟩
  · rw [fillCall, TracedCache.step, cacheSet, hholds.find_absent habsent, Option.bind_some, hinsert]
    rfl
  · rw [List.length_cons, hlength]
  · exact (Nat.zero_add _).trans hsizes
  · rcases List.mem_cons.mp hcell with rfl | hcell
    · exact ⟨n, Nat.lt_succ_self n, rfl⟩
    · obtain ⟨i, hi, hkey⟩ := hkeys cell hcell
      exact ⟨i, Nat.lt_succ_of_lt hi, hkey⟩
  · rw [values_cons, if_neg (Nat.succ_ne_zero n)] at hd
    rcases List.mem_cons.mp hd with rfl | hd
    · exact Nat.le_refl _
    · exact Nat.le_succ_of_le (hvalues d hd)
  · exact hframe a (by omega) (hmem a (by omega))
  · rcases List.mem_cons.mp hd with heq | hd
    · cases heq
      exact Nat.le_refl _
    · exact Nat.le_succ_of_le (hhistory k d hd)

/-- The calls that fill the cache are possible, and the last one has no result. -/
theorem Filled.run (h : Filled t n) {k : Nat} (hk : n + k + 1 = 2 ^ 31) :
    Along TracedCache.step TracedCache.Possible ((List.range' n (k + 1)).map fillCall) t ∧
      ¬ Along TracedCache.step (fun t call => (t.step call).isSome = true)
        ((List.range' n (k + 1)).map fillCall) t := by
  induction k generalizing t n with
  | zero =>
      refine ⟨⟨h.possible (by omega), fun _ _ => trivial⟩, fun hdefined => ?_⟩
      obtain ⟨cells, hholds, hlength, -, -, hkeys, -⟩ := h
      have hnone : t.step (fillCall n) = none := by
        rw [fillCall, TracedCache.step, cacheSet, hholds.find_absent (Filled.absent hkeys),
          Option.bind_some, cacheInsert_none hholds (by omega)]
        rfl
      have hfirst : (t.step (fillCall n)).isSome = true := hdefined.1
      rw [hnone] at hfirst
      cases hfirst
  | succ k ih =>
      obtain ⟨t', hstep, hfilled⟩ := h.step (by omega)
      obtain ⟨hpossible, hundefined⟩ := ih hfilled (by omega)
      rw [List.range'_succ, List.map_cons]
      refine ⟨⟨h.possible (by omega), fun s hs => ?_⟩, fun hdefined => hundefined (hdefined.2 t' hstep)⟩
      rw [hstep] at hs
      exact Option.some.inj hs ▸ hpossible

end Filling

/-- One item more than an `int` counts. -/
theorem not_refinesLru_full : ¬ ∀ (capacity : Nat) (calls : List CacheCall),
    Along TracedCache.step TracedCache.Possible calls (.init capacity) → RefinesLru capacity calls := by
  intro h
  have hfilled : Filled (.init 0) 0 := by
    refine ⟨[], holds_cacheInit 0, rfl, rfl, rfl, ?_, ?_, fun _ _ => rfl, ?_⟩
    · intro cell hcell
      cases hcell
    · intro d hd
      cases hd
    · intro k d hd
      cases hd
  obtain ⟨hpossible, hundefined⟩ := hfilled.run (k := 2 ^ 31 - 1) (by decide)
  exact hundefined (h 0 _ hpossible).1
/-! ## The budget -/

/-- The addition of `cache_set` to `total_size` exceeds a `size_t`. -/
def Cache.Wraps (c : Cache) (key : Text) (size : Nat) : Prop :=
  match c.find key with
  | some (some item) =>
      ∃ node, c.list.mem item = some node ∧ 2 ^ 64 ≤ c.totalSize - node.value.size + size
  | _ => 2 ^ 64 ≤ c.totalSize + size

/-- `cache_set` ends, does not wrap `total_size`, and leaves the sum of the sizes within the
capacity that was asked for. -/
def TracedCache.KeepsBudget (capacity : Nat) (t : TracedCache) : CacheCall → Prop
  | .set key data size item => ¬ t.cache.Wraps key size ∧ ∃ t',
      t.step (.set key data size item) = some t' ∧
        (∃ cells, t'.cache.list.Represents cells ∧ t'.cache.totalSize = sizes cells) ∧
          t'.cache.totalSize ≤ capacity
  | .get _ => True
  | .delete _ => True

/-- The items and the sum of their sizes fit their counters. The sum after an update is within the
capacity; after a new item no sum of the newest sizes lies above the capacity and up to the value
that the capacity has as an `int`. -/
def TracedCache.FitsBudget (capacity : Nat) (t : TracedCache) : CacheCall → Prop
  | .set key _ size _ => ∀ cells, t.cache.list.Represents cells →
      (newSizes cells key size).length < 2 ^ 31 ∧ (newSizes cells key size).sum < 2 ^ 64 ∧
        if key ∈ cells.map fun cell => cell.2.key then (newSizes cells key size).sum ≤ capacity
        else ∀ n, ((newSizes cells key size).take n).sum ≤ toSize (toInt capacity) →
          ((newSizes cells key size).take n).sum ≤ capacity
  | .get _ => True
  | .delete _ => True

theorem TracedCache.FitsBudget.counted {capacity : Nat} {t : TracedCache} {call : CacheCall}
    (h : t.FitsBudget capacity call) : t.Counted call := by
  cases call with
  | set key data size item =>
      intro cells hcells
      obtain ⟨hlength, hsum, -⟩ := h cells hcells
      exact ⟨hlength, hsum⟩
  | get key => trivial
  | delete key => trivial

theorem sizes_le_kept {more kept : List (Nat × CacheEntry)} (h : more <+: kept) :
    sizes more ≤ sizes kept := by
  obtain ⟨rest, rfl⟩ := h
  rw [sizes, sizes, List.map_append, List.sum_append]
  exact Nat.le_add_right _ _

namespace TracedCache.Inv

variable {capacity : Nat} {t : TracedCache} {cells pre post : List (Nat × CacheEntry)} {a item : Nat}
  {e : CacheEntry} {key : Text} {data : Addr} {size : Nat}

theorem wraps_absent (h : t.Inv capacity cells) (hkey : ∀ cell ∈ cells, cell.2.key ≠ key) :
    t.cache.Wraps key size ↔ 2 ^ 64 ≤ size + sizes cells := by
  rw [Cache.Wraps, h.holds.find_absent hkey, h.holds.totalSize, Nat.add_comm]

theorem wraps_present (h : t.Inv capacity (pre ++ (a, e) :: post)) :
    t.cache.Wraps e.key size ↔ 2 ^ 64 ≤ size + sizes (pre ++ post) := by
  obtain ⟨-, ha, -⟩ := segment_append.mp h.holds.list.segment
  have hrest : t.cache.totalSize - e.size + size = size + sizes (pre ++ post) := by
    rw [h.holds.totalSize, sizes_middle, Nat.add_sub_cancel_left, Nat.add_comm]
  rw [Cache.Wraps, h.holds.find, ← hrest]
  constructor
  · rintro ⟨node, hnode, hwraps⟩
    rw [ha] at hnode
    cases hnode
    exact hwraps
  · exact fun hwraps => ⟨_, ha, hwraps⟩

theorem fitsBudget_absent (h : t.Inv capacity cells) (hkey : ∀ cell ∈ cells, cell.2.key ≠ key) :
    t.FitsBudget capacity (.set key data size item) ↔
      cells.length + 1 < 2 ^ 31 ∧ size + sizes cells < 2 ^ 64 ∧
        ∀ more, more <+: (item, (⟨key, data, size⟩ : CacheEntry)) :: cells →
          sizes more ≤ toSize (toInt capacity) → sizes more ≤ capacity := by
  have hmem : key ∉ cells.map fun cell => cell.2.key := by
    rw [← keys_contents]
    exact absent hkey
  have htake (n : Nat) : ((newSizes cells key size).take n).sum =
      sizes (((item, (⟨key, data, size⟩ : CacheEntry)) :: cells).take n) := by
    rw [newSizes_absent hkey, sizes, List.map_take, List.map_cons]
  have hprefixes : (∀ n, ((newSizes cells key size).take n).sum ≤ toSize (toInt capacity) →
      ((newSizes cells key size).take n).sum ≤ capacity) ↔
        ∀ more, more <+: (item, (⟨key, data, size⟩ : CacheEntry)) :: cells →
          sizes more ≤ toSize (toInt capacity) → sizes more ≤ capacity := by
    constructor
    · intro hfits more hmore hle
      have hfits := hfits more.length
      rw [htake, ← List.prefix_iff_eq_take.mp hmore] at hfits
      exact hfits hle
    · intro hfits n
      rw [htake]
      exact hfits _ (List.take_prefix n _)
  have hlength : (newSizes cells key size).length = cells.length + 1 := by
    rw [newSizes_absent hkey, List.length_cons, List.length_map]
  have hsum : (newSizes cells key size).sum = size + sizes cells := by
    rw [newSizes_absent hkey, List.sum_cons, sizes]
  rw [← hprefixes, ← hlength, ← hsum]
  constructor
  · intro hfits
    have hcells := hfits cells h.holds.list
    rw [if_neg hmem] at hcells
    exact hcells
  · intro hfits other hother
    rw [hother.unique h.holds.list, if_neg hmem]
    exact hfits

theorem fitsBudget_present (h : t.Inv capacity (pre ++ (a, e) :: post)) :
    t.FitsBudget capacity (.set e.key data size item) ↔
      size + sizes (pre ++ post) < 2 ^ 64 ∧ size + sizes (pre ++ post) ≤ capacity := by
  have hmem : e.key ∈ (pre ++ (a, e) :: post).map fun cell => cell.2.key := by simp
  have hlength : (newSizes (pre ++ (a, e) :: post) e.key size).length < 2 ^ 31 := by
    have hcounted := h.holds.counted
    rw [List.length_append, List.length_cons] at hcounted
    rw [h.newSizes_present, List.length_cons, List.length_map, List.length_append]
    omega
  have hsum : (newSizes (pre ++ (a, e) :: post) e.key size).sum = size + sizes (pre ++ post) := by
    rw [h.newSizes_present, List.sum_cons, sizes]
  rw [← hsum]
  constructor
  · intro hfits
    have hcells := hfits _ h.holds.list
    rw [if_pos hmem] at hcells
    exact hcells.2
  · intro hfits other hother
    rw [hother.unique h.holds.list, if_pos hmem]
    exact ⟨hlength, hfits⟩

/-- A call keeps the budget exactly when its numbers fit it. -/
theorem keepsBudget_iff (h : t.Inv capacity cells) {call : CacheCall} (hpossible : t.Possible call) :
    t.KeepsBudget capacity call ↔ t.FitsBudget capacity call := by
  cases call with
  | set key data size item =>
      obtain hkey | ⟨pre, post, a, e, rfl, rfl⟩ := cases_key cells key
      · rw [h.fitsBudget_absent hkey, KeepsBudget, h.wraps_absent hkey, Nat.not_le]
        constructor
        · rintro ⟨hsum, t', hstep, -, hbudget⟩
          have hcount : cells.length + 1 < 2 ^ 31 := by
            apply Nat.lt_of_not_le
            intro hfull
            rw [step, cacheSet, h.holds.find_absent hkey, Option.bind_some,
              cacheInsert_none h.holds hfull] at hstep
            cases hstep
          refine ⟨hcount, hsum, fun more hmore hle => ?_⟩
          obtain ⟨next, kept, hnext, hinv, -, -, hmax⟩ := h.set_absent hkey hpossible hcount hsum
          rw [hstep] at hnext
          obtain rfl := Option.some.inj hnext
          rw [hinv.holds.totalSize] at hbudget
          exact Nat.le_trans (sizes_le_kept (hmax more hmore hle)) hbudget
        · rintro ⟨hcount, hsum, hfits⟩
          obtain ⟨t', kept, hstep, hinv, hkept, hle, -⟩ := h.set_absent hkey hpossible hcount hsum
          refine ⟨hsum, t', hstep, ⟨kept, hinv.holds.list, hinv.holds.totalSize⟩, ?_⟩
          rw [hinv.holds.totalSize]
          exact hfits kept hkept hle
      · rw [h.fitsBudget_present, KeepsBudget, h.wraps_present, Nat.not_le]
        constructor
        · rintro ⟨hsum, t', hstep, -, hbudget⟩
          obtain ⟨next, hnext, hinv⟩ := h.set_present hpossible hsum
          rw [hstep] at hnext
          obtain rfl := Option.some.inj hnext
          rw [hinv.holds.totalSize] at hbudget
          exact ⟨hsum, hbudget⟩
        · rintro ⟨hsum, hfits⟩
          obtain ⟨t', hstep, hinv⟩ := h.set_present hpossible hsum
          refine ⟨hsum, t', hstep, ⟨_, hinv.holds.list, hinv.holds.totalSize⟩, ?_⟩
          rw [hinv.holds.totalSize]
          exact hfits
  | get key => exact Iff.rfl
  | delete key => exact Iff.rfl

end TracedCache.Inv

/-- The budget holds along exactly the runs whose calls fit it. -/
theorem cache_keepsBudget_iff (capacity : Nat) (calls : List CacheCall)
    (hpossible : Along TracedCache.step TracedCache.Possible calls (.init capacity)) :
    Along TracedCache.step (TracedCache.KeepsBudget capacity) calls (.init capacity) ↔
      Along TracedCache.step (TracedCache.FitsBudget capacity) calls (.init capacity) := by
  apply along_iff_along (I := fun t : TracedCache => ∃ cells, t.Inv capacity cells) ?_ ?_
    ⟨[], inv_init capacity⟩ hpossible
  · rintro t call ⟨cells, hinv⟩ hpossible
    exact hinv.keepsBudget_iff hpossible
  · rintro t call t' ⟨cells, hinv⟩ hpossible hfits hstep
    obtain ⟨next, cells', hnext, hinv'⟩ := hinv.step_spec hpossible hfits.counted
    rw [hstep] at hnext
    exact ⟨cells', Option.some.inj hnext ▸ hinv'⟩

theorem cache_keepsBudget_update :
    Along TracedCache.step (TracedCache.KeepsBudget 10) [.set ['a'] 1 5 0] (.init 10) ↔
      Along TracedCache.step (TracedCache.FitsBudget 10) [.set ['a'] 1 5 0] (.init 10) := by
  apply cache_keepsBudget_iff
  refine ⟨⟨by decide, by decide, rfl, fun _ k hk => ?_⟩, fun _ _ => trivial⟩
  cases hk

/-- An update to a value larger than the capacity evicts nothing. -/
theorem not_keepsBudget_update : ¬ ∀ (capacity : Nat) (calls : List CacheCall),
    Along TracedCache.step TracedCache.Possible calls (.init capacity) →
      Along TracedCache.step (TracedCache.KeepsBudget capacity) calls (.init capacity) := by
  intro h
  have hrun := h 10 [.set ['a'] 1 5 0, .set ['a'] 2 20 1] ?_
  · obtain ⟨-, t', hstep, -, hbudget⟩ := (hrun.2 _ rfl).1
    obtain rfl := Option.some.inj hstep
    exact absurd hbudget (by decide)
  · refine ⟨⟨by decide, by decide, rfl, fun _ k hk => ?_⟩, fun t ht => ?_⟩
    · cases hk
    · obtain rfl := Option.some.inj ht
      refine ⟨⟨by decide, by decide, rfl, fun _ k hk => ?_⟩, fun _ _ => trivial⟩
      cases hk with
      | tail _ hk => cases hk

end XHDF5.Client
