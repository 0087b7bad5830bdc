/-
# The connector's hash tables

`rv_hash_table` keeps its entries in chains, moves them to a larger table when an insertion finds
the present one too full, and counts them in an `unsigned int`. It answers every run of insertions
and removals like a map, whatever the allocator refuses, and it frees every key and value it took
exactly once.

A call comes with what `calloc` and `malloc` answer it. Dividing by a table size of zero is no step.
-/

import Mathlib.Algebra.Order.Ring.Nat
import XHDF5.Client.Objects
import XHDF5.Math.Chains

namespace XHDF5.Client

open XHDF5.Math
open scoped List

/-- The values of `hash_table_primes`. -/
def hashTablePrimes : List Nat :=
  [193, 389, 769, 1543, 3079, 6151, 12289, 24593, 49157, 98317, 196613, 393241, 786433, 1572869,
    3145739, 6291469, 12582917, 25165843, 50331653, 100663319, 201326611, 402653189, 805306457,
    1610612741]

/-- An `rv_hash_table_t`: `table` chain by chain, `entries`, `prime_index`, and whether functions
are registered that free keys and values. The number of chains is `table_size`. -/
structure RvHashTable (κ ν : Type*) where
  table : List (List (κ × ν))
  entries : Nat
  primeIndex : Nat
  freesKeys : Bool
  freesValues : Bool

/-- A call of a registered function. -/
inductive Freed (κ ν : Type*)
  | key (key : κ)
  | value (value : ν)

/-- What the allocator answers a call: `calloc` for a larger table, `malloc` for a new entry. -/
structure Grants where
  table : Bool
  entry : Bool

namespace RvHashTable

variable {κ ν : Type*} (K : Keying κ)

/-- The size that `hash_table_allocate_table` chooses. -/
def newTableSize (primeIndex entries : Nat) : Nat :=
  if primeIndex < hashTablePrimes.length then hashTablePrimes.getD primeIndex 0
  else entries * 10 % 2 ^ 32

/-- The call of `key_free_func`, where it is registered. -/
def freeKey (registered : Bool) (e : κ × ν) : List (Freed κ ν) :=
  if registered then [.key e.1] else []

/-- The call of `value_free_func`, where it is registered. -/
def freeValue (registered : Bool) (e : κ × ν) : List (Freed κ ν) :=
  if registered then [.value e.2] else []

/-- `hash_table_free_entry`. -/
def hashTableFreeEntry (t : RvHashTable κ ν) (e : κ × ν) : List (Freed κ ν) :=
  freeKey t.freesKeys e ++ freeValue t.freesValues e

/-- `rv_hash_table_new`, with the answers to its two allocations. -/
def rvHashTableNew (tableStruct table : Bool) : Option (RvHashTable κ ν) :=
  if tableStruct && table then some ⟨List.replicate (newTableSize 0 0) [], 0, 0, false, false⟩
  else none

/-- `rv_hash_table_register_free_functions`. -/
def rvHashTableRegisterFreeFunctions (t : RvHashTable κ ν) (freesKeys freesValues : Bool) :
    RvHashTable κ ν :=
  { t with freesKeys, freesValues }

/-- `rv_hash_table_free`. -/
def rvHashTableFree (t : RvHashTable κ ν) : List (Freed κ ν) :=
  t.table.flatten.flatMap t.hashTableFreeEntry

/-- `hash_table_enlarge`, with whether it succeeds. -/
def hashTableEnlarge (granted : Bool) (t : RvHashTable κ ν) : Option (RvHashTable κ ν × Bool) :=
  if granted = false then some (t, false)
  else
    let size := newTableSize (t.primeIndex + 1) t.entries
    if size = 0 ∧ t.table.flatten ≠ [] then none
    else
      some ({ t with
        table := K.pushAll (List.replicate size []) t.table.flatten
        primeIndex := t.primeIndex + 1 }, true)

/-- The loop of `rv_hash_table_insert` over a chain: the first entry with an equal key gets the new
key and the new value. -/
def overwrite (key : κ) (value : ν) : List (κ × ν) → Option (List (κ × ν) × (κ × ν))
  | [] => none
  | rover :: rest =>
      if K.same rover.1 key then some ((key, value) :: rest, rover)
      else (overwrite key value rest).map fun found => (rover :: found.1, found.2)

/-- What `rv_hash_table_insert` does once the table is large enough. -/
def insertEntry (entryGranted : Bool) (key : κ) (value : ν) (t : RvHashTable κ ν) :
    RvHashTable κ ν × Bool × List (Freed κ ν) :=
  match overwrite K key value (K.chainOf t.table key) with
  | some (chain, old) =>
      ({ t with table := K.setChain t.table key chain }, true,
        freeValue t.freesValues old ++ freeKey t.freesKeys old)
  | none =>
      if entryGranted then
        ({ t with
          table := K.push t.table (key, value)
          entries := (t.entries + 1) % 2 ^ 32 }, true, [])
      else (t, false, [])

/-- `rv_hash_table_insert`: the table, whether it succeeds, and what is freed. -/
def rvHashTableInsert (grants : Grants) (key : κ) (value : ν) (t : RvHashTable κ ν) :
    Option (RvHashTable κ ν × Bool × List (Freed κ ν)) :=
  if t.table.length = 0 then none
  else
    (if 0 < t.entries * 3 % 2 ^ 32 / t.table.length then t.hashTableEnlarge K grants.table
      else some (t, true)).bind fun enlarged =>
    if enlarged.2 = false then some (enlarged.1, false, [])
    else if enlarged.1.table.length = 0 then none
    else some (enlarged.1.insertEntry K grants.entry key value)

/-- `rv_hash_table_lookup`. -/
def rvHashTableLookup (t : RvHashTable κ ν) (key : κ) : Option (Option ν) :=
  if t.table.length = 0 then none else some (K.find key (K.chainOf t.table key))

/-- The loop of `rv_hash_table_remove` over a chain: the first entry with an equal key is
unlinked. -/
def unlink (key : κ) : List (κ × ν) → Option (List (κ × ν) × (κ × ν))
  | [] => none
  | rover :: rest =>
      if K.same key rover.1 then some (rest, rover)
      else (unlink key rest).map fun found => (rover :: found.1, found.2)

/-- `rv_hash_table_remove`: the table, whether an entry was found, and what is freed. -/
def rvHashTableRemove (key : κ) (t : RvHashTable κ ν) :
    Option (RvHashTable κ ν × Bool × List (Freed κ ν)) :=
  if t.table.length = 0 then none
  else
    match unlink K key (K.chainOf t.table key) with
    | some (chain, old) =>
        some ({ t with
          table := K.setChain t.table key chain
          entries := (t.entries + (2 ^ 32 - 1)) % 2 ^ 32 }, true, t.hashTableFreeEntry old)
    | none => some (t, false, [])

/-- `rv_hash_table_num_entries`. -/
def rvHashTableNumEntries (t : RvHashTable κ ν) : Nat := t.entries

/-! ## Runs -/

/-- A call that may change a table. -/
inductive TableCall (κ ν : Type*)
  | insert (key : κ) (value : ν) (grants : Grants)
  | remove (key : κ)

/-- A call and whether it returned a nonzero value. -/
structure Answered (κ ν : Type*) where
  call : TableCall κ ν
  succeeded : Bool

/-- What a call does to a table. -/
def TableCall.run (call : TableCall κ ν) (t : RvHashTable κ ν) :
    Option (RvHashTable κ ν × Bool × List (Freed κ ν)) :=
  match call with
  | .insert key value grants => t.rvHashTableInsert K grants key value
  | .remove key => t.rvHashTableRemove K key

/-- A table with the calls made so far, the newest first, and what was freed in them. -/
structure Session (κ ν : Type*) where
  table : RvHashTable κ ν
  history : List (Answered κ ν)
  released : List (Freed κ ν)

/-- A call goes on with what it returned and freed. -/
def Session.step (s : Session κ ν) (call : TableCall κ ν) : Option (Session κ ν) :=
  (call.run K s.table).map fun result =>
    ⟨result.1, ⟨call, result.2.1⟩ :: s.history, s.released ++ result.2.2⟩

/-- A session with a new table. -/
def Session.start (freesKeys freesValues : Bool) : Session κ ν where
  table := ⟨List.replicate 193 [], 0, 0, freesKeys, freesValues⟩
  history := []
  released := []

/-- The value under a key after some calls: that of the last insertion that succeeded, when the key
was not removed since. -/
def valueAfter : List (Answered κ ν) → κ → Option ν
  | [], _ => none
  | answered :: history, k =>
      if answered.succeeded then
        match answered.call with
        | .insert key value _ => if K.same k key then some value else valueAfter history k
        | .remove key => if K.same k key then none else valueAfter history k
      else valueAfter history k

/-- The entry that a call hands over to the table. -/
def Answered.taken (answered : Answered κ ν) : List (κ × ν) :=
  match answered.call with
  | .insert key value _ => if answered.succeeded then [(key, value)] else []
  | .remove _ => []

/-- The entries that the table took. -/
def takenIn (history : List (Answered κ ν)) : List (κ × ν) := history.flatMap Answered.taken

/-- The key of a call that frees one. -/
def Freed.key? : Freed κ ν → Option κ
  | .key key => some key
  | .value _ => none

/-- The value of a call that frees one. -/
def Freed.value? : Freed κ ν → Option ν
  | .key _ => none
  | .value value => some value

/-- The entries stand in their chains under different keys and are counted. -/
structure Inv (t : RvHashTable κ ν) : Prop where
  positive : 0 < t.table.length
  placed : K.Placed t.table
  distinct : K.Distinct t.table.flatten
  entries_eq : t.entries = t.table.flatten.length % 2 ^ 32

/-- What a call does to the entries of a table, in whichever order they stand. -/
inductive Changes (freesKeys freesValues : Bool) :
    List (κ × ν) → TableCall κ ν → Bool → List (Freed κ ν) → List (κ × ν) → Prop
  | refused (entries key value grants) :
      Changes freesKeys freesValues entries (.insert key value grants) false [] entries
  | replaced (pre post old key value grants) (h : K.same old.1 key = true) :
      Changes freesKeys freesValues (pre ++ old :: post) (.insert key value grants) true
        (freeValue freesValues old ++ freeKey freesKeys old) (pre ++ (key, value) :: post)
  | added (entries key value grants) (h : ∀ e ∈ entries, K.same e.1 key = false) :
      Changes freesKeys freesValues entries (.insert key value grants) true []
        ((key, value) :: entries)
  | removed (pre post old key) (h : K.same key old.1 = true) :
      Changes freesKeys freesValues (pre ++ old :: post) (.remove key) true
        (freeKey freesKeys old ++ freeValue freesValues old) (pre ++ post)
  | missing (entries key) (h : ∀ e ∈ entries, K.same key e.1 = false) :
      Changes freesKeys freesValues entries (.remove key) false [] entries

/-! ## One call -/

variable {K} {t t' : RvHashTable κ ν}

theorem overwrite_eq_some {key : κ} {value : ν} {chain chain' : List (κ × ν)} {old : κ × ν}
    (h : overwrite K key value chain = some (chain', old)) :
    ∃ pre post, chain = pre ++ old :: post ∧ chain' = pre ++ (key, value) :: post ∧
      K.same old.1 key = true := by
  induction chain generalizing chain' old with
  | nil => cases h
  | cons rover rest ih =>
      rw [overwrite] at h
      split at h
      · next hsame =>
          cases h
          exact ⟨[], rest, rfl, rfl, hsame⟩
      · obtain ⟨⟨other, old'⟩, hother, heq⟩ := Option.map_eq_some_iff.mp h
        cases heq
        obtain ⟨pre, post, hrest, hnew, hsame⟩ := ih hother
        exact ⟨rover :: pre, post, by rw [hrest]; rfl, by rw [hnew]; rfl, hsame⟩

theorem overwrite_eq_none {key : κ} {value : ν} {chain : List (κ × ν)}
    (h : overwrite K key value chain = none) : ∀ e ∈ chain, K.same e.1 key = false := by
  induction chain with
  | nil => simp
  | cons rover rest ih =>
      rw [overwrite] at h
      split at h
      · cases h
      · next hsame =>
          exact List.forall_mem_cons.mpr
            ⟨Bool.eq_false_iff.mpr hsame, ih (Option.map_eq_none_iff.mp h)⟩

theorem unlink_eq_some {key : κ} {chain chain' : List (κ × ν)} {old : κ × ν}
    (h : unlink K key chain = some (chain', old)) :
    ∃ pre post, chain = pre ++ old :: post ∧ chain' = pre ++ post ∧
      K.same key old.1 = true := by
  induction chain generalizing chain' old with
  | nil => cases h
  | cons rover rest ih =>
      rw [unlink] at h
      split at h
      · next hsame =>
          cases h
          exact ⟨[], rest, rfl, rfl, hsame⟩
      · obtain ⟨⟨other, old'⟩, hother, heq⟩ := Option.map_eq_some_iff.mp h
        cases heq
        obtain ⟨pre, post, hrest, hnew, hsame⟩ := ih hother
        exact ⟨rover :: pre, post, by rw [hrest]; rfl, by rw [hnew]; rfl, hsame⟩

theorem unlink_eq_none {key : κ} {chain : List (κ × ν)} (h : unlink K key chain = none) :
    ∀ e ∈ chain, K.same key e.1 = false := by
  induction chain with
  | nil => simp
  | cons rover rest ih =>
      rw [unlink] at h
      split at h
      · cases h
      · next hsame =>
          exact List.forall_mem_cons.mpr
            ⟨Bool.eq_false_iff.mpr hsame, ih (Option.map_eq_none_iff.mp h)⟩

/-- A key that is not in its chain is not in the table. -/
theorem not_mem_of_chain (hK : K.Lawful) (hinv : Inv K t) {key : κ}
    (h : ∀ e ∈ K.chainOf t.table key, K.same key e.1 = false) :
    ∀ e ∈ t.table.flatten, K.same key e.1 = false := by
  rw [← Keying.find_eq_none_iff, ← Keying.find_chainOf hK hinv.positive hinv.placed,
    Keying.find_eq_none_iff]
  exact h

/-- Entries that take the place of a chain whose keys had the same hashes. -/
theorem Inv.setChain (hinv : Inv K t) {key : κ} {chain : List (κ × ν)} {entries : Nat}
    (hchain : ∀ e ∈ chain, K.hash e.1 % t.table.length = K.hash key % t.table.length)
    (hdistinct : K.Distinct (K.setChain t.table key chain).flatten)
    (hentries : entries = (K.setChain t.table key chain).flatten.length % 2 ^ 32) :
    Inv K { t with table := K.setChain t.table key chain, entries } where
  positive := by rw [Keying.length_setChain]; exact hinv.positive
  placed := hinv.placed.setChain hchain
  distinct := hdistinct
  entries_eq := hentries

/-- A larger table has the same entries. -/
theorem enlarge_keeps (hK : K.Lawful) (hinv : Inv K t) {granted : Bool}
    {result : RvHashTable κ ν × Bool} (h : t.hashTableEnlarge K granted = some result) :
    result.1.table.flatten ~ t.table.flatten ∧ result.1.freesKeys = t.freesKeys ∧
      result.1.freesValues = t.freesValues ∧ (result.1.table.length ≠ 0 → Inv K result.1) ∧
      (result.2 = false → result.1 = t) := by
  rw [hashTableEnlarge] at h
  split at h
  · cases h
    exact ⟨.refl _, rfl, rfl, fun _ => hinv, fun _ => rfl⟩
  · generalize newTableSize (t.primeIndex + 1) t.entries = size at h
    simp only at h
    split at h
    · cases h
    · next hsize =>
        cases h
        rcases Nat.eq_zero_or_pos size with rfl | hpos
        · have hnil : t.table.flatten = [] := by
            by_contra hne
            exact hsize ⟨rfl, hne⟩
          rw [hnil]
          exact ⟨.refl _, rfl, rfl, fun hne => absurd rfl hne, fun hfalse => by cases hfalse⟩
        · have hlen : 0 < (List.replicate size ([] : List (κ × ν))).length := by
            rwa [List.length_replicate]
          have hperm : (K.pushAll (List.replicate size []) t.table.flatten).flatten ~
              t.table.flatten := by
            have h := Keying.flatten_pushAll_perm (K := K) hlen t.table.flatten
            rwa [List.flatten_replicate_nil, List.append_nil] at h
          refine ⟨hperm, rfl, rfl, fun _ => ⟨?_, ?_, ?_, ?_⟩, fun hfalse => by cases hfalse⟩
          · rwa [Keying.length_pushAll]
          · exact (Keying.placed_replicate K size).pushAll hlen t.table.flatten
          · exact hinv.distinct.perm hK hperm.symm
          · rw [hperm.length_eq]
            exact hinv.entries_eq

/-- The entries around one in a chain, which stay where they are when the chain changes. -/
theorem flatten_of_chain (hpos : 0 < t.table.length) {key : κ} {pre post : List (κ × ν)}
    {old : κ × ν} (hchain : K.chainOf t.table key = pre ++ old :: post) :
    ∃ front back, t.table.flatten = (front ++ pre) ++ old :: (post ++ back) ∧
      ∀ chain, (K.setChain t.table key chain).flatten = front ++ chain ++ back := by
  obtain ⟨front, back, hflat, hset, -⟩ := Keying.flatten_setChain (K := K) hpos key
  refine ⟨front, back, ?_, hset⟩
  rw [hflat, hchain]
  simp only [List.append_assoc, List.cons_append]

/-- An insertion in a table that was made large enough. -/
theorem insertEntry_changes (hK : K.Lawful) (hinv : Inv K t) (key : κ) (value : ν)
    (grants : Grants) :
    Inv K (t.insertEntry K grants.entry key value).1 ∧
      (t.insertEntry K grants.entry key value).1.freesKeys = t.freesKeys ∧
      (t.insertEntry K grants.entry key value).1.freesValues = t.freesValues ∧
      ∃ after, Changes K t.freesKeys t.freesValues t.table.flatten (.insert key value grants)
        (t.insertEntry K grants.entry key value).2.1 (t.insertEntry K grants.entry key value).2.2
        after ∧ (t.insertEntry K grants.entry key value).1.table.flatten ~ after := by
  cases hover : overwrite K key value (K.chainOf t.table key) with
  | some found =>
      obtain ⟨chain, old⟩ := found
      obtain ⟨pre, post, hchain, hnew, hsame⟩ := overwrite_eq_some hover
      obtain ⟨front, back, hflat, hset⟩ := flatten_of_chain hinv.positive hchain
      have hafter : (K.setChain t.table key chain).flatten =
          (front ++ pre) ++ (key, value) :: (post ++ back) := by
        rw [hset, hnew]
        simp only [List.append_assoc, List.cons_append]
      have hplaced : ∀ e ∈ chain, K.hash e.1 % t.table.length = K.hash key % t.table.length := by
        intro e he
        rw [hnew, List.mem_append, List.mem_cons] at he
        rcases he with he | rfl | he
        · exact hinv.placed.chainOf hinv.positive key e (by rw [hchain]; simp [he])
        · rfl
        · exact hinv.placed.chainOf hinv.positive key e (by rw [hchain]; simp [he])
      have hdistinct := hinv.distinct
      have hentries := hinv.entries_eq
      rw [hflat] at hdistinct hentries
      have hinv' : Inv K { t with table := K.setChain t.table key chain } := by
        apply hinv.setChain hplaced
        · rw [hafter]
          exact hdistinct.replace hK hsame
        · rw [hafter, hentries]
          simp only [List.length_append, List.length_cons]
      rw [insertEntry, hover, hflat]
      exact ⟨hinv', rfl, rfl, _, .replaced _ _ _ _ _ _ hsame, .of_eq hafter⟩
  | none =>
      have hnew : ∀ e ∈ t.table.flatten, K.same e.1 key = false := by
        intro e he
        apply hK.ne_comm
        apply not_mem_of_chain hK hinv _ e he
        intro a ha
        exact hK.ne_comm (overwrite_eq_none hover a ha)
      have hperm := Keying.flatten_push_perm (K := K) hinv.positive (key, value)
      rw [insertEntry, hover]
      cases grants.entry with
      | false => exact ⟨hinv, rfl, rfl, _, .refused _ _ _ _, .refl _⟩
      | true =>
          have hentries : (t.entries + 1) % 2 ^ 32 =
              (K.push t.table (key, value)).flatten.length % 2 ^ 32 := by
            rw [hperm.length_eq, List.length_cons, hinv.entries_eq, Nat.mod_add_mod]
          have hpos : 0 < (K.push t.table (key, value)).length := by
            rw [Keying.length_push]
            exact hinv.positive
          exact ⟨⟨hpos, hinv.placed.push hinv.positive _,
            (hinv.distinct.cons hK hnew).perm hK hperm.symm, hentries⟩, rfl, rfl, _,
            .added _ _ _ _ hnew, hperm⟩

theorem insert_changes (hK : K.Lawful) (hinv : Inv K t) {key : κ} {value : ν} {grants : Grants}
    {result : RvHashTable κ ν × Bool × List (Freed κ ν)}
    (h : t.rvHashTableInsert K grants key value = some result) :
    Inv K result.1 ∧ result.1.freesKeys = t.freesKeys ∧ result.1.freesValues = t.freesValues ∧
      ∃ before after, t.table.flatten ~ before ∧
        Changes K t.freesKeys t.freesValues before (.insert key value grants) result.2.1 result.2.2
          after ∧ result.1.table.flatten ~ after := by
  rw [rvHashTableInsert, if_neg (Nat.ne_of_gt hinv.positive)] at h
  obtain ⟨enlarged, henlarged, h⟩ := Option.bind_eq_some_iff.mp h
  have hkeeps : enlarged.1.table.flatten ~ t.table.flatten ∧
      enlarged.1.freesKeys = t.freesKeys ∧ enlarged.1.freesValues = t.freesValues ∧
      (enlarged.1.table.length ≠ 0 → Inv K enlarged.1) ∧
      (enlarged.2 = false → enlarged.1 = t) := by
    split at henlarged
    · exact enlarge_keeps hK hinv henlarged
    · cases henlarged
      exact ⟨.refl _, rfl, rfl, fun _ => hinv, fun hfalse => by cases hfalse⟩
  obtain ⟨hperm, hkeys, hvalues, hinv', hsame⟩ := hkeeps
  split at h
  · next hfailed =>
      cases h
      rw [hsame hfailed]
      exact ⟨hinv, rfl, rfl, _, _, .refl _, .refused _ _ _ _, .refl _⟩
  · split at h
    · cases h
    · next hlen =>
        cases h
        obtain ⟨hnew, hkeys', hvalues', after, hchanges, hafter⟩ :=
          insertEntry_changes hK (hinv' hlen) key value grants
        rw [hkeys, hvalues] at hchanges
        exact ⟨hnew, hkeys'.trans hkeys, hvalues'.trans hvalues, _, after, hperm.symm, hchanges,
          hafter⟩

theorem remove_changes (hK : K.Lawful) (hinv : Inv K t) {key : κ}
    {result : RvHashTable κ ν × Bool × List (Freed κ ν)}
    (h : t.rvHashTableRemove K key = some result) :
    Inv K result.1 ∧ result.1.freesKeys = t.freesKeys ∧ result.1.freesValues = t.freesValues ∧
      ∃ before after, t.table.flatten ~ before ∧
        Changes K t.freesKeys t.freesValues before (.remove key) result.2.1 result.2.2 after ∧
        result.1.table.flatten ~ after := by
  rw [rvHashTableRemove, if_neg (Nat.ne_of_gt hinv.positive)] at h
  cases hunlink : unlink K key (K.chainOf t.table key) with
  | some found =>
      obtain ⟨chain, old⟩ := found
      rw [hunlink] at h
      cases h
      obtain ⟨pre, post, hchain, hnew, hsame⟩ := unlink_eq_some hunlink
      obtain ⟨front, back, hflat, hset⟩ := flatten_of_chain hinv.positive hchain
      have hafter : (K.setChain t.table key chain).flatten =
          (front ++ pre) ++ (post ++ back) := by
        rw [hset, hnew]
        simp only [List.append_assoc]
      have hplaced : ∀ e ∈ chain, K.hash e.1 % t.table.length = K.hash key % t.table.length := by
        intro e he
        apply hinv.placed.chainOf hinv.positive key e
        rw [hnew, List.mem_append] at he
        rw [hchain, List.mem_append, List.mem_cons]
        exact he.imp_right Or.inr
      have hdistinct := hinv.distinct
      have hentries := hinv.entries_eq
      rw [hflat] at hdistinct hentries
      have hinv' : Inv K { t with
          table := K.setChain t.table key chain
          entries := (t.entries + (2 ^ 32 - 1)) % 2 ^ 32 } := by
        apply hinv.setChain hplaced
        · rw [hafter]
          exact hdistinct.remove hK
        · rw [hafter, hentries]
          simp only [List.length_append, List.length_cons]
          omega
      rw [hflat]
      exact ⟨hinv', rfl, rfl, _, _, .refl _, .removed _ _ _ _ hsame, .of_eq hafter⟩
  | none =>
      rw [hunlink] at h
      cases h
      exact ⟨hinv, rfl, rfl, _, _, .refl _,
        .missing _ _ (not_mem_of_chain hK hinv (unlink_eq_none hunlink)), .refl _⟩

/-- What a call does to a table that meets the invariant. -/
theorem run_changes (hK : K.Lawful) (hinv : Inv K t) {call : TableCall κ ν}
    {result : RvHashTable κ ν × Bool × List (Freed κ ν)} (h : call.run K t = some result) :
    Inv K result.1 ∧ result.1.freesKeys = t.freesKeys ∧ result.1.freesValues = t.freesValues ∧
      ∃ before after, t.table.flatten ~ before ∧
        Changes K t.freesKeys t.freesValues before call result.2.1 result.2.2 after ∧
        result.1.table.flatten ~ after := by
  cases call with
  | insert key value grants => exact insert_changes hK hinv h
  | remove key => exact remove_changes hK hinv h

/-! ## What the calls mean -/

section Meaning

variable {freesKeys freesValues : Bool} {before after : List (κ × ν)} {call : TableCall κ ν}
  {succeeded : Bool} {freed : List (Freed κ ν)}

theorem Changes.find (hK : K.Lawful)
    (h : Changes K freesKeys freesValues before call succeeded freed after)
    (hdistinct : K.Distinct before) {history : List (Answered κ ν)}
    (hbefore : ∀ k, K.find k before = valueAfter K history k) (k : κ) :
    K.find k after = valueAfter K (⟨call, succeeded⟩ :: history) k := by
  cases h with
  | refused => exact hbefore k
  | replaced pre post old key value grants hsame =>
      rw [Keying.find_replace hK hdistinct hsame, hbefore, valueAfter]
      rfl
  | added key value grants hnew =>
      rw [Keying.find_cons, hbefore, valueAfter]
      rfl
  | removed pre post old key hsame =>
      rw [Keying.find_remove hK hdistinct, hbefore, ← hK.congr_right hsame, valueAfter]
      rfl
  | missing key hnone => exact hbefore k

/-- Of the keys, or of the values, what a call takes is freed in it or stays. -/
theorem Changes.balance {α : Type*} (f : Freed κ ν → Option α) (g : κ × ν → α)
    (hkeyFirst : ∀ old, (freeKey freesKeys old ++ freeValue freesValues old).filterMap f = [g old])
    (hvalueFirst : ∀ old,
      (freeValue freesValues old ++ freeKey freesKeys old).filterMap f = [g old])
    (h : Changes K freesKeys freesValues before call succeeded freed after) :
    freed.filterMap f ++ after.map g ~
      (Answered.taken ⟨call, succeeded⟩).map g ++ before.map g := by
  cases h with
  | refused => exact .refl _
  | replaced pre post old key value grants hsame =>
      rw [hvalueFirst, List.map_append, List.map_append, List.map_cons, List.map_cons]
      calc [g old] ++ (pre.map g ++ g (key, value) :: post.map g)
          ~ g old :: g (key, value) :: (pre.map g ++ post.map g) := List.perm_middle.cons _
        _ ~ g (key, value) :: g old :: (pre.map g ++ post.map g) := .swap _ _ _
        _ ~ g (key, value) :: (pre.map g ++ g old :: post.map g) := List.perm_middle.symm.cons _
  | added key value grants hnew => exact .refl _
  | removed pre post old key hsame =>
      rw [hkeyFirst, List.map_append, List.map_append, List.map_cons]
      exact (List.perm_middle : pre.map g ++ g old :: post.map g ~ _).symm
  | missing key hnone => exact .refl _

theorem Changes.length_le (h : Changes K freesKeys freesValues before call succeeded freed after) :
    after.length ≤ before.length + 1 := by
  cases h with
  | refused | missing => exact Nat.le_succ _
  | added => exact Nat.le_refl _
  | replaced | removed =>
      simp only [List.length_append, List.length_cons]
      omega

end Meaning

/-- A session shows what its calls mean, and has every key and value that it took or freed it. -/
structure SessionInv (K : Keying κ) (freesKeys freesValues : Bool) (s : Session κ ν) : Prop where
  inv : Inv K s.table
  freesKeys_eq : s.table.freesKeys = freesKeys
  freesValues_eq : s.table.freesValues = freesValues
  shows : ∀ k, K.find k s.table.table.flatten = valueAfter K s.history k
  keys : freesKeys = true →
    s.released.filterMap Freed.key? ++ s.table.table.flatten.map Prod.fst ~
      (takenIn s.history).map Prod.fst
  values : freesValues = true →
    s.released.filterMap Freed.value? ++ s.table.table.flatten.map Prod.snd ~
      (takenIn s.history).map Prod.snd

/-- What was freed and what is left make up what was taken, after a call as before it. -/
theorem Changes.balance_step {α : Type*} {f : Freed κ ν → Option α} {g : κ × ν → α}
    {freesKeys freesValues succeeded : Bool} {call : TableCall κ ν} {freed released : List (Freed κ ν)}
    {table before after table' : List (κ × ν)} {history : List (Answered κ ν)}
    (hkeyFirst : ∀ old, (freeKey freesKeys old ++ freeValue freesValues old).filterMap f = [g old])
    (hvalueFirst : ∀ old,
      (freeValue freesValues old ++ freeKey freesKeys old).filterMap f = [g old])
    (h : Changes K freesKeys freesValues before call succeeded freed after)
    (hbefore : table ~ before) (hafter : table' ~ after)
    (hbalance : released.filterMap f ++ table.map g ~ (takenIn history).map g) :
    (released ++ freed).filterMap f ++ table'.map g ~
      (takenIn (⟨call, succeeded⟩ :: history)).map g := by
  rw [List.filterMap_append, takenIn, List.flatMap_cons, List.map_append, ← takenIn,
    List.append_assoc]
  calc released.filterMap f ++ (freed.filterMap f ++ table'.map g)
      ~ released.filterMap f ++ (freed.filterMap f ++ after.map g) :=
        ((hafter.map g).append_left _).append_left _
    _ ~ released.filterMap f ++ ((Answered.taken ⟨call, succeeded⟩).map g ++ before.map g) :=
        (h.balance f g hkeyFirst hvalueFirst).append_left _
    _ ~ (Answered.taken ⟨call, succeeded⟩).map g ++ (released.filterMap f ++ before.map g) := by
        rw [← List.append_assoc, ← List.append_assoc]
        exact List.perm_append_comm.append_right _
    _ ~ (Answered.taken ⟨call, succeeded⟩).map g ++ (released.filterMap f ++ table.map g) :=
        (((hbefore.map g).symm).append_left _).append_left _
    _ ~ (Answered.taken ⟨call, succeeded⟩).map g ++ (takenIn history).map g :=
        hbalance.append_left _

theorem filterMap_key {freesKeys freesValues : Bool} (h : freesKeys = true) (old : κ × ν) :
    (freeKey freesKeys old ++ freeValue freesValues old).filterMap Freed.key? = [old.1] ∧
      (freeValue freesValues old ++ freeKey freesKeys old).filterMap Freed.key? = [old.1] := by
  subst h
  cases freesValues <;> exact ⟨rfl, rfl⟩

theorem filterMap_value {freesKeys freesValues : Bool} (h : freesValues = true) (old : κ × ν) :
    (freeKey freesKeys old ++ freeValue freesValues old).filterMap Freed.value? = [old.2] ∧
      (freeValue freesValues old ++ freeKey freesKeys old).filterMap Freed.value? = [old.2] := by
  subst h
  cases freesKeys <;> exact ⟨rfl, rfl⟩

theorem sessionInv_start (freesKeys freesValues : Bool) :
    SessionInv K freesKeys freesValues (Session.start freesKeys freesValues : Session κ ν) := by
  have hnil : (List.replicate 193 ([] : List (κ × ν))).flatten = [] := List.flatten_replicate_nil
  refine ⟨⟨?_, Keying.placed_replicate K 193, ?_, ?_⟩, rfl, rfl, ?_, ?_, ?_⟩
  · exact Nat.lt_of_lt_of_eq (by decide : 0 < 193) List.length_replicate.symm
  · exact hnil ▸ List.Pairwise.nil
  · exact hnil ▸ rfl
  · intro k
    exact hnil ▸ rfl
  · intro _
    exact hnil ▸ .refl _
  · intro _
    exact hnil ▸ .refl _

theorem sessionInv_step (hK : K.Lawful) {freesKeys freesValues : Bool} {s s' : Session κ ν}
    {call : TableCall κ ν} (h : SessionInv K freesKeys freesValues s)
    (hstep : s.step K call = some s') : SessionInv K freesKeys freesValues s' := by
  obtain ⟨result, hrun, rfl⟩ := Option.map_eq_some_iff.mp hstep
  obtain ⟨hinv, hkeys, hvalues, before, after, hbefore, hchanges, hafter⟩ :=
    run_changes hK h.inv hrun
  rw [h.freesKeys_eq] at hkeys hchanges
  rw [h.freesValues_eq] at hvalues hchanges
  have hdistinct := h.inv.distinct.perm hK hbefore
  refine ⟨hinv, hkeys, hvalues, fun k => ?_, fun hfrees => ?_, fun hfrees => ?_⟩
  · calc K.find k result.1.table.flatten = K.find k after := by
          rw [Keying.find_perm hK (hinv.distinct) hafter]
      _ = valueAfter K (⟨call, result.2.1⟩ :: s.history) k := by
          apply hchanges.find hK hdistinct
          intro k'
          rw [Keying.find_perm hK h.inv.distinct hbefore, h.shows]
  · exact hchanges.balance_step (fun old => (filterMap_key hfrees old).1)
      (fun old => (filterMap_key hfrees old).2) hbefore hafter (h.keys hfrees)
  · exact hchanges.balance_step (fun old => (filterMap_value hfrees old).1)
      (fun old => (filterMap_value hfrees old).2) hbefore hafter (h.values hfrees)

section Reached

variable {freesKeys freesValues : Bool} {s : Session κ ν}

/-- A state that calls lead to, whatever the allocator answers them. -/
def Reached (K : Keying κ) (freesKeys freesValues : Bool) : Session κ ν → Prop :=
  Reachable (Session.step K) (fun _ _ => True) (Session.start freesKeys freesValues)

theorem Reached.sessionInv (hK : K.Lawful) (h : Reached K freesKeys freesValues s) :
    SessionInv K freesKeys freesValues s :=
  Reachable.invariant h (sessionInv_start freesKeys freesValues)
    fun _ _ _ hinv _ hstep => sessionInv_step hK hinv hstep

theorem lookup_eq (hK : K.Lawful) (hinv : Inv K t) (k : κ) :
    t.rvHashTableLookup K k = some (K.find k t.table.flatten) := by
  rw [rvHashTableLookup, if_neg (Nat.ne_of_gt hinv.positive),
    Keying.find_chainOf hK hinv.positive hinv.placed]

/-- Every run of calls leaves the map that its successful calls make, with its keys counted. -/
theorem reached_lookup (hK : K.Lawful) (h : Reached K freesKeys freesValues s) :
    (∀ k, s.table.rvHashTableLookup K k = some (valueAfter K s.history k)) ∧
      ∃ keys : List κ, keys.Pairwise (fun a b => K.same a b = false) ∧
        (∀ k, (valueAfter K s.history k).isSome ↔ ∃ a ∈ keys, K.same k a = true) ∧
        s.table.rvHashTableNumEntries = keys.length % 2 ^ 32 := by
  have hinv := h.sessionInv hK
  refine ⟨fun k => ?_, s.table.table.flatten.map Prod.fst, ?_, fun k => ?_, ?_⟩
  · rw [lookup_eq hK hinv.inv, hinv.shows]
  · exact List.pairwise_map.mpr hinv.inv.distinct
  · rw [← hinv.shows, Option.isSome_iff_exists]
    constructor
    · rintro ⟨v, hv⟩
      obtain ⟨e, he, hsame, -⟩ := (Keying.find_eq_some_iff hK hinv.inv.distinct).mp hv
      exact ⟨e.1, List.mem_map_of_mem he, hsame⟩
    · rintro ⟨a, ha, hsame⟩
      obtain ⟨e, he, rfl⟩ := List.mem_map.mp ha
      exact ⟨e.2, (Keying.find_eq_some_iff hK hinv.inv.distinct).mpr ⟨e, he, hsame, rfl⟩⟩
  · rw [rvHashTableNumEntries, hinv.inv.entries_eq, List.length_map]

theorem filterMap_rvHashTableFree {α : Type*} {f : Freed κ ν → Option α} {g : κ × ν → α}
    (hfree : t.hashTableFreeEntry = fun e => freeKey true e ++ freeValue true e)
    (hone : ∀ e, (freeKey true e ++ freeValue true e).filterMap f = [g e]) :
    t.rvHashTableFree.filterMap f = t.table.flatten.map g := by
  rw [rvHashTableFree, hfree]
  induction t.table.flatten with
  | nil => rfl
  | cons e rest ih =>
      rw [List.flatMap_cons, List.filterMap_append, hone, ih]
      rfl

/-- After the table is freed, each key and each value that it took was freed once. -/
theorem reached_freed (hK : K.Lawful) (h : Reached K true true s) :
    (s.released ++ s.table.rvHashTableFree).filterMap Freed.key? ~
        (takenIn s.history).map Prod.fst ∧
      (s.released ++ s.table.rvHashTableFree).filterMap Freed.value? ~
        (takenIn s.history).map Prod.snd := by
  have hinv := h.sessionInv hK
  have hfree : s.table.hashTableFreeEntry = fun e => freeKey true e ++ freeValue true e := by
    funext e
    rw [hashTableFreeEntry, hinv.freesKeys_eq, hinv.freesValues_eq]
  constructor
  · rw [List.filterMap_append, filterMap_rvHashTableFree hfree (g := Prod.fst) fun _ => rfl]
    exact hinv.keys rfl
  · rw [List.filterMap_append, filterMap_rvHashTableFree hfree (g := Prod.snd) fun _ => rfl]
    exact hinv.values rfl

end Reached

/-! ## The size of the table -/

/-- The entries that the prime sizes have room for. -/
def roomyEntries : Nat := 536870913

/-- The table has the size that its prime index names and holds hardly more than a third of it. -/
structure Roomy (t : RvHashTable κ ν) : Prop where
  prime : t.primeIndex < 24
  size : t.table.length = hashTablePrimes.getD t.primeIndex 0
  load : t.table.flatten.length * 3 ≤ t.table.length + 2

theorem primes_grow : ∀ i < 23,
    hashTablePrimes.getD i 0 + 3 ≤ hashTablePrimes.getD (i + 1) 0 := by decide

theorem insertEntry_roomy (hK : K.Lawful) (hinv : Inv K t) (key : κ) (value : ν) (grants : Grants)
    (hprime : t.primeIndex < 24) (hsize : t.table.length = hashTablePrimes.getD t.primeIndex 0)
    (hload : t.table.flatten.length * 3 < t.table.length) :
    Roomy (t.insertEntry K grants.entry key value).1 := by
  obtain ⟨-, -, -, after, hchanges, hafter⟩ := insertEntry_changes hK hinv key value grants
  have hlen : (t.insertEntry K grants.entry key value).1.table.flatten.length ≤
      t.table.flatten.length + 1 := by
    rw [hafter.length_eq]
    exact hchanges.length_le
  have hshape : (t.insertEntry K grants.entry key value).1.table.length = t.table.length ∧
      (t.insertEntry K grants.entry key value).1.primeIndex = t.primeIndex := by
    rw [insertEntry]
    split
    · exact ⟨Keying.length_setChain .., rfl⟩
    · split
      · exact ⟨Keying.length_push .., rfl⟩
      · exact ⟨rfl, rfl⟩
  exact ⟨hshape.2 ▸ hprime, by rw [hshape.1, hshape.2, hsize], by rw [hshape.1]; omega⟩

theorem roomy_start (freesKeys freesValues : Bool) :
    Roomy (Session.start freesKeys freesValues : Session κ ν).table where
  prime := Nat.succ_pos 23
  size := List.length_replicate
  load := by
    rw [Session.start, List.flatten_replicate_nil]
    exact Nat.zero_le _

theorem Roomy.entries_eq (hinv : Inv K t) (h : Roomy t) : t.entries = t.table.flatten.length := by
  have hlast : ∀ i < 24, hashTablePrimes.getD i 0 ≤ 1610612741 := by decide
  have hsize := hlast _ h.prime
  have hload := h.load
  rw [h.size] at hload
  rw [hinv.entries_eq, Nat.mod_eq_of_lt (by omega)]

theorem insert_roomy (hK : K.Lawful) (hinv : Inv K t) (h : Roomy t)
    (hfew : t.entries ≤ roomyEntries) (key : κ) (value : ν) (grants : Grants) :
    ∃ result, t.rvHashTableInsert K grants key value = some result ∧ Roomy result.1 := by
  have hentries := h.entries_eq hinv
  have hpos := hinv.positive
  rw [roomyEntries] at hfew
  have hwrap : t.entries * 3 % 2 ^ 32 = t.entries * 3 := Nat.mod_eq_of_lt (by omega)
  rw [rvHashTableInsert, if_neg (Nat.ne_of_gt hpos), hwrap]
  by_cases hfull : t.table.length ≤ t.entries * 3
  · -- the last of the primes has room, so there is a larger one
    have hprime : t.primeIndex < 23 := by
      by_contra hlast
      have hsize := h.size
      rw [show t.primeIndex = 23 from by have := h.prime; omega] at hsize
      have hvalue : hashTablePrimes.getD 23 0 = 1610612741 := rfl
      omega
    have hgrows := primes_grow t.primeIndex hprime
    have hnew : newTableSize (t.primeIndex + 1) t.entries =
        hashTablePrimes.getD (t.primeIndex + 1) 0 := if_pos (Nat.succ_lt_succ hprime)
    rw [if_pos (Nat.div_pos hfull hpos)]
    cases hgranted : grants.table with
    | false => exact ⟨_, rfl, h⟩
    | true =>
        have hsize : hashTablePrimes.getD (t.primeIndex + 1) 0 ≠ 0 := by omega
        have henlarge : t.hashTableEnlarge K true = some ({ t with
            table := K.pushAll
              (List.replicate (hashTablePrimes.getD (t.primeIndex + 1) 0) []) t.table.flatten
            primeIndex := t.primeIndex + 1 }, true) := by
          rw [hashTableEnlarge, if_neg (fun hfalse => Bool.noConfusion hfalse)]
          simp only [hnew]
          rw [if_neg fun hzero => hsize hzero.1]
        have hlen : (K.pushAll (List.replicate (hashTablePrimes.getD (t.primeIndex + 1) 0) [])
            t.table.flatten).length = hashTablePrimes.getD (t.primeIndex + 1) 0 := by
          rw [Keying.length_pushAll, List.length_replicate]
        obtain ⟨hperm, -, -, hinv', -⟩ := enlarge_keeps hK hinv henlarge
        have hne : (K.pushAll (List.replicate (hashTablePrimes.getD (t.primeIndex + 1) 0) [])
            t.table.flatten).length ≠ 0 := hlen.trans_ne hsize
        rw [henlarge, Option.bind_some, if_neg (fun hfalse => Bool.noConfusion hfalse), if_neg hne]
        refine ⟨_, rfl, insertEntry_roomy hK (hinv' hne) key value grants ?_ hlen ?_⟩
        · exact Nat.succ_lt_succ hprime
        · rw [hperm.length_eq, hlen]
          have := h.load
          have := h.size
          omega
  · rw [if_neg (by rw [Nat.div_eq_of_lt (by omega)]; exact Nat.lt_irrefl 0), Option.bind_some,
      if_neg (fun hfalse => Bool.noConfusion hfalse), if_neg (Nat.ne_of_gt hpos)]
    exact ⟨_, rfl, insertEntry_roomy hK hinv key value grants h.prime h.size (by omega)⟩

theorem remove_roomy (hinv : Inv K t) (h : Roomy t) (key : κ) :
    ∃ result, t.rvHashTableRemove K key = some result ∧ Roomy result.1 := by
  have hload := h.load
  rw [rvHashTableRemove, if_neg (Nat.ne_of_gt hinv.positive)]
  cases hunlink : unlink K key (K.chainOf t.table key) with
  | none => exact ⟨_, rfl, h⟩
  | some found =>
      obtain ⟨chain, old⟩ := found
      obtain ⟨pre, post, hchain, hnew, -⟩ := unlink_eq_some hunlink
      obtain ⟨front, back, hflat, hset⟩ := flatten_of_chain hinv.positive hchain
      have hless : (K.setChain t.table key chain).flatten.length ≤ t.table.flatten.length := by
        rw [hset, hnew, hflat]
        simp only [List.length_append, List.length_cons]
        omega
      refine ⟨_, rfl, h.prime, ?_, ?_⟩
      · exact (Keying.length_setChain ..).trans h.size
      · rw [Keying.length_setChain]
        exact (Nat.mul_le_mul_right 3 hless).trans hload

theorem run_roomy (hK : K.Lawful) (hinv : Inv K t) (h : Roomy t) (hfew : t.entries ≤ roomyEntries)
    (call : TableCall κ ν) : ∃ result, call.run K t = some result ∧ Roomy result.1 := by
  cases call with
  | insert key value grants => exact insert_roomy hK hinv h hfew key value grants
  | remove key => exact remove_roomy hinv h key

/-- While insertions find at most `536870913` entries, no call divides by zero or wraps a number
around, and the table has the size that its prime index names, with hardly more than a third of it
in use. -/
theorem reachable_roomy (hK : K.Lawful) {freesKeys freesValues : Bool} {s : Session κ ν}
    (h : Reachable (Session.step K) (fun s _ => s.table.rvHashTableNumEntries ≤ roomyEntries)
      (Session.start freesKeys freesValues) s) :
    Roomy s.table ∧ s.table.rvHashTableNumEntries = s.table.table.flatten.length ∧
      (s.table.rvHashTableNumEntries ≤ roomyEntries → ∀ call, (s.step K call).isSome) := by
  have hboth : SessionInv K freesKeys freesValues s ∧ Roomy s.table := by
    refine h.invariant (I := fun s => SessionInv K freesKeys freesValues s ∧ Roomy s.table)
      ⟨sessionInv_start freesKeys freesValues, roomy_start freesKeys freesValues⟩ ?_
    intro s call s' hs hfew hstep
    refine ⟨sessionInv_step hK hs.1 hstep, ?_⟩
    obtain ⟨result, hrun, hroomy⟩ := run_roomy hK hs.1.inv hs.2 hfew call
    rw [Session.step, hrun] at hstep
    cases hstep
    exact hroomy
  refine ⟨hboth.2, hboth.2.entries_eq hboth.1.inv, fun hfew call => ?_⟩
  obtain ⟨result, hrun, -⟩ := run_roomy hK hboth.1.inv hboth.2 hfew call
  rw [Session.step, hrun]
  rfl

/-! ## Iteration -/

/-- An `rv_hash_table_iter_t`: the chain from `next_entry` on, which is empty where that is `NULL`,
and `next_chain`. -/
structure TableIter (κ ν : Type*) where
  nextEntry : List (κ × ν)
  nextChain : Nat

/-- The loops that look for a chain with entries, from a chain on. -/
def scanChains : List (List (κ × ν)) → Nat → TableIter κ ν
  | [], chain => ⟨[], chain⟩
  | entries :: rest, chain =>
      if entries.isEmpty then scanChains rest (chain + 1) else ⟨entries, chain⟩

/-- `rv_hash_table_iterate`. -/
def rvHashTableIterate (t : RvHashTable κ ν) : TableIter κ ν := scanChains t.table 0

/-- `rv_hash_table_iter_has_more`. -/
def rvHashTableIterHasMore (iterator : TableIter κ ν) : Bool := !iterator.nextEntry.isEmpty

/-- `rv_hash_table_iter_next`. -/
def rvHashTableIterNext (t : RvHashTable κ ν) (iterator : TableIter κ ν) :
    Option ν × TableIter κ ν :=
  match iterator.nextEntry with
  | [] => (none, iterator)
  | current :: rest =>
      (some current.2,
        if rest.isEmpty then
          scanChains (t.table.drop (iterator.nextChain + 1)) (iterator.nextChain + 1)
        else { iterator with nextEntry := rest })

/-- A loop that takes the next value while there are more, for some turns at most. -/
def visit (t : RvHashTable κ ν) : Nat → TableIter κ ν → List ν × TableIter κ ν
  | 0, iterator => ([], iterator)
  | turns + 1, iterator =>
      if rvHashTableIterHasMore iterator then
        let next := t.rvHashTableIterNext iterator
        let later := visit t turns next.2
        (next.1.toList ++ later.1, later.2)
      else ([], iterator)

/-- The entries that an iterator has not given yet. -/
def TableIter.left (t : RvHashTable κ ν) (iterator : TableIter κ ν) : List (κ × ν) :=
  iterator.nextEntry ++ (t.table.drop (iterator.nextChain + 1)).flatten

/-- An iterator without a next entry has given all of them. -/
def TableIter.Steady (t : RvHashTable κ ν) (iterator : TableIter κ ν) : Prop :=
  iterator.nextEntry = [] → iterator.left t = []

theorem scanChains_left (chains : List (List (κ × ν))) (chain : Nat)
    (h : chains = t.table.drop chain) :
    (scanChains chains chain).left t = (t.table.drop chain).flatten ∧
      (scanChains chains chain).Steady t := by
  induction chains generalizing chain with
  | nil =>
      have hnil : (t.table.drop (chain + 1)).flatten = [] := by
        rw [← List.drop_drop, ← h]
        rfl
      have hleft : (⟨[], chain⟩ : TableIter κ ν).left t = [] := hnil
      rw [scanChains, ← h]
      exact ⟨hleft, fun _ => hleft⟩
  | cons entries rest ih =>
      have hrest : rest = t.table.drop (chain + 1) := by
        rw [← List.drop_drop, ← h]
        rfl
      rw [scanChains]
      cases entries with
      | nil =>
          rw [List.isEmpty_nil, if_pos rfl, ← h, List.flatten_cons, List.nil_append]
          obtain ⟨hleft, hsteady⟩ := ih (chain + 1) hrest
          exact ⟨hleft.trans (congrArg List.flatten hrest.symm), hsteady⟩
      | cons e entries =>
          rw [List.isEmpty_cons, if_neg Bool.false_ne_true, ← h, List.flatten_cons,
            TableIter.left, ← hrest]
          exact ⟨rfl, fun hnil => by cases hnil⟩

theorem iterNext_left {iterator : TableIter κ ν} {current : κ × ν} {rest : List (κ × ν)}
    (h : iterator.nextEntry = current :: rest) :
    (t.rvHashTableIterNext iterator).1 = some current.2 ∧
      iterator.left t = current :: (t.rvHashTableIterNext iterator).2.left t ∧
      (t.rvHashTableIterNext iterator).2.Steady t := by
  rw [rvHashTableIterNext, TableIter.left, h]
  cases rest with
  | nil =>
      have hscan := scanChains_left (t := t) _ (iterator.nextChain + 1) rfl
      refine ⟨rfl, ?_, hscan.2⟩
      exact congrArg (current :: ·) hscan.1.symm
  | cons e rest => exact ⟨rfl, rfl, fun hnil => by cases hnil⟩

/-- The loop gives what is left, once each, and then there is no more. -/
theorem visit_eq {iterator : TableIter κ ν} (hsteady : iterator.Steady t) {turns : Nat}
    (hturns : (iterator.left t).length ≤ turns) :
    (t.visit turns iterator).1 = (iterator.left t).map Prod.snd ∧
      rvHashTableIterHasMore (t.visit turns iterator).2 = false := by
  induction turns generalizing iterator with
  | zero =>
      have hnil : iterator.left t = [] := List.length_eq_zero_iff.mp (Nat.le_zero.mp hturns)
      have hentry : iterator.nextEntry = [] := (List.append_eq_nil_iff.mp hnil).1
      rw [visit, hnil, rvHashTableIterHasMore, hentry]
      exact ⟨rfl, rfl⟩
  | succ turns ih =>
      cases hentry : iterator.nextEntry with
      | nil =>
          have hmore : rvHashTableIterHasMore iterator = false := by
            rw [rvHashTableIterHasMore, hentry]
            rfl
          rw [visit, hmore, if_neg Bool.false_ne_true, hsteady hentry]
          exact ⟨rfl, hmore⟩
      | cons current rest =>
          obtain ⟨hvalue, hleft, hnext⟩ := iterNext_left (t := t) hentry
          have hmore : rvHashTableIterHasMore iterator = true := by
            rw [rvHashTableIterHasMore, hentry]
            rfl
          rw [hleft, List.length_cons] at hturns
          obtain ⟨hlater, hend⟩ := ih hnext (Nat.le_of_succ_le_succ hturns)
          rw [visit, hmore, if_pos rfl, hleft]
          simp only [hvalue, hlater]
          exact ⟨rfl, hend⟩

/-- An iteration over a table gives the value under each of its keys once and ends. -/
theorem reached_visit (hK : K.Lawful) {freesKeys freesValues : Bool} {s : Session κ ν}
    (h : Reached K freesKeys freesValues s) :
    ∃ entries : List (κ × ν), K.Distinct entries ∧
      (∀ k v, valueAfter K s.history k = some v ↔ ∃ e ∈ entries, K.same k e.1 = true ∧ e.2 = v) ∧
      ∀ turns, entries.length ≤ turns →
        (s.table.visit turns s.table.rvHashTableIterate).1 = entries.map Prod.snd ∧
          rvHashTableIterHasMore (s.table.visit turns s.table.rvHashTableIterate).2 = false := by
  have hinv := h.sessionInv hK
  obtain ⟨hleft, hsteady⟩ := scanChains_left (t := s.table) s.table.table 0 rfl
  refine ⟨s.table.table.flatten, hinv.inv.distinct, fun k v => ?_, fun turns hturns => ?_⟩
  · rw [← hinv.shows, Keying.find_eq_some_iff hK hinv.inv.distinct]
  · have hall := visit_eq hsteady (hleft ▸ hturns)
    rwa [hleft] at hall

end RvHashTable

/-! ## Tables of strings -/

/-- `rv_hash_string`. -/
def rvHashString (string : Key) : Nat :=
  string.foldl (fun result p => (result * 2 ^ 5 + result + p.toNat) % 2 ^ 32) 5381

/-- `H5_rest_compare_string_keys`. -/
def h5RestCompareStringKeys (value1 value2 : Key) : Bool := value1 = value2

/-- The keys of all tables of the connector. -/
def stringKeys : Keying Key where
  same := h5RestCompareStringKeys
  hash := rvHashString

theorem stringKeys_lawful : stringKeys.Lawful where
  refl _ := decide_eq_true rfl
  symm _ _ h := decide_eq_true (of_decide_eq_true h).symm
  trans _ _ _ h h' := decide_eq_true ((of_decide_eq_true h).trans (of_decide_eq_true h'))
  hash_eq _ _ h := congrArg rvHashString (of_decide_eq_true h)

namespace RvHashTable

/-- What calls on the table of a type do to the connector. -/
def replay (type : ObjType) : List (Answered Key Addr) → Connector → Connector
  | [], c => c
  | answered :: history, c =>
      if answered.succeeded then
        match answered.call with
        | .insert key value _ => (replay type history c).insert type key value
        | .remove key => (replay type history c).remove type key
      else replay type history c

theorem replay_table (type : ObjType) (history : List (Answered Key Addr)) (k : Key) :
    (replay type history Connector.empty).table type k = valueAfter stringKeys history k := by
  induction history with
  | nil => rfl
  | cons answered history ih =>
      obtain ⟨call, succeeded⟩ := answered
      cases succeeded with
      | false => exact ih
      | true =>
          have hsame (key : Key) : stringKeys.same k key = true ↔ k = key := decide_eq_true_iff
          cases call with
          | insert key value grants =>
              rw [replay, valueAfter]
              simp only [if_true, Connector.insert, Function.update_self, Function.update_apply,
                hsame, ih]
          | remove key =>
              rw [replay, valueAfter]
              simp only [if_true, Connector.remove, Function.update_self, Function.update_apply,
                hsame, ih]

/-- The table of a type answers like the one of the connector's model. -/
theorem lookup_connector {freesKeys freesValues : Bool} {s : Session Key Addr}
    (h : Reached stringKeys freesKeys freesValues s) (type : ObjType) (k : Key) :
    s.table.rvHashTableLookup stringKeys k =
      some ((replay type s.history Connector.empty).table type k) := by
  have hinv := h.sessionInv stringKeys_lawful
  rw [replay_table, ← hinv.shows, lookup_eq stringKeys_lawful hinv.inv]

/-! ## One key -/

/-- The key `a`, inserted in a new table whose keys and values are freed. -/
def oneKey : Option (Session Key Addr) :=
  (Session.start true true).step stringKeys (.insert [97] 5 ⟨true, true⟩)

theorem oneKey_eq : ∃ s, oneKey = some s ∧
    (Session.start true true).step stringKeys (.insert [97] 5 ⟨true, true⟩) = some s := by
  have hsome : ∃ s : Session Key Addr, (Session.start true true).step stringKeys
      (.insert [97] 5 ⟨true, true⟩) = some s := by
    obtain ⟨result, hrun, -⟩ := run_roomy stringKeys_lawful (sessionInv_start true true).inv
      (roomy_start true true) (Nat.zero_le _) (.insert [97] 5 ⟨true, true⟩)
    rw [Session.step, hrun]
    exact ⟨_, rfl⟩
  obtain ⟨s, hs⟩ := hsome
  exact ⟨s, hs, hs⟩

theorem reached_lookup_oneKey : ∃ s, oneKey = some s ∧
    ∀ k, s.table.rvHashTableLookup stringKeys k = some (valueAfter stringKeys s.history k) := by
  obtain ⟨s, hs, hstep⟩ := oneKey_eq
  exact ⟨s, hs, (reached_lookup stringKeys_lawful (.next .start trivial hstep)).1⟩

theorem reached_freed_oneKey : ∃ s, oneKey = some s ∧
    (s.released ++ s.table.rvHashTableFree).filterMap Freed.key? ~
      (takenIn s.history).map Prod.fst := by
  obtain ⟨s, hs, hstep⟩ := oneKey_eq
  exact ⟨s, hs, (reached_freed stringKeys_lawful (.next .start trivial hstep)).1⟩

theorem reached_visit_oneKey : ∃ s, oneKey = some s ∧
    ∃ entries : List (Key × Addr), stringKeys.Distinct entries ∧
      ∀ turns, entries.length ≤ turns →
        (s.table.visit turns s.table.rvHashTableIterate).1 = entries.map Prod.snd := by
  obtain ⟨s, hs, hstep⟩ := oneKey_eq
  obtain ⟨entries, hdistinct, -, hvisit⟩ :=
    reached_visit stringKeys_lawful (.next .start trivial hstep)
  exact ⟨s, hs, entries, hdistinct, fun turns hturns => (hvisit turns hturns).1⟩

theorem reachable_roomy_oneKey : ∃ s, oneKey = some s ∧ Roomy s.table := by
  obtain ⟨s, hs, hstep⟩ := oneKey_eq
  exact ⟨s, hs, (reachable_roomy stringKeys_lawful
    (.next .start (Nat.zero_le roomyEntries) hstep)).1⟩

end RvHashTable

end XHDF5.Client
