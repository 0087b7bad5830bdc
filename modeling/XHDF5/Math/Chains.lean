/-
# Chained hash tables

The entries of a table are spread over chains: an entry stands in the chain that the hash of its key
names, modulo the number of chains. Keys are compared by an equality of their own, which the hash
respects. Where every entry stands in its chain and no two keys are equal, the chain of a key says
of it what all the entries together say, and it does not matter how the entries are ordered or over
how many chains they are spread.
-/

import Mathlib.Data.List.Basic
import Mathlib.Data.List.Perm.Basic

namespace XHDF5.Math

open scoped List

/-- How keys are compared and hashed. -/
structure Keying (κ : Type*) where
  same : κ → κ → Bool
  hash : κ → Nat

/-- The comparison is an equality, and equal keys have one hash. -/
structure Keying.Lawful {κ : Type*} (K : Keying κ) : Prop where
  refl : ∀ a, K.same a a = true
  symm : ∀ a b, K.same a b = true → K.same b a = true
  trans : ∀ a b c, K.same a b = true → K.same b c = true → K.same a c = true
  hash_eq : ∀ a b, K.same a b = true → K.hash a = K.hash b

namespace Keying

variable {κ ν : Type*} {K : Keying κ}

theorem Lawful.comm (hK : K.Lawful) (a b : κ) : K.same a b = K.same b a :=
  Bool.eq_iff_iff.mpr ⟨hK.symm a b, hK.symm b a⟩

theorem Lawful.congr_right (hK : K.Lawful) {a b : κ} (h : K.same a b = true) (k : κ) :
    K.same k a = K.same k b :=
  Bool.eq_iff_iff.mpr
    ⟨fun hka => hK.trans k a b hka h, fun hkb => hK.trans k b a hkb (hK.symm a b h)⟩

/-! ## Lists of entries -/

variable (K) in
/-- The value of the first entry with a key. -/
def find (k : κ) : List (κ × ν) → Option ν
  | [] => none
  | e :: rest => if K.same k e.1 then some e.2 else find k rest

variable (K) in
/-- No two entries have equal keys. -/
def Distinct (entries : List (κ × ν)) : Prop :=
  entries.Pairwise fun a b => K.same a.1 b.1 = false

theorem find_eq_none_iff {k : κ} {entries : List (κ × ν)} :
    K.find k entries = none ↔ ∀ e ∈ entries, K.same k e.1 = false := by
  induction entries with
  | nil => simp [find]
  | cons e rest ih =>
      rw [find, List.forall_mem_cons]
      cases h : K.same k e.1 with
      | false => simpa using ih
      | true => simp

theorem find_append (k : κ) (front back : List (κ × ν)) :
    K.find k (front ++ back) = (K.find k front).or (K.find k back) := by
  induction front with
  | nil => rfl
  | cons e rest ih =>
      rw [List.cons_append, find, find]
      cases K.same k e.1 with
      | false => exact ih
      | true => rfl

theorem find_eq_some_iff (hK : K.Lawful) {k : κ} {v : ν} {entries : List (κ × ν)}
    (h : K.Distinct entries) :
    K.find k entries = some v ↔ ∃ e ∈ entries, K.same k e.1 = true ∧ e.2 = v := by
  induction entries with
  | nil => simp [find]
  | cons e rest ih =>
      have hrest := ih (List.pairwise_cons.mp h).2
      have hhead := (List.pairwise_cons.mp h).1
      rw [find, List.exists_mem_cons_iff]
      cases he : K.same k e.1 with
      | false => simpa using hrest
      | true =>
          have hno : ¬ ∃ a ∈ rest, K.same k a.1 = true ∧ a.2 = v := by
            rintro ⟨a, ha, hka, -⟩
            have hea : K.same e.1 a.1 = true := hK.trans _ _ _ (hK.symm _ _ he) hka
            rw [hhead a ha] at hea
            exact Bool.false_ne_true hea
          simp [hno]

theorem Lawful.ne_comm (hK : K.Lawful) {a b : κ} (h : K.same a b = false) : K.same b a = false := by
  rw [hK.comm, h]

theorem Distinct.perm (hK : K.Lawful) {entries entries' : List (κ × ν)} (h : K.Distinct entries)
    (hperm : entries.Perm entries') : K.Distinct entries' :=
  (hperm.pairwise_iff fun hab => hK.ne_comm hab).mp h

theorem find_perm (hK : K.Lawful) {entries entries' : List (κ × ν)} (h : K.Distinct entries)
    (hperm : entries.Perm entries') (k : κ) : K.find k entries' = K.find k entries := by
  apply Option.ext
  intro v
  rw [find_eq_some_iff hK (h.perm hK hperm), find_eq_some_iff hK h]
  constructor
  · rintro ⟨e, he, hsame⟩
    exact ⟨e, hperm.mem_iff.mpr he, hsame⟩
  · rintro ⟨e, he, hsame⟩
    exact ⟨e, hperm.mem_iff.mp he, hsame⟩

/-- A new entry changes what the entries say of its own key only. -/
theorem find_cons (e : κ × ν) (entries : List (κ × ν)) (k : κ) :
    K.find k (e :: entries) = if K.same k e.1 then some e.2 else K.find k entries := rfl

theorem Distinct.cons (hK : K.Lawful) {e : κ × ν} {entries : List (κ × ν)}
    (h : K.Distinct entries) (hnew : ∀ a ∈ entries, K.same a.1 e.1 = false) :
    K.Distinct (e :: entries) :=
  List.pairwise_cons.mpr ⟨fun a ha => hK.ne_comm (hnew a ha), h⟩

/-- The keys that are none of the entries' do not distinguish an entry from its replacement. -/
theorem Distinct.replace (hK : K.Lawful) {pre post : List (κ × ν)} {old new : κ × ν}
    (h : K.Distinct (pre ++ old :: post)) (hsame : K.same old.1 new.1 = true) :
    K.Distinct (pre ++ new :: post) := by
  have hcons : K.Distinct (old :: (pre ++ post)) := h.perm hK List.perm_middle
  have hnew : K.Distinct (new :: (pre ++ post)) := by
    apply Distinct.cons hK (List.pairwise_cons.mp hcons).2
    intro a ha
    rw [← hK.congr_right hsame]
    exact hK.ne_comm ((List.pairwise_cons.mp hcons).1 a ha)
  exact hnew.perm hK List.perm_middle.symm

theorem find_replace (hK : K.Lawful) {pre post : List (κ × ν)} {old new : κ × ν}
    (h : K.Distinct (pre ++ old :: post)) (hsame : K.same old.1 new.1 = true) (k : κ) :
    K.find k (pre ++ new :: post) =
      if K.same k new.1 then some new.2 else K.find k (pre ++ old :: post) := by
  rw [find_perm hK ((h.replace hK hsame).perm hK List.perm_middle) List.perm_middle.symm,
    find_perm hK (h.perm hK List.perm_middle) List.perm_middle.symm, find_cons, find_cons,
    hK.congr_right hsame]
  cases K.same k new.1 <;> rfl

theorem Distinct.remove (hK : K.Lawful) {pre post : List (κ × ν)} {old : κ × ν}
    (h : K.Distinct (pre ++ old :: post)) : K.Distinct (pre ++ post) :=
  (List.pairwise_cons.mp (h.perm hK List.perm_middle)).2

theorem find_remove (hK : K.Lawful) {pre post : List (κ × ν)} {old : κ × ν}
    (h : K.Distinct (pre ++ old :: post)) (k : κ) :
    K.find k (pre ++ post) =
      if K.same k old.1 then none else K.find k (pre ++ old :: post) := by
  have hcons : K.Distinct (old :: (pre ++ post)) := h.perm hK List.perm_middle
  rw [find_perm hK hcons List.perm_middle.symm, find_cons]
  cases hk : K.same k old.1 with
  | false => rfl
  | true =>
      apply find_eq_none_iff.mpr
      intro a ha
      cases hka : K.same k a.1 with
      | false => rfl
      | true =>
          have hold : K.same old.1 a.1 = true := hK.trans _ _ _ (hK.symm _ _ hk) hka
          rw [(List.pairwise_cons.mp hcons).1 a ha] at hold
          exact absurd hold Bool.false_ne_true

/-! ## Chains -/

variable (K) in
/-- The chain of a key. -/
def chainOf (chains : List (List (κ × ν))) (k : κ) : List (κ × ν) :=
  chains.getD (K.hash k % chains.length) []

variable (K) in
/-- Put a list in the place of the chain of a key. -/
def setChain (chains : List (List (κ × ν))) (k : κ) (chain : List (κ × ν)) :
    List (List (κ × ν)) :=
  chains.set (K.hash k % chains.length) chain

variable (K) in
/-- Put an entry at the front of its chain. -/
def push (chains : List (List (κ × ν))) (e : κ × ν) : List (List (κ × ν)) :=
  K.setChain chains e.1 (e :: K.chainOf chains e.1)

variable (K) in
/-- Every entry stands in the chain of its key. -/
def Placed (chains : List (List (κ × ν))) : Prop :=
  ∀ i chain, chains[i]? = some chain → ∀ e ∈ chain, K.hash e.1 % chains.length = i

@[simp] theorem length_setChain (chains : List (List (κ × ν))) (k : κ) (chain : List (κ × ν)) :
    (K.setChain chains k chain).length = chains.length := List.length_set

@[simp] theorem length_push (chains : List (List (κ × ν))) (e : κ × ν) :
    (K.push chains e).length = chains.length := length_setChain ..

theorem getElem?_chainOf {chains : List (List (κ × ν))} (hpos : 0 < chains.length) (k : κ) :
    chains[K.hash k % chains.length]? = some (K.chainOf chains k) := by
  have hlt : K.hash k % chains.length < chains.length := Nat.mod_lt _ hpos
  rw [chainOf, List.getD_eq_getElem?_getD, List.getElem?_eq_getElem hlt, Option.getD_some]

/-- The entries around a chain, which stay where they are when the chain changes. -/
theorem flatten_setChain {chains : List (List (κ × ν))} (hpos : 0 < chains.length) (k : κ) :
    ∃ front back, chains.flatten = front ++ K.chainOf chains k ++ back ∧
      (∀ chain, (K.setChain chains k chain).flatten = front ++ chain ++ back) ∧
      (K.Placed chains → ∀ e ∈ front ++ back, K.hash e.1 % chains.length ≠
        K.hash k % chains.length) := by
  have hchain := getElem?_chainOf (K := K) hpos k
  obtain ⟨hlt, hget⟩ := List.getElem?_eq_some_iff.mp hchain
  generalize hi : K.hash k % chains.length = i at hchain hlt hget
  refine ⟨(chains.take i).flatten, (chains.drop (i + 1)).flatten, ?_, ?_, ?_⟩
  · calc chains.flatten = (chains.take i ++ chains.drop i).flatten := by
          rw [List.take_append_drop]
      _ = (chains.take i).flatten ++ (chains.drop i).flatten := List.flatten_append
      _ = (chains.take i).flatten ++ K.chainOf chains k ++ (chains.drop (i + 1)).flatten := by
          rw [List.drop_eq_getElem_cons hlt, List.flatten_cons, hget, List.append_assoc]
  · intro chain
    rw [setChain, hi, List.set_eq_take_append_cons_drop, if_pos hlt, List.flatten_append,
      List.flatten_cons, List.append_assoc]
  · intro hplaced e he heq
    rw [List.mem_append, List.mem_flatten, List.mem_flatten] at he
    rcases he with ⟨chain, hmem, he⟩ | ⟨chain, hmem, he⟩
    · obtain ⟨j, hj⟩ := List.mem_iff_getElem?.mp hmem
      have hji : j < i := by
        have := (List.getElem?_eq_some_iff.mp hj).1
        rw [List.length_take] at this
        omega
      rw [List.getElem?_take_of_lt hji] at hj
      have := hplaced j chain hj e he
      omega
    · obtain ⟨j, hj⟩ := List.mem_iff_getElem?.mp hmem
      rw [List.getElem?_drop] at hj
      have := hplaced _ chain hj e he
      omega

/-- The chain of a key says of it what all the entries say. -/
theorem find_chainOf (hK : K.Lawful) {chains : List (List (κ × ν))} (hpos : 0 < chains.length)
    (hplaced : K.Placed chains) (k : κ) :
    K.find k (K.chainOf chains k) = K.find k chains.flatten := by
  obtain ⟨front, back, hflat, -, hother⟩ := flatten_setChain (K := K) hpos k
  have hnone : ∀ part, (∀ e ∈ part, e ∈ front ++ back) → K.find k part = none := by
    intro part hpart
    apply find_eq_none_iff.mpr
    intro e he
    cases hsame : K.same k e.1 with
    | false => rfl
    | true =>
        apply absurd _ (hother hplaced e (hpart e he))
        rw [hK.hash_eq _ _ hsame]
  rw [hflat, find_append, find_append, hnone front fun e he => List.mem_append_left _ he,
    hnone back fun e he => List.mem_append_right _ he]
  simp

theorem Placed.setChain {chains : List (List (κ × ν))} (hplaced : K.Placed chains) {k : κ}
    {chain : List (κ × ν)}
    (hchain : ∀ e ∈ chain, K.hash e.1 % chains.length = K.hash k % chains.length) :
    K.Placed (K.setChain chains k chain) := by
  intro i c hc e he
  rw [length_setChain]
  rw [Keying.setChain, List.getElem?_set] at hc
  split at hc
  · next hi =>
      split at hc
      · obtain rfl := Option.some.inj hc
        rw [hchain e he, hi]
      · cases hc
  · exact hplaced i c hc e he

theorem Placed.chainOf {chains : List (List (κ × ν))} (hpos : 0 < chains.length)
    (hplaced : K.Placed chains) (k : κ) :
    ∀ e ∈ K.chainOf chains k, K.hash e.1 % chains.length = K.hash k % chains.length :=
  hplaced _ _ (getElem?_chainOf hpos k)

theorem Placed.push {chains : List (List (κ × ν))} (hpos : 0 < chains.length)
    (hplaced : K.Placed chains) (e : κ × ν) : K.Placed (K.push chains e) := by
  apply hplaced.setChain
  intro a ha
  rcases List.mem_cons.mp ha with rfl | ha
  · rfl
  · exact hplaced.chainOf hpos e.1 a ha

theorem flatten_push_perm {chains : List (List (κ × ν))} (hpos : 0 < chains.length) (e : κ × ν) :
    (K.push chains e).flatten.Perm (e :: chains.flatten) := by
  obtain ⟨front, back, hflat, hset, -⟩ := flatten_setChain (K := K) hpos e.1
  rw [push, hset, hflat, List.append_assoc, List.append_assoc, List.cons_append]
  exact List.perm_middle

/-! ## Spreading entries over new chains -/

variable (K) in
/-- Put entries at the front of their chains, one after the other. -/
def pushAll (chains : List (List (κ × ν))) (entries : List (κ × ν)) : List (List (κ × ν)) :=
  entries.foldl K.push chains

@[simp] theorem length_pushAll (chains : List (List (κ × ν))) (entries : List (κ × ν)) :
    (K.pushAll chains entries).length = chains.length := by
  induction entries generalizing chains with
  | nil => rfl
  | cons e rest ih => rw [pushAll, List.foldl_cons, ← pushAll, ih, length_push]

theorem Placed.pushAll {chains : List (List (κ × ν))} (hpos : 0 < chains.length)
    (hplaced : K.Placed chains) (entries : List (κ × ν)) : K.Placed (K.pushAll chains entries) := by
  induction entries generalizing chains with
  | nil => exact hplaced
  | cons e rest ih =>
      rw [Keying.pushAll, List.foldl_cons, ← Keying.pushAll]
      exact ih (by rwa [length_push]) (hplaced.push hpos e)

theorem flatten_pushAll_perm {chains : List (List (κ × ν))} (hpos : 0 < chains.length)
    (entries : List (κ × ν)) :
    (K.pushAll chains entries).flatten.Perm (entries ++ chains.flatten) := by
  induction entries generalizing chains with
  | nil => exact List.Perm.refl _
  | cons e rest ih =>
      rw [pushAll, List.foldl_cons, ← pushAll]
      calc (K.pushAll (K.push chains e) rest).flatten
          ~ rest ++ (K.push chains e).flatten := ih (by rwa [length_push])
        _ ~ rest ++ e :: chains.flatten := (flatten_push_perm hpos e).append_left rest
        _ ~ e :: rest ++ chains.flatten := List.perm_middle

variable (K) in
/-- Empty chains have every entry in place. -/
theorem placed_replicate (n : Nat) : K.Placed (List.replicate n ([] : List (κ × ν))) := by
  intro i chain hchain e he
  rw [List.eq_of_mem_replicate (List.mem_of_getElem? hchain)] at he
  cases he

end Keying

end XHDF5.Math
