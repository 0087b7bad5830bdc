/-
# The selection of a read request in the plugin

`Xrd_read_dataset_info_by_chunked` parses the `select` parameter by its own rules: fields are cut
with `std::getline`, the first two of a dimension are read with `std::stoi`, and all others are
dropped. The two numbers become a dense hyperslab, so the step has no effect.
-/

import XHDF5.Client.Split

namespace XHDF5.Plugin

open XHDF5.Math XHDF5.Client

/-- What one token of the outer loop appends to `result1` and `result2`. -/
def parseToken (token : Text) : Option (List Int × List Int) :=
  match getlines ':' token with
  | [] => some ([], [])
  | [first] => (stoi first).map fun value => ([value], [])
  | first :: second :: _ => do pure ([← stoi first], [← stoi second])

/-- `result1` and `result2`; `none` when `substr` or `std::stoi` throws. -/
def parseSelect (select : Text) : Option (List Int × List Int) :=
  if select = [] then none
  else do
    let results ← (getlines ',' (select.drop 1).dropLast).mapM parseToken
    pure ((results.map Prod.fst).flatten, (results.map Prod.snd).flatten)

/-- The arguments `offset` and `count` of `H5Sselect_hyperslab`. The loop reads `result1` once
for each entry of `result2`, and the library reads `rank` entries of both arrays. -/
def selectHyperslab (rank : Nat) (select : Text) : Option (List Nat × List Nat) := do
  let (result1, result2) ← parseSelect select
  if result1.length = rank ∧ result2.length = rank then do
    let count ← (List.zipWith (fun stop start => stop - start) result2 result1).mapM cint
    pure (result1.map toSize, count.map toSize)
  else none

/-- The elements that `Xrd_read_dataset_info_by_chunked` reads, as a dense selection. Outside the
extent `H5Dread` fails, and the buffer it was to fill is sent as `malloc` returned it. -/
def xrdReadDatasetInfoByChunked (dims : List Nat) (select : Text) : Option Box := do
  let (offset, count) ← selectHyperslab dims.length select
  let box := List.zipWith (fun start extent => (start, start + extent)) offset count
  if ∀ bound ∈ List.zip box dims, bound.1.2 ≤ bound.2 then some box else none

/-! ## Reading a parameter -/

theorem parseToken_tripleText (start stop step : Nat) :
    parseToken (tripleText start stop step) =
      if start < 2 ^ 31 ∧ stop < 2 ^ 31 then some ([(start : Int)], [(stop : Int)]) else none := by
  rw [parseToken, getlines_tripleText]
  by_cases hstart : start < 2 ^ 31
  · by_cases hstop : stop < 2 ^ 31
    · simp only [stoi_decimal, if_pos hstart, if_pos hstop, if_pos (And.intro hstart hstop)]
      rfl
    · rw [if_neg fun h => hstop h.2]
      simp only [stoi_decimal, if_pos hstart, if_neg hstop]
      rfl
  · rw [if_neg fun h => hstart h.1]
    simp only [stoi_decimal, if_neg hstart]
    rfl

/-- The plugin recovers the bounds of a parameter and drops its steps. -/
theorem parseSelect_paramText (triples : List (Nat × Nat × Nat)) (hne : triples ≠ []) :
    parseSelect (paramText (triples.map fun t => tripleText t.1 t.2.1 t.2.2)) =
      if ∀ t ∈ triples, t.1 < 2 ^ 31 ∧ t.2.1 < 2 ^ 31 then
        some (triples.map fun t => (t.1 : Int), triples.map fun t => (t.2.1 : Int))
      else none := by
  have htokens : getlines ',' ([','].intercalate (triples.map fun t => tripleText t.1 t.2.1 t.2.2)) =
      triples.map fun t => tripleText t.1 t.2.1 t.2.2 := by
    refine getlines_intercalate ?_ (by simpa using hne) ?_
    · intro word hword
      obtain ⟨t, _, rfl⟩ := List.mem_map.mp hword
      exact not_mem_tripleText (by decide) (by decide)
    · intro hlast
      obtain ⟨t, _, hnil⟩ := List.mem_map.mp (List.mem_of_getLast? hlast)
      exact tripleText_ne_nil _ _ _ hnil
  have hparse : (triples.map fun t => tripleText t.1 t.2.1 t.2.2).mapM parseToken =
      triples.mapM fun t => if t.1 < 2 ^ 31 ∧ t.2.1 < 2 ^ 31 then
        some ([(t.1 : Int)], [(t.2.1 : Int)]) else none := by
    rw [List.mapM_map]
    exact congrArg (List.mapM · triples) (funext fun t => parseToken_tripleText _ _ _)
  rw [parseSelect, if_neg (by simp [paramText]), strip_paramText, htokens, hparse,
    mapM_check (fun t : Nat × Nat × Nat => t.1 < 2 ^ 31 ∧ t.2.1 < 2 ^ 31)]
  split
  · simp only [Option.bind_eq_bind, Option.bind_some, ← List.flatMap_def, List.flatMap_map,
      ← List.map_eq_flatMap]
    rfl
  · rfl

/-- The arguments for the library are the starts and the extents. -/
theorem selectHyperslab_paramText {triples : List (Nat × Nat × Nat)} (hne : triples ≠ [])
    (hlt : ∀ t ∈ triples, t.1 < t.2.1) :
    selectHyperslab triples.length (paramText (triples.map fun t => tripleText t.1 t.2.1 t.2.2)) =
      if ∀ t ∈ triples, t.2.1 < 2 ^ 31 then
        some (triples.map fun t => t.1, triples.map fun t => t.2.1 - t.1)
      else none := by
  have hbounds : (∀ t ∈ triples, t.1 < 2 ^ 31 ∧ t.2.1 < 2 ^ 31) ↔ ∀ t ∈ triples, t.2.1 < 2 ^ 31 :=
    forall₂_congr fun t ht => and_iff_right_of_imp (hlt t ht).trans
  rw [selectHyperslab, parseSelect_paramText triples hne]
  simp only [hbounds]
  by_cases hrange : ∀ t ∈ triples, t.2.1 < 2 ^ 31
  · have hcount : (List.zipWith (fun stop start : Int => stop - start)
        (triples.map fun t => (t.2.1 : Int)) (triples.map fun t => (t.1 : Int))).mapM cint =
        some (triples.map fun t => ((t.2.1 - t.1 : Nat) : Int)) := by
      rw [List.zipWith_map, List.zipWith_self, List.mapM_map]
      refine mapM_eq_some_map fun t ht => ?_
      rw [Function.comp_apply, ← Nat.cast_sub (hlt t ht).le]
      exact cint_natCast_of_lt (lt_of_le_of_lt (Nat.sub_le _ _) (hrange t ht))
    have hsize (value : Nat × Nat × Nat → Nat) (hvalue : ∀ t ∈ triples, value t < 2 ^ 31) :
        (triples.map fun t => (value t : Int)).map toSize = triples.map value := by
      rw [List.map_map]
      exact List.map_congr_left fun t ht => toSize_natCast ((hvalue t ht).trans (by decide))
    have hstart : ∀ t ∈ triples, t.1 < 2 ^ 31 := fun t ht => (hlt t ht).trans (hrange t ht)
    have hextent : ∀ t ∈ triples, t.2.1 - t.1 < 2 ^ 31 := fun t ht =>
      lt_of_le_of_lt (Nat.sub_le _ _) (hrange t ht)
    rw [if_pos hrange, if_pos hrange, Option.bind_eq_bind, Option.bind_some,
      if_pos ⟨by simp, by simp⟩, hcount, Option.bind_eq_bind, Option.bind_some,
      hsize _ hstart, hsize _ hextent]
    rfl
  · rw [if_neg hrange, if_neg hrange]
    rfl

/-- A parameter whose bounds lie inside the extent and are `int`s is read as the dense selection
between its starts and its stops. -/
theorem xrdReadDatasetInfoByChunked_paramText {triples : List (Nat × Nat × Nat)} {dims : List Nat}
    (hne : triples ≠ [])
    (hinside : List.Forall₂ (fun t extent => t.1 < t.2.1 ∧ t.2.1 ≤ extent) triples dims) :
    xrdReadDatasetInfoByChunked dims (paramText (triples.map fun t => tripleText t.1 t.2.1 t.2.2)) =
      if ∀ t ∈ triples, t.2.1 < 2 ^ 31 then some (triples.map fun t => (t.1, t.2.1)) else none := by
  have hlt : ∀ t ∈ triples, t.1 < t.2.1 := fun t ht => by
    obtain ⟨k, hk, rfl⟩ := List.getElem_of_mem ht
    exact (hinside.get hk (hinside.length_eq ▸ hk)).1
  rw [xrdReadDatasetInfoByChunked, ← hinside.length_eq, selectHyperslab_paramText hne hlt]
  split
  · have hbox : List.zipWith (fun start extent => (start, start + extent))
        (triples.map fun t => t.1) (triples.map fun t => t.2.1 - t.1) =
          triples.map fun t => (t.1, t.2.1) := by
      rw [List.zipWith_map, List.zipWith_self]
      exact List.map_congr_left fun t ht =>
        Prod.ext rfl (Nat.add_sub_cancel' (hlt t ht).le)
    have hfit : ∀ bound ∈ List.zip (triples.map fun t => (t.1, t.2.1)) dims,
        bound.1.2 ≤ bound.2 := by
      rw [List.zip_map_left, List.forall_mem_map]
      exact fun pair hpair => (List.forall₂_zip hinside hpair).2
    simp only [Option.bind_eq_bind, Option.bind_some, hbox]
    exact if_pos hfit
  · rfl

end XHDF5.Plugin
