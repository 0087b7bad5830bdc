/-
# Cutting a selection for several servers

With more than one server `RV_dataset_read` parses its own request parameter back into bounds,
picks the first dimension whose stop is at least the number of servers, and prints one parameter
for each server with that dimension cut into consecutive parts. The parts of the data are later
placed one behind the other, so the cut is right only if that is the row-major order.

The vectors of the source hold `int`s; a list stands for one. Undefined behaviour is `none`:
reading an uninitialised variable, signed overflow, and writing past `char buffer[20]`.
-/

import XHDF5.Client.Selection

namespace XHDF5.Client

open XHDF5.Math

/-! ## The code -/

/-- One round of the outer loop of `processInput`. The variables `value1` and `value2` have no
initial value, so a token with fewer than two fields pushes an indeterminate one. -/
def processToken (token : Text) : Option (Int × Int) :=
  match strtok (· == ':') token with
  | value1 :: value2 :: _ => do pure (← atoi value1, ← atoi value2)
  | _ => none

/-- `processInput`: the two result vectors. -/
def processInput (input : Text) : Option (List Int × List Int) := do
  let pairs ← (strtok (· == ',') input).mapM processToken
  pure pairs.unzip

/-- `sprintf(buffer, "%d:%d:1", offset->data[i], vector->data[i])`. -/
def dimText (offset value : Int) : Text :=
  [':'].intercalate [decimalInt offset, decimalInt value, ['1']]

/-- `vector_to_string`. The total is computed from `"[%d:%d:1]"` for each dimension, plus the
commas and the terminator. -/
def vectorToString (vector offset : List Int) : Option Text :=
  if offset.length < vector.length then none
  else
    let dims := List.zipWith dimText offset vector
    let totalLength := (dims.map fun dim => dim.length + 2).sum + vector.length
    let result := '[' :: [','].intercalate dims ++ [']']
    if (∀ dim ∈ dims, dim.length + 1 ≤ 20) ∧ result.length + 1 ≤ totalLength then some result
    else none

/-- `currentEnd` in the `i`-th round of the loop below. -/
def partEnd (elementsPerPart remainingElements : Int) (i : Nat) (currentStart : Int) :
    Option Int :=
  if (i : Int) < remainingElements then do
    let elementsInThisPart ← cint (elementsPerPart + 1)
    cint (currentStart + elementsInThisPart)
  else cint (currentStart + elementsPerPart)

/-- The loop of `splitRangeAndGetInfo` from its `i`-th round on: the node sizes and the
selections of the remaining nodes. -/
def splitLoop (j : Nat) (sum elementsPerPart remainingElements : Int) :
    Nat → Nat → Int → List Int → List Int → Option (List (Nat × Text))
  | 0, _, _, _, _ => some []
  | todo + 1, i, currentStart, count, offset => do
      let currentEnd ← partEnd elementsPerPart remainingElements i currentStart
      let count := count.set j currentEnd
      let offset := offset.set j currentStart
      let nodeSize ← cint ((currentEnd - currentStart) * sum)
      let selectStr ← vectorToString count offset
      let rest ← splitLoop j sum elementsPerPart remainingElements todo (i + 1) currentEnd
        count offset
      pure ((toSize nodeSize, selectStr) :: rest)

/-- `splitRangeAndGetInfo`: the node sizes and the selections of the `n` nodes. -/
def splitRangeAndGetInfo (j n : Nat) (sum : Int) (count offset : List Int) :
    Option (List (Nat × Text)) := do
  let stop ← count[j]?
  let start ← offset[j]?
  let rangeSize ← cint (stop - start)
  splitLoop j sum (rangeSize.tdiv n) (rangeSize.tmod n) n 0 start count offset

/-- The loop over the dimensions that multiplies the extents of all but the `i`-th. -/
def sumLoop (i : Nat) : Nat → List Int → List Int → Int → Option Int
  | j, stop :: count, start :: offset, sum =>
      if i ≠ j then do
        let extent ← cint (stop - start)
        let sum ← cint (sum * extent)
        sumLoop i (j + 1) count offset sum
      else sumLoop i (j + 1) count offset sum
  | _, _, _, sum => some sum

/-- The cut in `RV_dataset_read` of a selection body for `n` nodes: `flag_Node`, and what
`splitRangeAndGetInfo` stored if it was called. `flag_Node` is set for good by the first dataset
that has a dimension to cut. A body of fewer than two characters is read before its beginning. -/
def cutSelection (n : Nat) (flagNode : Bool) (selectionBody : Text) :
    Option (Bool × Option (List (Nat × Text))) := do
  if selectionBody.length < 2 then none
  else do
    let (offset, count) ← processInput (selectionBody.drop 1).dropLast
    let i := count.findIdx fun stop => decide ((n : Int) ≤ stop)
    let flagNode := flagNode || decide (i < count.length)
    let sum ← sumLoop i 0 count offset 1
    if flagNode then do
      let nodes ← splitRangeAndGetInfo i n sum count offset
      pure (true, some nodes)
    else pure (false, none)

/-! ## Reading the parameter -/

theorem processToken_tripleText (start stop step : Nat) :
    processToken (tripleText start stop step) =
      if start < 2 ^ 31 ∧ stop < 2 ^ 31 then some ((start : Int), (stop : Int)) else none := by
  rw [processToken, strtok_tripleText]
  by_cases hstart : start < 2 ^ 31
  · by_cases hstop : stop < 2 ^ 31
    · simp only [atoi_decimal, if_pos hstart, if_pos hstop, if_pos (And.intro hstart hstop)]
      rfl
    · rw [if_neg fun h => hstop h.2]
      simp only [atoi_decimal, if_pos hstart, if_neg hstop]
      rfl
  · rw [if_neg fun h => hstart h.1]
    simp only [atoi_decimal, if_neg hstart]
    rfl

/-- `processInput` recovers the bounds of a parameter and ignores its steps. -/
theorem processInput_triples (triples : List (Nat × Nat × Nat)) :
    processInput ([','].intercalate (triples.map fun t => tripleText t.1 t.2.1 t.2.2)) =
      if ∀ t ∈ triples, t.1 < 2 ^ 31 ∧ t.2.1 < 2 ^ 31 then
        some (triples.map fun t => (t.1 : Int), triples.map fun t => (t.2.1 : Int))
      else none := by
  have htokens : strtok (· == ',')
      ([','].intercalate (triples.map fun t => tripleText t.1 t.2.1 t.2.2)) =
        triples.map fun t => tripleText t.1 t.2.1 t.2.2 := by
    refine strtok_intercalate ?_ ?_
    · intro word hword
      obtain ⟨t, _, rfl⟩ := List.mem_map.mp hword
      exact not_mem_tripleText (by decide) (by decide)
    · intro word hword
      obtain ⟨t, _, rfl⟩ := List.mem_map.mp hword
      exact tripleText_ne_nil _ _ _
  have hparse : (triples.map fun t => tripleText t.1 t.2.1 t.2.2).mapM processToken =
      triples.mapM fun t => if t.1 < 2 ^ 31 ∧ t.2.1 < 2 ^ 31 then
        some ((t.1 : Int), (t.2.1 : Int)) else none := by
    rw [List.mapM_map]
    exact congrArg (List.mapM · triples) (funext fun t => processToken_tripleText _ _ _)
  rw [processInput, htokens, hparse,
    mapM_check (fun t : Nat × Nat × Nat => t.1 < 2 ^ 31 ∧ t.2.1 < 2 ^ 31)]
  split
  · simp [List.unzip_eq_map]
  · rfl

theorem strip_paramText (triples : List Text) :
    ((paramText triples).drop 1).dropLast = [','].intercalate triples := by
  simp [paramText]

/-! ## Printing the parameter -/

/-- Every dimension of the selection fits `char buffer[20]` with its colons, step and NUL. -/
def FitsBuffer (box : Box) : Prop :=
  ∀ d ∈ box, (decimal d.1).length + (decimal d.2).length ≤ 16

instance (box : Box) : Decidable (FitsBuffer box) :=
  inferInstanceAs (Decidable (∀ d ∈ box, _))

theorem dimText_natCast (start stop : Nat) : dimText start stop = tripleText start stop 1 := by
  rfl

theorem length_intercalate_comma (words : List Text) (hne : words ≠ []) :
    ([','].intercalate words).length + 1 = (words.map List.length).sum + words.length := by
  induction words with
  | nil => exact absurd rfl hne
  | cons word words ih =>
      cases words with
      | nil => simp [List.intercalate]
      | cons next words =>
          have hrest := ih (by simp)
          simp only [List.intercalate, List.intersperse_cons_cons, List.flatten_cons,
            List.length_append, List.map_cons, List.sum_cons, List.length_cons] at hrest ⊢
          simp only [List.length_nil]
          omega

/-- The result buffer is always large enough; only the buffer of a dimension can be too small. -/
theorem vectorToString_box (box : Box) (hne : box ≠ []) :
    vectorToString (box.map fun d => (d.2 : Int)) (box.map fun d => (d.1 : Int)) =
      if FitsBuffer box then some (selectText box) else none := by
  have hdims : List.zipWith dimText (box.map fun d => (d.1 : Int))
      (box.map fun d => (d.2 : Int)) = box.map fun d => tripleText d.1 d.2 1 := by
    simp [List.zipWith_map, dimText_natCast, List.zipWith_self]
  have hone : (decimal 1).length = 1 := by decide
  have hfits : (∀ dim ∈ box.map fun d => tripleText d.1 d.2 1, dim.length + 1 ≤ 20) ↔
      FitsBuffer box := by
    simp only [List.forall_mem_map, length_tripleText, hone, FitsBuffer]
    exact forall₂_congr fun d _ => by omega
  have hroom : ('[' :: [','].intercalate (box.map fun d => tripleText d.1 d.2 1) ++
      [']']).length + 1 ≤
        ((box.map fun d => tripleText d.1 d.2 1).map fun dim => dim.length + 2).sum +
          (box.map fun d => (d.2 : Int)).length := by
    have hlen := length_intercalate_comma (box.map fun d => tripleText d.1 d.2 1) (by simpa)
    have hbox : 0 < box.length := List.length_pos_iff.mpr hne
    simp only [List.sum_map_add, List.map_const', List.sum_replicate, List.length_map,
      nsmul_eq_mul, Nat.cast_id, List.length_append, List.length_cons, List.length_nil] at hlen ⊢
    omega
  unfold vectorToString
  rw [if_neg (by simp)]
  simp only [hdims, hfits, and_iff_left hroom]
  rfl

/-! ## The loops -/

section Loops

variable (outer : Box) (start len n : Nat) (inner : Box) (sum : Nat)

/-- The selection of the `k`-th node when the dimension behind `outer` is cut. -/
def nodeBox (k : Nat) : Box :=
  outer ++ (cutPoint start len n k, cutPoint start len n (k + 1)) :: inner

/-- The size of the `k`-th node: its extent along the cut dimension times the others. -/
def nodePoints (k : Nat) : Nat :=
  (cutPoint start len n (k + 1) - cutPoint start len n k) * sum

/-- The `k`-th round of `splitRangeAndGetInfo` stays within its types and buffers. -/
def NodeDefined (k : Nat) : Prop :=
  cutPoint start len n (k + 1) < 2 ^ 31 ∧ nodePoints start len n sum k < 2 ^ 31 ∧
    FitsBuffer (nodeBox outer start len n inner k)

instance (k : Nat) : Decidable (NodeDefined outer start len n inner sum k) :=
  inferInstanceAs (Decidable (_ ∧ _ ∧ _))

variable {outer start len n inner sum}

theorem partEnd_cutPoint (i : Nat) :
    partEnd (len / n : Nat) (len % n : Nat) i (cutPoint start len n i) =
      if cutPoint start len n (i + 1) < 2 ^ 31 then some (cutPoint start len n (i + 1) : Int)
      else none := by
  have hsucc := cutPoint_succ start len (n := n) i
  unfold partEnd
  by_cases hi : i < len % n
  · rw [if_pos hi] at hsucc
    rw [if_pos (by exact_mod_cast hi), ← Nat.cast_succ, cint_natCast]
    by_cases hper : len / n + 1 < 2 ^ 31
    · rw [if_pos hper, Option.bind_eq_bind, Option.bind_some, ← Nat.cast_add, ← hsucc,
        cint_natCast]
    · rw [if_neg hper, if_neg (by omega)]
      rfl
  · rw [if_neg hi] at hsucc
    rw [if_neg (by exact_mod_cast hi), ← Nat.cast_add, cint_natCast, hsucc, Nat.add_zero]

theorem nodePoints_cast (k : Nat) :
    ((cutPoint start len n (k + 1) : Int) - cutPoint start len n k) * sum =
      (nodePoints start len n sum k : Nat) := by
  have hle : cutPoint start len n k ≤ cutPoint start len n (k + 1) :=
    cutPoint_mono _ _ (Nat.le_add_right k 1)
  rw [nodePoints, Nat.cast_mul, Nat.cast_sub hle]

theorem map_nodeBox {α : Type} (value : Nat × Nat → α) (k : Nat) :
    (nodeBox outer start len n inner k).map value = outer.map value ++
      value (cutPoint start len n k, cutPoint start len n (k + 1)) :: inner.map value := by
  simp [nodeBox]

/-- One round either leaves its types and buffers, or cuts off the next balanced part. -/
theorem splitLoop_succ (todo i : Nat) (stop' start' : Int) :
    splitLoop outer.length sum (len / n : Nat) (len % n : Nat) (todo + 1) i
        (cutPoint start len n i)
        ((outer.map fun d => (d.2 : Int)) ++ stop' :: inner.map fun d => (d.2 : Int))
        ((outer.map fun d => (d.1 : Int)) ++ start' :: inner.map fun d => (d.1 : Int)) =
      if NodeDefined outer start len n inner sum i then
        (splitLoop outer.length sum (len / n : Nat) (len % n : Nat) todo (i + 1)
          (cutPoint start len n (i + 1))
          ((nodeBox outer start len n inner i).map fun d => (d.2 : Int))
          ((nodeBox outer start len n inner i).map fun d => (d.1 : Int))).map
            fun rest => (nodePoints start len n sum i,
              selectText (nodeBox outer start len n inner i)) :: rest
      else none := by
  have hset (x y : Int) (value : Nat × Nat → Int) :
      (outer.map value ++ x :: inner.map value).set outer.length y =
        outer.map value ++ y :: inner.map value := by
    simp
  have hvector := vectorToString_box (nodeBox outer start len n inner i) (by simp [nodeBox])
  rw [map_nodeBox, map_nodeBox] at hvector ⊢
  rw [splitLoop, partEnd_cutPoint]
  by_cases hend : cutPoint start len n (i + 1) < 2 ^ 31
  · rw [if_pos hend, Option.bind_eq_bind, Option.bind_some]
    simp only [hset, nodePoints_cast, hvector, cint_natCast]
    by_cases hsize : nodePoints start len n sum i < 2 ^ 31
    · by_cases hfits : FitsBuffer (nodeBox outer start len n inner i)
      · have hnode : NodeDefined outer start len n inner sum i := ⟨hend, hsize, hfits⟩
        have hnodeSize : toSize (nodePoints start len n sum i : Int) =
            nodePoints start len n sum i :=
          toSize_natCast (hsize.trans (by decide))
        rw [if_pos hsize, if_pos hfits, if_pos hnode]
        simp only [Option.bind_eq_bind, Option.bind_some, hnodeSize]
        exact Option.map_eq_bind.symm
      · have hnode : ¬ NodeDefined outer start len n inner sum i := fun h => hfits h.2.2
        rw [if_pos hsize, if_neg hfits, if_neg hnode]
        rfl
    · have hnode : ¬ NodeDefined outer start len n inner sum i := fun h => hsize h.2.1
      rw [if_neg hsize, if_neg hnode]
      rfl
  · have hnode : ¬ NodeDefined outer start len n inner sum i := fun h => hend h.1
    rw [if_neg hend, if_neg hnode]
    rfl

/-- The loop stores the balanced parts, provided every round is defined. -/
theorem splitLoop_eq (todo i : Nat) (stop' start' : Int) :
    splitLoop outer.length sum (len / n : Nat) (len % n : Nat) todo i (cutPoint start len n i)
        ((outer.map fun d => (d.2 : Int)) ++ stop' :: inner.map fun d => (d.2 : Int))
        ((outer.map fun d => (d.1 : Int)) ++ start' :: inner.map fun d => (d.1 : Int)) =
      if ∀ k ∈ List.range' i todo, NodeDefined outer start len n inner sum k then
        some ((List.range' i todo).map fun k => (nodePoints start len n sum k,
          selectText (nodeBox outer start len n inner k)))
      else none := by
  induction todo generalizing i stop' start' with
  | zero => simp [splitLoop]
  | succ todo ih =>
      have hnext := ih (i + 1) (cutPoint start len n (i + 1)) (cutPoint start len n i)
      rw [splitLoop_succ, map_nodeBox, map_nodeBox, hnext, List.range'_succ]
      by_cases hnode : NodeDefined outer start len n inner sum i
      · by_cases hrest : ∀ k ∈ List.range' (i + 1) todo, NodeDefined outer start len n inner sum k
        · rw [if_pos hnode, if_pos hrest, if_pos (List.forall_mem_cons.mpr ⟨hnode, hrest⟩)]
          rfl
        · rw [if_pos hnode, if_neg hrest, if_neg fun h => hrest (List.forall_mem_cons.mp h).2]
          rfl
      · rw [if_neg hnode, if_neg fun h => hnode (List.forall_mem_cons.mp h).1]

/-- The rounds that come out worst decide: the first part is the largest, and the last one has
the longest numerals. -/
theorem forall_nodeDefined_iff (hn : 0 < n) :
    (∀ k ∈ List.range n, NodeDefined outer start len n inner sum k) ↔
      start + len < 2 ^ 31 ∧ nodePoints start len n sum 0 < 2 ^ 31 ∧
        FitsBuffer (outer ++ inner) ∧
          (decimal (start + len - len / n)).length + (decimal (start + len)).length ≤ 16 := by
  have hlast := cutPoint_last start len hn
  have hpred : n - 1 + 1 = n := Nat.sub_add_cancel hn
  constructor
  · intro hnodes
    have hfirst := hnodes 0 (List.mem_range.mpr hn)
    obtain ⟨hend, -, hfits⟩ := hnodes (n - 1) (List.mem_range.mpr (Nat.sub_lt hn one_pos))
    rw [hpred, hlast] at hend
    refine ⟨hend, hfirst.2.1, fun d hd => hfits d ?_, ?_⟩
    · rcases List.mem_append.mp hd with houter | hinner
      · exact List.mem_append_left _ houter
      · exact List.mem_append_right _ (List.mem_cons_of_mem _ hinner)
    · have hcut := hfits _ (List.mem_append_right _ List.mem_cons_self)
      rwa [hpred, hlast, cutPoint_pred _ _ hn] at hcut
  · rintro ⟨hend, hsize, hfits, hdigits⟩ k hk
    have hk : k + 1 ≤ n := List.mem_range.mp hk
    refine ⟨?_, ?_, fun d hd => ?_⟩
    · exact lt_of_le_of_lt (cutPoint_mono _ _ hk) (hlast ▸ hend)
    · refine lt_of_le_of_lt (Nat.mul_le_mul_right sum ?_) hsize
      simpa using cutPoint_gap_le start len (n := n) k
    · rcases List.mem_append.mp hd with houter | hcut
      · exact hfits d (List.mem_append_left _ houter)
      · rcases List.mem_cons.mp hcut with rfl | hinner
        · have hstart := length_decimal_mono
            (cutPoint_mono start len (n := n) (Nat.le_sub_one_of_lt hk))
          have hstop := length_decimal_mono
            (cutPoint_mono start len (n := n) hk)
          rw [cutPoint_pred _ _ hn] at hstart
          rw [hlast] at hstop
          exact (Nat.add_le_add hstart hstop).trans hdigits
        · exact hfits d (List.mem_append_right _ hinner)

end Loops

theorem sumLoop_append (i j : Nat) (count count' offset offset' : List Int) (sum : Int)
    (hlen : count.length = offset.length) :
    sumLoop i j (count ++ count') (offset ++ offset') sum =
      (sumLoop i j count offset sum).bind
        fun sum => sumLoop i (j + count.length) count' offset' sum := by
  induction count generalizing j offset sum with
  | nil =>
      obtain rfl : offset = [] := List.length_eq_zero_iff.mp hlen.symm
      simp [sumLoop]
  | cons stop count ih =>
      cases offset with
      | nil => cases hlen
      | cons start offset =>
          have hlen : count.length = offset.length := Nat.succ.inj hlen
          have hindex : j + (stop :: count).length = j + 1 + count.length := by
            rw [List.length_cons]; omega
          simp only [List.cons_append, sumLoop, ih _ _ _ hlen, hindex, Option.bind_eq_bind]
          split
          · cases cint (stop - start) with
            | none => rfl
            | some extent =>
                simp only [Option.bind_some]
                cases cint (sum * extent) <;> rfl
          · rfl

/-- Away from the cut dimension the loop multiplies the extents. -/
theorem sumLoop_others {i j : Nat} {box : Box} (hne : ∀ k < box.length, i ≠ j + k)
    (hbox : ∀ d ∈ box, d.1 < d.2 ∧ d.2 < 2 ^ 31) {sum : Nat} (hsum : sum < 2 ^ 31) :
    sumLoop i j (box.map fun d => (d.2 : Int)) (box.map fun d => (d.1 : Int)) sum =
      if sum * points box < 2 ^ 31 then some ((sum * points box : Nat) : Int) else none := by
  induction box generalizing j sum with
  | nil => simp only [List.map_nil, sumLoop, points, List.prod_nil, Nat.mul_one, if_pos hsum]
  | cons d box ih =>
      obtain ⟨hlt, hstop⟩ := hbox d List.mem_cons_self
      have hbox' : ∀ d ∈ box, d.1 < d.2 ∧ d.2 < 2 ^ 31 :=
        fun e he => hbox e (List.mem_cons_of_mem _ he)
      have hne' : ∀ k < box.length, i ≠ j + 1 + k := fun k hk => by
        have := hne (k + 1) (by simpa using hk)
        omega
      have hpos : 0 < points box := points_pos fun e he => (hbox' e he).1
      have hprod : sum * points (d :: box) = sum * (d.2 - d.1) * points box := by
        simp [points, Nat.mul_assoc]
      have hi : i ≠ j := by simpa using hne 0 (by simp)
      have hextent : cint ((d.2 : Int) - d.1) = some ((d.2 - d.1 : Nat) : Int) := by
        rw [← Nat.cast_sub hlt.le]
        exact cint_natCast_of_lt (lt_of_le_of_lt (Nat.sub_le _ _) hstop)
      simp only [List.map_cons, sumLoop]
      rw [if_pos hi, hextent, Option.bind_eq_bind, Option.bind_some, ← Nat.cast_mul,
        cint_natCast, hprod]
      by_cases hlow : sum * (d.2 - d.1) < 2 ^ 31
      · rw [if_pos hlow]
        exact ih hne' hbox' hlow
      · have hhigh : ¬ sum * (d.2 - d.1) * points box < 2 ^ 31 := fun h =>
          hlow (lt_of_le_of_lt (Nat.le_mul_of_pos_right _ hpos) h)
        rw [if_neg hlow, if_neg hhigh]
        rfl

/-! ## The cut -/

theorem points_append (outer inner : Box) : points (outer ++ inner) = points outer * points inner := by
  simp [points]

/-- The factor handed to `splitRangeAndGetInfo`: the extents beside the cut one. -/
theorem sumLoop_cut {outer inner : Box} {start stop : Nat}
    (hbox : ∀ d ∈ outer ++ (start, stop) :: inner, d.1 < d.2 ∧ d.2 < 2 ^ 31) :
    sumLoop outer.length 0 ((outer ++ (start, stop) :: inner).map fun d => (d.2 : Int))
        ((outer ++ (start, stop) :: inner).map fun d => (d.1 : Int)) 1 =
      if points (outer ++ inner) < 2 ^ 31 then some (points (outer ++ inner) : Int) else none := by
  have houter : ∀ d ∈ outer, d.1 < d.2 ∧ d.2 < 2 ^ 31 :=
    fun d hd => hbox d (List.mem_append_left _ hd)
  have hinner : ∀ d ∈ inner, d.1 < d.2 ∧ d.2 < 2 ^ 31 :=
    fun d hd => hbox d (List.mem_append_right _ (List.mem_cons_of_mem _ hd))
  have hpos : 0 < points inner := points_pos fun d hd => (hinner d hd).1
  have hskip (sum : Nat) (hsum : sum < 2 ^ 31) :
      sumLoop outer.length (0 + (outer.map fun d => (d.2 : Int)).length)
        ((stop : Int) :: inner.map fun d => (d.2 : Int))
        ((start : Int) :: inner.map fun d => (d.1 : Int)) sum =
      if sum * points inner < 2 ^ 31 then some ((sum * points inner : Nat) : Int) else none := by
    rw [Nat.zero_add, List.length_map, sumLoop, if_neg (not_not.mpr rfl)]
    exact sumLoop_others (fun k _ => by omega) hinner hsum
  have hone : sumLoop outer.length 0 (outer.map fun d => (d.2 : Int))
      (outer.map fun d => (d.1 : Int)) (1 : Nat) =
        if 1 * points outer < 2 ^ 31 then some ((1 * points outer : Nat) : Int) else none :=
    sumLoop_others (fun k hk => by omega) houter (by decide)
  rw [Nat.cast_one, Nat.one_mul] at hone
  rw [List.map_append, List.map_append, sumLoop_append _ _ _ _ _ _ _ (by simp), hone,
    points_append]
  by_cases hlow : points outer < 2 ^ 31
  · rw [if_pos hlow, Option.bind_some]
    exact hskip _ hlow
  · have hhigh : ¬ points outer * points inner < 2 ^ 31 := fun h =>
      hlow (lt_of_le_of_lt (Nat.le_mul_of_pos_right _ hpos) h)
    rw [if_neg hlow, if_neg hhigh]
    rfl

/-- The cut dimension is the first whose stop reaches the number of servers. -/
theorem findIdx_cut {n : Nat} {outer inner : Box} {start stop : Nat}
    (houter : ∀ d ∈ outer, d.2 < n) (hstop : n ≤ stop) :
    ((outer ++ (start, stop) :: inner).map fun d => (d.2 : Int)).findIdx
      (fun stop => decide ((n : Int) ≤ stop)) = outer.length := by
  have hnone : (outer.map fun d => (d.2 : Int)).findIdx (fun stop => decide ((n : Int) ≤ stop)) =
      (outer.map fun d => (d.2 : Int)).length := by
    refine List.findIdx_eq_length.mpr fun value hvalue => ?_
    obtain ⟨d, hd, rfl⟩ := List.mem_map.mp hvalue
    have := houter d hd
    simp only [decide_eq_false_iff_not]
    omega
  rw [List.map_append, List.findIdx_append, hnone, if_neg (lt_irrefl _), List.map_cons,
    List.findIdx_cons]
  simp [hstop]

theorem splitRangeAndGetInfo_eq {n : Nat} {outer inner : Box} {start stop sum : Nat}
    (hlt : start < stop) (hstop : stop < 2 ^ 31) :
    splitRangeAndGetInfo outer.length n sum
        ((outer ++ (start, stop) :: inner).map fun d => (d.2 : Int))
        ((outer ++ (start, stop) :: inner).map fun d => (d.1 : Int)) =
      if ∀ k ∈ List.range n, NodeDefined outer start (stop - start) n inner sum k then
        some ((List.range n).map fun k => (nodePoints start (stop - start) n sum k,
          selectText (nodeBox outer start (stop - start) n inner k)))
      else none := by
  have hentry (value : Nat × Nat → Int) :
      ((outer ++ (start, stop) :: inner).map value)[outer.length]? = some (value (start, stop)) := by
    simp
  have hrange : cint ((stop : Int) - start) = some ((stop - start : Nat) : Int) := by
    rw [← Nat.cast_sub hlt.le]
    exact cint_natCast_of_lt (lt_of_le_of_lt (Nat.sub_le _ _) hstop)
  have hloop := @splitLoop_eq outer start (stop - start) n inner sum n 0 stop start
  rw [cutPoint_zero, ← List.range_eq_range'] at hloop
  unfold splitRangeAndGetInfo
  rw [hentry, hentry]
  simp only [Option.bind_eq_bind, Option.bind_some, hrange]
  rw [List.map_append, List.map_append]
  exact hloop

/-- `processInput` reads a dense selection back when its bounds are `int`s. -/
theorem processInput_selectText {box : Box} (hlt : ∀ d ∈ box, d.1 < d.2) :
    processInput ((selectText box).drop 1).dropLast =
      if ∀ d ∈ box, d.2 < 2 ^ 31 then
        some (box.map fun d => (d.1 : Int), box.map fun d => (d.2 : Int))
      else none := by
  have hinput := processInput_triples (box.map fun d => (d.1, d.2, 1))
  have hbounds : (∀ t ∈ box.map fun d => (d.1, d.2, 1), t.1 < 2 ^ 31 ∧ t.2.1 < 2 ^ 31) ↔
      ∀ d ∈ box, d.2 < 2 ^ 31 := by
    rw [List.forall_mem_map]
    exact forall₂_congr fun d hd => and_iff_right_of_imp (hlt d hd).trans
  simp only [hbounds, List.map_map, Function.comp_def] at hinput
  rw [selectText, strip_paramText]
  exact hinput

/-- What `RV_dataset_read` stores when some dimension reaches the number of servers. -/
theorem cutSelection_eq {n : Nat} (hn : 0 < n) {outer inner : Box} {start stop : Nat}
    (hlt : ∀ d ∈ outer ++ (start, stop) :: inner, d.1 < d.2)
    (houter : ∀ d ∈ outer, d.2 < n) (hstop : n ≤ stop) (flagNode : Bool) :
    cutSelection n flagNode (selectText (outer ++ (start, stop) :: inner)) =
      if (∀ d ∈ outer ++ (start, stop) :: inner, d.2 < 2 ^ 31) ∧ ∀ k ∈ List.range n,
          NodeDefined outer start (stop - start) n inner (points (outer ++ inner)) k then
        some (true, some ((List.range n).map fun k =>
          (nodePoints start (stop - start) n (points (outer ++ inner)) k,
            selectText (nodeBox outer start (stop - start) n inner k))))
      else none := by
  have hlen : ¬ (selectText (outer ++ (start, stop) :: inner)).length < 2 := by
    simp [selectText, paramText]
  unfold cutSelection
  rw [if_neg hlen, processInput_selectText hlt]
  by_cases hbounds : ∀ d ∈ outer ++ (start, stop) :: inner, d.2 < 2 ^ 31
  · have hflag : (flagNode || decide (outer.length <
        ((outer ++ (start, stop) :: inner).map fun d => (d.2 : Int)).length)) = true := by
      simp
    have hcut : start < stop ∧ stop < 2 ^ 31 :=
      ⟨hlt (start, stop) (by simp), hbounds (start, stop) (by simp)⟩
    rw [if_pos hbounds]
    simp only [Option.bind_eq_bind, Option.bind_some, findIdx_cut houter hstop, hflag,
      sumLoop_cut fun d hd => ⟨hlt d hd, hbounds d hd⟩, if_true]
    by_cases hsum : points (outer ++ inner) < 2 ^ 31
    · rw [if_pos hsum, Option.bind_some, splitRangeAndGetInfo_eq hcut.1 hcut.2]
      by_cases hnodes : ∀ k ∈ List.range n,
          NodeDefined outer start (stop - start) n inner (points (outer ++ inner)) k
      · rw [if_pos hnodes, if_pos ⟨hbounds, hnodes⟩]
        rfl
      · rw [if_neg hnodes, if_neg fun h => hnodes h.2]
        rfl
    · -- The first node holds at least one index of the cut dimension, so it overflows as well.
      have hnodes : ¬ ∀ k ∈ List.range n,
          NodeDefined outer start (stop - start) n inner (points (outer ++ inner)) k := by
        intro h
        have hfirst := (h 0 (List.mem_range.mpr hn)).2.1
        refine hsum (lt_of_le_of_lt (Nat.le_mul_of_pos_left _ ?_) hfirst)
        exact Nat.sub_pos_of_lt ((cutPoint_zero _ _).trans_lt (lt_cutPoint_one _ _ hn (by omega)))
      rw [if_neg hsum, if_neg fun h => hnodes h.2]
      rfl
  · rw [if_neg hbounds, if_neg fun h => hbounds h.1]
    rfl

/-- Without such a dimension nothing is cut and nothing is stored. -/
theorem cutSelection_of_small {n : Nat} {box : Box} (hlt : ∀ d ∈ box, d.1 < d.2)
    (hsmall : ∀ d ∈ box, d.2 < n) (nodes : List (Nat × Text)) :
    cutSelection n false (selectText box) ≠ some (true, some nodes) := by
  have hnone : (box.map fun d => (d.2 : Int)).findIdx (fun stop => decide ((n : Int) ≤ stop)) =
      (box.map fun d => (d.2 : Int)).length := by
    refine List.findIdx_eq_length.mpr fun value hvalue => ?_
    obtain ⟨d, hd, rfl⟩ := List.mem_map.mp hvalue
    have := hsmall d hd
    simp only [decide_eq_false_iff_not]
    omega
  have hlen : ¬ (selectText box).length < 2 := by simp [selectText, paramText]
  unfold cutSelection
  rw [if_neg hlen, processInput_selectText hlt]
  split
  · simp only [Option.bind_eq_bind, Option.bind_some, hnone, lt_irrefl, decide_false,
      Bool.or_self, Bool.false_eq_true, if_false]
    intro h
    obtain ⟨sum, -, hsum⟩ := Option.bind_eq_some_iff.mp h
    simp at hsum
  · intro h
    cases h

/-- `processInput` reads a hyperslab as the interval around it. -/
theorem processInput_slabText {slabs : List Slab} {dims : List Nat}
    (hinside : List.Forall₂ Slab.Inside slabs dims) :
    processInput ((slabText slabs).drop 1).dropLast =
      if ∀ d ∈ bounds slabs, d.2 < 2 ^ 31 then
        some ((bounds slabs).map fun d => (d.1 : Int), (bounds slabs).map fun d => (d.2 : Int))
      else none := by
  have hrange : (∀ t ∈ slabs.map fun d => (d.start, d.stop, d.step),
      t.1 < 2 ^ 31 ∧ t.2.1 < 2 ^ 31) ↔ ∀ d ∈ bounds slabs, d.2 < 2 ^ 31 := by
    rw [bounds, List.forall_mem_map, List.forall_mem_map]
    refine forall₂_congr fun d hd => and_iff_right_of_imp ?_
    exact (d.start_lt_stop (forall_inside hinside hd).choose_spec).trans
  rw [slabText_eq, strip_paramText, processInput_triples]
  simp only [hrange, bounds, List.map_map]
  rfl

/-- The cut of a hyperslab is the cut of the interval around it. -/
theorem cutSelection_slabText {slabs : List Slab} {dims : List Nat}
    (hinside : List.Forall₂ Slab.Inside slabs dims) (n : Nat) (flagNode : Bool) :
    cutSelection n flagNode (slabText slabs) =
      cutSelection n flagNode (selectText (bounds slabs)) := by
  have hslab : ¬ (slabText slabs).length < 2 := by simp [slabText, paramText]
  have hbox : ¬ (selectText (bounds slabs)).length < 2 := by simp [selectText, paramText]
  unfold cutSelection
  rw [if_neg hslab, if_neg hbox, processInput_slabText hinside,
    processInput_selectText (bounds_lt hinside)]

/-! ## Printing and reading back -/

section Rerendering

variable {vector offset : List Int}

/-- `vector_to_string` stays within both of its buffers, and `processInput` gets the two vectors
back from what it returns without the brackets. -/
def SurvivesRendering (vector offset : List Int) : Prop :=
  ∃ result, vectorToString vector offset = some result ∧
    processInput (result.drop 1).dropLast = some (offset, vector)

/-- The two vectors as one box. -/
theorem exists_box (hlen : offset.length = vector.length)
    (hoffset : ∀ value ∈ offset, 0 ≤ value ∧ value < 2 ^ 31)
    (hvector : ∀ value ∈ vector, 0 ≤ value ∧ value < 2 ^ 31) :
    ∃ box : Box, offset = box.map (fun d => (d.1 : Int)) ∧
      vector = box.map (fun d => (d.2 : Int)) ∧ ∀ d ∈ box, d.1 < 2 ^ 31 ∧ d.2 < 2 ^ 31 := by
  induction offset generalizing vector with
  | nil =>
      obtain rfl : vector = [] := List.length_eq_zero_iff.mp hlen.symm
      exact ⟨[], rfl, rfl, by simp⟩
  | cons start offset ih =>
      cases vector with
      | nil => cases hlen
      | cons stop vector =>
          obtain ⟨box, hstarts, hstops, hbounds⟩ := ih (Nat.succ.inj hlen)
            (fun value hvalue => hoffset value (List.mem_cons_of_mem _ hvalue))
            (fun value hvalue => hvector value (List.mem_cons_of_mem _ hvalue))
          have hstart := hoffset start List.mem_cons_self
          have hstop := hvector stop List.mem_cons_self
          refine ⟨(start.toNat, stop.toNat) :: box, ?_, ?_, ?_⟩
          · rw [List.map_cons, ← hstarts, Int.toNat_of_nonneg hstart.1]
          · rw [List.map_cons, ← hstops, Int.toNat_of_nonneg hstop.1]
          · refine List.forall_mem_cons.mpr ⟨?_, hbounds⟩
            simp only [Int.toNat_lt hstart.1, Int.toNat_lt hstop.1]
            exact_mod_cast And.intro hstart.2 hstop.2

/-- `processInput` recovers any two vectors of `int`s from a printed box. -/
theorem processInput_box {box : Box} (hbounds : ∀ d ∈ box, d.1 < 2 ^ 31 ∧ d.2 < 2 ^ 31) :
    processInput ((selectText box).drop 1).dropLast =
      some (box.map fun d => (d.1 : Int), box.map fun d => (d.2 : Int)) := by
  have hinput := processInput_triples (box.map fun d => (d.1, d.2, 1))
  have hrange : ∀ t ∈ box.map fun d => (d.1, d.2, 1), t.1 < 2 ^ 31 ∧ t.2.1 < 2 ^ 31 :=
    List.forall_mem_map.mpr hbounds
  rw [if_pos hrange] at hinput
  simp only [List.map_map, Function.comp_def] at hinput
  rw [selectText, strip_paramText]
  exact hinput

end Rerendering

end XHDF5.Client
