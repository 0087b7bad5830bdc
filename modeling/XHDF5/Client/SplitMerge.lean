/-
# Splitting a selection and merging the parts

The workers of a read place the parts of a selection one behind the other. That restores the
selection exactly when no dimension of extent two or more runs slower than the cut one, or when
the cut dimension has a single index. A selection with no stop as large as the number of servers
is not cut at all.
-/

import XHDF5.Client.Split

namespace XHDF5.Client

open XHDF5.Math

/-- The nodes of a cut selection carry boxes that list the selection when merged in node
order, and sizes that add up to it. -/
structure Reassembles (n : Nat) (box : Box) (nodes : List (Nat × Text)) (parts : List Box) :
    Prop where
  selections : nodes.map Prod.snd = parts.map selectText
  length_nodes : nodes.length = n
  merged : ∀ {α : Type} (data : List Nat → α), parts.flatMap (rowMajor data) = rowMajor data box
  disjoint : parts.Pairwise fun first second => List.Disjoint (coords first) (coords second)
  covered : ∀ c, c ∈ coords box ↔ ∃ part ∈ parts, c ∈ coords part
  sizes : (nodes.map Prod.fst).sum = points box

/-- `RV_dataset_read` cuts the selection for `n` servers, and the parts reassemble it. -/
def CutPreserves (n : Nat) (box : Box) : Prop :=
  ∃ nodes parts, cutSelection n false (selectText box) = some (true, some nodes) ∧
    Reassembles n box nodes parts

/-- The selections that survive the cut: the first stop that reaches `n` belongs to the slowest
dimension with more than one index, or to a dimension with one index, and every number and
buffer of the cut is in range. -/
def CutFits (n : Nat) (box : Box) : Prop :=
  ∃ outer start stop inner, box = outer ++ (start, stop) :: inner ∧
    (∀ d ∈ outer, d.2 < n) ∧ n ≤ stop ∧
    (stop - start = 1 ∨ points outer = 1) ∧
    (∀ d ∈ box, d.2 < 2 ^ 31) ∧
    (stop - start + n - 1) / n * points (outer ++ inner) < 2 ^ 31 ∧
    FitsBuffer (outer ++ inner) ∧
    (decimal (stop - (stop - start) / n)).length + (decimal stop).length ≤ 16

/-! ## The texts determine the parts -/

theorem selectText_injective : Function.Injective selectText := by
  intro first second heq
  have htokens (box : Box) : strtok (· == ',') ((selectText box).drop 1).dropLast =
      box.map fun d => tripleText d.1 d.2 1 := by
    rw [selectText, strip_paramText]
    refine strtok_intercalate ?_ ?_
    · intro word hword
      obtain ⟨d, _, rfl⟩ := List.mem_map.mp hword
      exact not_mem_tripleText (by decide) (by decide)
    · intro word hword
      obtain ⟨d, _, rfl⟩ := List.mem_map.mp hword
      exact tripleText_ne_nil _ _ _
  have hdim : Function.Injective fun d : Nat × Nat => tripleText d.1 d.2 1 := by
    intro d e hde
    have hfields := congrArg (strtok (· == ':')) hde
    simp only [strtok_tripleText, List.cons.injEq] at hfields
    exact Prod.ext (decimal_injective hfields.1) (decimal_injective hfields.2.1)
  have hwords := congrArg (fun text : Text => strtok (· == ',') (text.drop 1).dropLast) heq
  simp only [htokens] at hwords
  exact List.map_injective_iff.mpr hdim hwords

/-! ## Merging -/

section Merge

variable {n : Nat} {outer inner : Box} {start stop : Nat}

/-- The boxes of the nodes, in node order. -/
def nodeBoxes (outer : Box) (start len n : Nat) (inner : Box) : List Box :=
  (List.range n).map (nodeBox outer start len n inner)

/-- Merging the nodes lists the grids of the parts one after another. -/
theorem flatMap_coords_nodeBoxes (len : Nat) :
    (nodeBoxes outer start len n inner).flatMap coords =
      cutGrid (outer.map interval) (balancedParts start len n) (inner.map interval) := by
  rw [nodeBoxes, cutGrid, balancedParts, List.flatMap_map, List.flatMap_map]
  refine List.flatMap_congr fun k _ => ?_
  rw [coords, map_nodeBox]
  rfl

theorem coords_cut :
    coords (outer ++ (start, stop) :: inner) =
      grid (outer.map interval ++ List.range' start (stop - start) :: inner.map interval) := by
  rw [coords, List.map_append, List.map_cons]
  rfl

/-- The merged nodes list the selection exactly when nothing with two indices runs slower than
a cut dimension with two indices. -/
theorem flatMap_coords_nodeBoxes_iff (hn : 1 < n)
    (hlt : ∀ d ∈ outer ++ (start, stop) :: inner, d.1 < d.2) :
    (nodeBoxes outer start (stop - start) n inner).flatMap coords =
        coords (outer ++ (start, stop) :: inner) ↔
      stop - start = 1 ∨ points outer = 1 := by
  have hcut : start < stop := hlt (start, stop) (by simp)
  have haxes (box : Box) (hbox : ∀ d ∈ box, d.1 < d.2) : ∀ axis ∈ box.map interval, axis ≠ [] := by
    intro axis haxis
    obtain ⟨d, hd, rfl⟩ := List.mem_map.mp haxis
    exact interval_ne_nil (hbox d hd)
  rw [flatMap_coords_nodeBoxes, coords_cut, cutGrid_balancedParts_iff _ _ hn (by omega)
    (haxes outer fun d hd => hlt d (by simp [hd])) (haxes inner fun d hd => hlt d (by simp [hd])),
    show (grid (outer.map interval)).length = points outer from length_coords outer]

theorem sum_nodePoints (start : Nat) (hn : 0 < n) (len sum : Nat) :
    ((List.range n).map (nodePoints start len n sum)).sum = len * sum := by
  have hfirst (k : Nat) : ((List.range k).map (nodePoints start len n sum)).sum =
      (cutPoint start len n k - start) * sum := by
    induction k with
    | zero => simp
    | succ k ih =>
        have hstart : start ≤ cutPoint start len n k := by
          simpa using cutPoint_mono start len (n := n) (Nat.zero_le k)
        have hstep := cutPoint_mono start len (n := n) (Nat.le_add_right k 1)
        rw [List.range_succ, List.map_append, List.sum_append, ih, List.map_cons, List.map_nil,
          List.sum_singleton, nodePoints, ← Nat.add_mul]
        congr 1
        omega
  rw [hfirst n, cutPoint_last _ _ hn, Nat.add_sub_cancel_left]

theorem points_cut : points (outer ++ (start, stop) :: inner) =
    (stop - start) * points (outer ++ inner) := by
  simp [points, Nat.mul_left_comm]

/-- The size of the first node. -/
theorem nodePoints_zero (hn : 0 < n) (len sum : Nat) :
    nodePoints start len n sum 0 = (len + n - 1) / n * sum := by
  have hone := cutPoint_succ start len (n := n) 0
  have hdiv := Nat.div_add_mod len n
  have hmod := Nat.mod_lt len hn
  have hceil : (len + n - 1) / n = len / n + if 0 < len % n then 1 else 0 := by
    have hsum : len + n - 1 = (len % n + n - 1) + n * (len / n) := by omega
    rw [hsum, Nat.add_mul_div_left _ _ hn, Nat.add_comm (_ / n)]
    congr 1
    split
    · next hrem =>
        rw [Nat.div_eq_iff hn]
        omega
    · next hrem =>
        exact Nat.div_eq_of_lt (by omega)
  rw [nodePoints, hone, cutPoint_zero, Nat.add_sub_cancel_left, hceil]

end Merge

/-! ## The cut of a selection -/

/-- A selection is cut at the first stop that reaches the number of servers, if there is one. -/
theorem exists_cut_or_small (n : Nat) (box : Box) :
    (∃ outer start stop inner, box = outer ++ (start, stop) :: inner ∧
      (∀ d ∈ outer, d.2 < n) ∧ n ≤ stop) ∨ ∀ d ∈ box, d.2 < n := by
  induction box with
  | nil => exact Or.inr (by simp)
  | cons d box ih =>
      by_cases hd : n ≤ d.2
      · exact Or.inl ⟨[], d.1, d.2, box, rfl, by simp, hd⟩
      · rcases ih with ⟨outer, start, stop, inner, rfl, houter, hstop⟩ | hsmall
        · exact Or.inl ⟨d :: outer, start, stop, inner, rfl,
            List.forall_mem_cons.mpr ⟨by omega, houter⟩, hstop⟩
        · exact Or.inr (List.forall_mem_cons.mpr ⟨by omega, hsmall⟩)

section Cut

variable {n : Nat} {outer inner : Box} {start stop : Nat}

/-- The nodes that `RV_dataset_read` stores for the boxes. -/
def cutNodes (outer : Box) (start stop n : Nat) (inner : Box) : List (Nat × Text) :=
  (List.range n).map fun k =>
    (nodePoints start (stop - start) n (points (outer ++ inner)) k,
      selectText (nodeBox outer start (stop - start) n inner k))

theorem map_snd_cutNodes : (cutNodes outer start stop n inner).map Prod.snd =
    (nodeBoxes outer start (stop - start) n inner).map selectText := by
  simp [cutNodes, nodeBoxes]

/-- A merge in the right order also keeps the parts apart and their sizes complete. -/
theorem reassembles_cutNodes (hn : 0 < n)
    (hmerge : (nodeBoxes outer start (stop - start) n inner).flatMap coords =
      coords (outer ++ (start, stop) :: inner)) :
    Reassembles n (outer ++ (start, stop) :: inner) (cutNodes outer start stop n inner)
      (nodeBoxes outer start (stop - start) n inner) := by
  have hnodup := nodup_coords (outer ++ (start, stop) :: inner)
  rw [← hmerge, List.nodup_flatMap] at hnodup
  refine ⟨map_snd_cutNodes, by simp [cutNodes], fun data => ?_, hnodup.2, fun c => ?_, ?_⟩
  · rw [rowMajor, ← hmerge, List.map_flatMap]
    rfl
  · rw [← hmerge, List.mem_flatMap]
  · have hsum := sum_nodePoints start hn (stop - start) (points (outer ++ inner))
    rw [points_cut, ← hsum]
    simp [cutNodes, Function.comp_def]

theorem cutSelection_eq_cutNodes (hn : 0 < n)
    (hlt : ∀ d ∈ outer ++ (start, stop) :: inner, d.1 < d.2)
    (houter : ∀ d ∈ outer, d.2 < n) (hstop : n ≤ stop) (flagNode : Bool) :
    cutSelection n flagNode (selectText (outer ++ (start, stop) :: inner)) =
      if (∀ d ∈ outer ++ (start, stop) :: inner, d.2 < 2 ^ 31) ∧
          (stop - start + n - 1) / n * points (outer ++ inner) < 2 ^ 31 ∧
          FitsBuffer (outer ++ inner) ∧
          (decimal (stop - (stop - start) / n)).length + (decimal stop).length ≤ 16 then
        some (true, some (cutNodes outer start stop n inner))
      else none := by
  have hcut : start < stop := hlt (start, stop) (by simp)
  rw [cutSelection_eq hn hlt houter hstop]
  refine if_congr (and_congr_right fun hbounds => ?_) rfl rfl
  have hend : stop < 2 ^ 31 := hbounds (start, stop) (by simp)
  rw [forall_nodeDefined_iff hn, nodePoints_zero hn, Nat.add_sub_cancel' hcut.le,
    and_iff_right hend]

/-- A selection is cut in the dimension behind `outer`: its stop is the first that reaches `n`, and
every number and buffer of the cut is in range. -/
structure CutAt (n : Nat) (box outer : Box) (start stop : Nat) (inner : Box) : Prop where
  split : box = outer ++ (start, stop) :: inner
  before : ∀ d ∈ outer, d.2 < n
  reaches : n ≤ stop
  ints : ∀ d ∈ box, d.2 < 2 ^ 31
  size : (stop - start + n - 1) / n * points (outer ++ inner) < 2 ^ 31
  fits : FitsBuffer (outer ++ inner)
  digits : (decimal (stop - (stop - start) / n)).length + (decimal stop).length ≤ 16

/-- The nodes are stored exactly for a selection that is cut somewhere. -/
theorem cutSelection_eq_some_iff {n : Nat} {box : Box} (hn : 0 < n) (hlt : ∀ d ∈ box, d.1 < d.2)
    {nodes : List (Nat × Text)} :
    cutSelection n false (selectText box) = some (true, some nodes) ↔
      ∃ outer start stop inner, CutAt n box outer start stop inner ∧
        nodes = cutNodes outer start stop n inner := by
  constructor
  · intro hcut
    rcases exists_cut_or_small n box with ⟨outer, start, stop, inner, rfl, houter, hstop⟩ | hsmall
    · rw [cutSelection_eq_cutNodes hn hlt houter hstop] at hcut
      split at hcut
      · next hrange =>
          obtain ⟨hints, hsize, hfits, hdigits⟩ := hrange
          obtain rfl : cutNodes outer start stop n inner = nodes := by simpa using hcut
          exact ⟨outer, start, stop, inner,
            ⟨rfl, houter, hstop, hints, hsize, hfits, hdigits⟩, rfl⟩
      · cases hcut
    · exact absurd hcut (cutSelection_of_small hlt hsmall nodes)
  · rintro ⟨outer, start, stop, inner, ⟨rfl, houter, hstop, hints, hsize, hfits, hdigits⟩, rfl⟩
    rw [cutSelection_eq_cutNodes hn hlt houter hstop,
      if_pos ⟨hints, hsize, hfits, hdigits⟩]

/-- A selection is cut at one place only. -/
theorem CutAt.unique {n : Nat} {box outer outer' inner inner' : Box} {start stop start' stop' : Nat}
    (h : CutAt n box outer start stop inner) (h' : CutAt n box outer' start' stop' inner') :
    outer = outer' ∧ start = start' ∧ stop = stop' ∧ inner = inner' := by
  have hfind {first rest : Box} {a b : Nat} (hfirst : ∀ d ∈ first, d.2 < n) (hb : n ≤ b) :
      (first ++ (a, b) :: rest).takeWhile (fun d => decide (d.2 < n)) = first := by
    rw [List.takeWhile_append_of_pos fun d hd => decide_eq_true (hfirst d hd),
      List.takeWhile_cons_of_neg (by simpa using hb), List.append_nil]
  have houter : outer = outer' := by
    rw [← hfind h.before h.reaches, ← hfind h'.before h'.reaches, ← h.split, ← h'.split]
  subst houter
  have hrest := List.append_cancel_left (h.split.symm.trans h'.split)
  rw [List.cons.injEq, Prod.mk.injEq] at hrest
  exact ⟨rfl, hrest.1.1, hrest.1.2, hrest.2⟩

end Cut

end XHDF5.Client
