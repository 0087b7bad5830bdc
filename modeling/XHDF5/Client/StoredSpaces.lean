/-
# Dataspaces that a transfer borrows

Where a selection is `H5S_ALL`, `RV_dataset_read` and `RV_dataset_write` take the dataspace that the
dataset keeps and change its selection. A write is done with it in the same round of its loop; a read
comes back to it when the data have arrived, after all rounds.

Handles of one dataset may share a dataspace. The identifiers of these dataspaces do not leave the
connector, as creation and `H5Dget_space` copy them, so the dataspaces that a caller gives are others.
-/

import XHDF5.Client.Dataspace

namespace XHDF5.Client.StoredSpaces

open XHDF5.Math XHDF5.Client

/-! ## The code -/

/-- The extent of a dataspace and its selection. -/
@[ext]
structure Selected where
  dims : List Nat
  selection : Selection

/-- What becomes of a round: an error before the selections are set, one behind that, or a transfer. -/
inductive Fate
  | refusedBefore
  | refusedAfter
  | prepared
deriving DecidableEq

/-- A round of the loop, for a dataset and, in a read, for a server: the dataspace that the dataset keeps,
the two dataspaces that are given, with none for `H5S_ALL`, what becomes of the round, and whether its
data are scattered. -/
structure Round where
  stored : Nat
  memSpace : Option Selected
  fileSpace : Option Selected
  fate : Fate
  scatters : Bool

/-- `mem_space_id` or `file_space_id` of a transfer. -/
inductive SpaceId
  | stored (k : Nat)
  | given (space : Selected)

/-- A prepared transfer. -/
structure Transfer where
  mem : SpaceId
  file : SpaceId
  round : Round

/-- The dataspaces that datasets keep. -/
abbrev Spaces := Nat → Selected

/-- `H5Sselect_all` and `H5Sselect_copy`. -/
def select (spaces : Spaces) (k : Nat) (selection : Selection) : Spaces :=
  Function.update spaces k { spaces k with selection }

/-- The semantics of `H5S_ALL`. -/
def setSelections (spaces : Spaces) (r : Round) : Spaces × Transfer :=
  match r.memSpace, r.fileSpace with
  | none, none => (select spaces r.stored (.regular .all), ⟨.stored r.stored, .stored r.stored, r⟩)
  | some mem, none => (select spaces r.stored (.regular .all), ⟨.given mem, .stored r.stored, r⟩)
  | none, some file => (select spaces r.stored file.selection, ⟨.stored r.stored, .given file, r⟩)
  | some mem, some file => (spaces, ⟨.given mem, .given file, r⟩)

/-- The dataspace of an identifier. -/
def spaceOf (spaces : Spaces) : SpaceId → Selected
  | .stored k => spaces k
  | .given space => space

/-- The two dataspaces as they are when a transfer reads, gathers or scatters with them. -/
structure Use where
  round : Round
  mem : Selected
  file : Selected

/-- A use by a transfer. -/
def useOf (spaces : Spaces) (t : Transfer) : Use := ⟨t.round, spaceOf spaces t.mem, spaceOf spaces t.file⟩

/-- What the loop comes to. -/
structure Looped where
  spaces : Spaces
  transfers : List Transfer
  uses : List Use
  refused : Bool

/-- The loop over the rounds. -/
def loop : Spaces → List Round → Looped
  | spaces, [] => ⟨spaces, [], [], false⟩
  | spaces, r :: rs =>
      let (spaces', t) := setSelections spaces r
      match r.fate with
      | .refusedBefore => ⟨spaces, [], [], true⟩
      | .refusedAfter => ⟨spaces', [], [useOf spaces' t], true⟩
      | .prepared =>
          let rest := loop spaces' rs
          ⟨rest.spaces, t :: rest.transfers, useOf spaces' t :: rest.uses, rest.refused⟩

/-- `RV_dataset_write`: the dataspaces afterwards, and all uses. -/
def rvDatasetWrite (spaces : Spaces) (rs : List Round) : Spaces × List Use :=
  ((loop spaces rs).spaces, (loop spaces rs).uses)

/-- `RV_dataset_read`: the data arrive when all transfers are prepared. -/
def rvDatasetRead (spaces : Spaces) (rs : List Round) : Spaces × List Use :=
  let looped := loop spaces rs
  let scattered := (looped.transfers.filter fun t => t.round.scatters).map (useOf looped.spaces)
  (looped.spaces, looped.uses ++ if looped.refused then [] else scattered)

/-- The two directions of a transfer. -/
inductive Direction
  | read
  | write

/-- A call. -/
def transferAll : Direction → Spaces → List Round → Spaces × List Use
  | .read => rvDatasetRead
  | .write => rvDatasetWrite

/-! ## What a transfer is to do -/

/-- The file dataspace that the arguments of a transfer stand for. -/
def ownFile (spaces : Spaces) (r : Round) : Selected :=
  r.fileSpace.getD ⟨(spaces r.stored).dims, .regular .all⟩

/-- The memory dataspace that they stand for. -/
def ownMem (spaces : Spaces) (r : Round) : Selected :=
  r.memSpace.getD ⟨(spaces r.stored).dims, (ownFile spaces r).selection⟩

/-- Every dataset keeps its dataspace as it was, and every transfer uses its own selections. -/
def Undisturbed (spaces : Spaces) (result : Spaces × List Use) : Prop :=
  (∀ k, result.1 k = spaces k) ∧
    ∀ use ∈ result.2, use.mem = ownMem spaces use.round ∧ use.file = ownFile spaces use.round

/-- The selection that a round gives to the dataspace that its dataset keeps. -/
def Round.sets (r : Round) : Option Selection :=
  match r.memSpace, r.fileSpace with
  | some _, some _ => none
  | none, some file => some file.selection
  | _, none => some (.regular .all)

/-- The rounds that get to their selections. -/
def reached : List Round → List Round
  | [] => []
  | r :: rs =>
      match r.fate with
      | .refusedBefore => []
      | .refusedAfter => [r]
      | .prepared => r :: reached rs

/-- The last selection that a dataspace is given. -/
def lastSet (k : Nat) (rs : List Round) : Option Selection :=
  ((reached rs).filterMap fun r => if r.stored = k then r.sets else none).getLast?

/-- The last selection that a dataspace is given is the one that it has already; and when the data of a
read arrive, all that are scattered were given to theirs. -/
def Spares (spaces : Spaces) (rs : List Round) : Direction → Prop
  | .write => ∀ k, ∀ selection ∈ lastSet k rs, selection = (spaces k).selection
  | .read =>
      (∀ k, ∀ selection ∈ lastSet k rs, selection = (spaces k).selection) ∧
        ((∀ r ∈ rs, r.fate = .prepared) → ∀ r ∈ rs, r.scatters = true →
          ∀ selection ∈ r.sets, selection = (spaces r.stored).selection)

/-! ## The loop -/

section Loop

variable {spaces : Spaces} {r : Round} {rs : List Round}

/-- A round gives one dataspace a selection. -/
theorem setSelections_fst (spaces : Spaces) (r : Round) (k : Nat) :
    (setSelections spaces r).1 k =
      ⟨(spaces k).dims, ((if r.stored = k then r.sets else none).getD (spaces k).selection)⟩ := by
  have hselect (selection : Selection) : select spaces r.stored selection k =
      ⟨(spaces k).dims, (if r.stored = k then some selection else none).getD (spaces k).selection⟩ := by
    by_cases hk : r.stored = k
    · subst hk
      simp [select]
    · simp [select, hk, Ne.symm hk]
  cases hmem : r.memSpace <;> cases hfile : r.fileSpace <;>
    simp [setSelections, Round.sets, hmem, hfile, hselect]

/-- The dataspaces of a transfer are those that were given, or the one that the dataset keeps. -/
theorem setSelections_snd (spaces : Spaces) (r : Round) :
    (setSelections spaces r).2 =
      ⟨r.memSpace.elim (.stored r.stored) .given, r.fileSpace.elim (.stored r.stored) .given, r⟩ := by
  cases hmem : r.memSpace <;> cases hfile : r.fileSpace <;> simp [setSelections, hmem, hfile]

/-- A transfer uses its own selections when the dataspace that its dataset keeps has the one that the
round sets. -/
theorem useOf_eq_iff (spaces spaces' : Spaces) (r : Round)
    (hdims : (spaces' r.stored).dims = (spaces r.stored).dims) :
    ((useOf spaces' (setSelections spaces r).2).mem = ownMem spaces r ∧
      (useOf spaces' (setSelections spaces r).2).file = ownFile spaces r) ↔
        ∀ selection ∈ r.sets, selection = (spaces' r.stored).selection := by
  have hstored (selection : Selection) : spaces' r.stored = ⟨(spaces r.stored).dims, selection⟩ ↔
      selection = (spaces' r.stored).selection := by
    cases hspace : spaces' r.stored with
    | mk dims selection' =>
        rw [hspace] at hdims
        simp only [Selected.mk.injEq, and_iff_right hdims]
        exact eq_comm
  rw [setSelections_snd]
  cases hmem : r.memSpace <;> cases hfile : r.fileSpace <;>
    simp [useOf, spaceOf, ownMem, ownFile, Round.sets, hmem, hfile, hstored]

/-- Right after a round the selections are its own. -/
theorem useOf_setSelections (spaces : Spaces) (r : Round) :
    (useOf (setSelections spaces r).1 (setSelections spaces r).2).mem = ownMem spaces r ∧
      (useOf (setSelections spaces r).1 (setSelections spaces r).2).file = ownFile spaces r := by
  refine (useOf_eq_iff spaces _ r (by rw [setSelections_fst])).mpr fun selection hselection => ?_
  rw [setSelections_fst, if_pos rfl, Option.mem_def.mp hselection]
  rfl

/-- What a round is to do depends on the extents alone. -/
theorem own_setSelections (spaces : Spaces) (r r' : Round) :
    ownMem (setSelections spaces r).1 r' = ownMem spaces r' ∧
      ownFile (setSelections spaces r).1 r' = ownFile spaces r' := by
  simp [ownMem, ownFile, setSelections_fst]

/-- What the dataspaces are after the loop. -/
theorem loop_spaces (spaces : Spaces) (rs : List Round) (k : Nat) :
    (loop spaces rs).spaces k = ⟨(spaces k).dims, (lastSet k rs).getD (spaces k).selection⟩ := by
  induction rs generalizing spaces with
  | nil => rfl
  | cons r rs ih =>
      have hround := setSelections_fst spaces r k
      cases hfate : r.fate with
      | refusedBefore => simp [loop, lastSet, reached, hfate]
      | refusedAfter =>
          simp only [loop, lastSet, reached, hfate, hround]
          cases hset : (if r.stored = k then r.sets else none) <;> simp [hset]
      | prepared =>
          simp only [loop, lastSet, reached, hfate, ih, hround]
          cases hset : (if r.stored = k then r.sets else none) with
          | none => simp [hset]
          | some selection => simp [hset, List.getLast?_cons]

/-- While the requests are prepared every transfer uses its own selections. -/
theorem loop_uses (spaces : Spaces) (rs : List Round) :
    ∀ use ∈ (loop spaces rs).uses, use.mem = ownMem spaces use.round ∧
      use.file = ownFile spaces use.round := by
  induction rs generalizing spaces with
  | nil => exact fun _ h => by cases h
  | cons r rs ih =>
      have hround : (useOf (setSelections spaces r).1 (setSelections spaces r).2).round = r := by
        rw [setSelections_snd]
        rfl
      have hown := useOf_setSelections spaces r
      cases hfate : r.fate with
      | refusedBefore => simp [loop, hfate]
      | refusedAfter =>
          simp only [loop, hfate, List.forall_mem_singleton, hround]
          exact hown
      | prepared =>
          simp only [loop, hfate, List.forall_mem_cons, hround]
          refine ⟨hown, fun use huse => ?_⟩
          have hrest := ih (setSelections spaces r).1 use huse
          rwa [(own_setSelections spaces r use.round).1, (own_setSelections spaces r use.round).2] at hrest

theorem loop_refused (spaces : Spaces) (rs : List Round) :
    (loop spaces rs).refused = false ↔ ∀ r ∈ rs, r.fate = .prepared := by
  induction rs generalizing spaces with
  | nil => simp [loop]
  | cons r rs ih => cases hfate : r.fate <;> simp [loop, hfate, ih]

/-- Without an error every round prepares a transfer. -/
theorem loop_transfers (spaces : Spaces) {rs : List Round} (h : ∀ r ∈ rs, r.fate = .prepared) :
    (loop spaces rs).transfers = rs.map fun r => (setSelections spaces r).2 := by
  induction rs generalizing spaces with
  | nil => rfl
  | cons r rs ih =>
      rw [List.forall_mem_cons] at h
      simp only [loop, h.1, ih _ h.2, List.map_cons, setSelections_snd]

end Loop

/-! ## The calls -/

/-- The dataspaces are what they were when the last selections are those that they had. -/
theorem spaces_eq_iff (spaces : Spaces) (rs : List Round) :
    (∀ k, (loop spaces rs).spaces k = spaces k) ↔
      ∀ k, ∀ selection ∈ lastSet k rs, selection = (spaces k).selection := by
  refine forall_congr' fun k => ?_
  rw [loop_spaces]
  cases lastSet k rs <;> simp [Selected.ext_iff]

/-- The transfers whose data arrive use their own selections when the dataspaces still have them. -/
theorem scattered_iff (spaces : Spaces) {rs : List Round} (hprepared : ∀ r ∈ rs, r.fate = .prepared)
    (hframe : ∀ k, (loop spaces rs).spaces k = spaces k) :
    (∀ use ∈ ((loop spaces rs).transfers.filter fun t => t.round.scatters).map
        (useOf (loop spaces rs).spaces),
      use.mem = ownMem spaces use.round ∧ use.file = ownFile spaces use.round) ↔
        ∀ r ∈ rs, r.scatters = true → ∀ selection ∈ r.sets, selection = (spaces r.stored).selection := by
  have hround (r : Round) : (setSelections spaces r).2.round = r := by rw [setSelections_snd]
  rw [loop_transfers spaces hprepared]
  simp only [List.filter_map, List.map_map, List.forall_mem_map, List.mem_filter, Function.comp_apply,
    hround, and_imp]
  refine forall₃_congr fun r _ _ => ?_
  have huse := useOf_eq_iff spaces (loop spaces rs).spaces r (by rw [hframe])
  have hown : (useOf (loop spaces rs).spaces (setSelections spaces r).2).round = r := hround r
  rw [hown]
  rwa [hframe] at huse

/-- A call leaves the dataspaces and its transfers undisturbed exactly when what it sets is there
already. -/
theorem undisturbed_iff (direction : Direction) (spaces : Spaces) (rs : List Round) :
    Undisturbed spaces (transferAll direction spaces rs) ↔ Spares spaces rs direction := by
  cases direction with
  | write => exact (and_iff_left (loop_uses spaces rs)).trans (spaces_eq_iff spaces rs)
  | read =>
      rw [Spares, ← spaces_eq_iff]
      refine and_congr_right fun hframe => ?_
      change (∀ use ∈ _ ++ _, _) ↔ _
      rw [List.forall_mem_append, and_iff_right (loop_uses spaces rs)]
      by_cases hprepared : ∀ r ∈ rs, r.fate = .prepared
      · rw [if_neg (by rw [(loop_refused spaces rs).mpr hprepared]; exact Bool.false_ne_true),
          imp_iff_right hprepared]
        exact scattered_iff spaces hprepared hframe
      · have hrefused : (loop spaces rs).refused = true :=
          Bool.eq_true_of_not_eq_false (mt (loop_refused spaces rs).mp hprepared)
        rw [if_pos hrefused]
        exact iff_of_true (fun _ h => by cases h) fun h => absurd h hprepared

/-- A dataset of four elements. -/
def fourElements : Spaces := fun _ => ⟨[4], .regular .all⟩

/-- A read of the second and the third element with no memory dataspace. -/
def middleRound : Round where
  stored := 0
  memSpace := none
  fileSpace := some ⟨[4], .regular (.hyperslab [Slab.range 1 3 (by decide)])⟩
  fate := .prepared
  scatters := true

/-- After a read of a part the dataset keeps the selection of that part. -/
theorem not_undisturbed_middle :
    ¬ Undisturbed fourElements (transferAll .read fourElements [middleRound]) := by
  intro h
  have hselection := congrArg Selected.selection (h.1 0)
  cases hselection

end XHDF5.Client.StoredSpaces
