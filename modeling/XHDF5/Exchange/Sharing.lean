/-
# Shared dataspaces

An open dataset takes the dataspace of the first entry in the table of open datasets that has its
identifier, so that two handles of one dataset see each other's changes. The plugin gives one identifier
to all datasets, and the table has one entry for a file at most. So who gets whose dataspace is a matter
of what was opened, closed or refused before.

What the plugin asks the library for when a dataset is created is given with the call; so are the order
of the hash table and whether a request is answered with success.
-/

import XHDF5.Client.Objects
import XHDF5.Exchange.Open

namespace XHDF5.Exchange

open XHDF5.Math XHDF5.Client XHDF5.Plugin

/-! ## The system -/

/-- A dataset: the path of its file and its path there. -/
structure DatasetRef where
  file : Text
  path : Text
deriving DecidableEq

/-- An open dataset: its domain, the dataset, its URI, and the identifier of its dataspace. -/
structure DatasetHandle where
  domain : Addr
  dataset : DatasetRef
  uri : Text
  space : Nat
deriving DecidableEq

/-- The string that a dataset is as a key. -/
def DatasetHandle.key (h : DatasetHandle) : Key := keyOf h.domain .dataset

/-- The datasets in the files of the plugin, the open datasets, the table of them, and the dataspaces
by their identifiers. -/
structure SharingState where
  files : DatasetRef → Option FileDataset
  handles : Addr → Option DatasetHandle
  table : Key → Option Addr
  spaces : List Dataspace

/-- A creation: the new object, its domain, the dataset and its dataspace; what the plugin creates in
the file, if anything; and whether the request succeeds. -/
structure CreateCall where
  addr : Addr
  domain : Addr
  dataset : DatasetRef
  space : Dataspace
  creates : Option (Text × FileDataset)
  served : Bool

/-- An opening: the new object, its domain and the dataset; the table in its order; the times of the
file; and whether the request succeeds. -/
structure OpenCall where
  addr : Addr
  domain : Addr
  dataset : DatasetRef
  others : List Addr
  created : Int
  lastModified : Int
  served : Bool

inductive SharingEvent
  | create (c : CreateCall)
  | open (o : OpenCall)
  | close (p : Addr)

namespace SharingState

variable (s : SharingState)

/-- No dataset is open. -/
def closed (files : DatasetRef → Option FileDataset) : SharingState := ⟨files, fun _ => none, fun _ => none, []⟩

/-- A new dataset in a file, unless its link exists. -/
def serverCreate (file : Text) : Option (Text × FileDataset) → DatasetRef → Option FileDataset
  | none => s.files
  | some (path, new) =>
      if s.files ⟨file, path⟩ = none then Function.update s.files ⟨file, path⟩ (some new) else s.files

/-- `rv_hash_table_insert` of a new object. -/
def add (p : Addr) (h : DatasetHandle) : SharingState :=
  { s with
    handles := Function.update s.handles p (some h)
    table := Function.update s.table h.key (some p) }

/-- `rv_hash_table_remove`, also of an object that could not be set up. -/
def forget (k : Key) : SharingState := { s with table := Function.update s.table k none }

end SharingState

section System

variable (yajl : Text → Option Doc) (nativeType : ElementType → ElementType)

/-- What `RV_dataset_open` makes of the answer: a dataspace is an identifier, or a new dataspace. -/
def openAnswer (s : SharingState) (o : OpenCall) (others : List DatasetHandle) :
    Outcome (OpenedDataset (Nat ⊕ Dataspace)) :=
  match s.files o.dataset with
  | none => .fail
  | some stored =>
      if o.served then
        rvDatasetOpenDescribed yajl (others.map fun h => (h.uri, Sum.inl h.space)) Sum.inr
          (xrdConvertDatasetToJson (xrdGetDatasetInfo nativeType o.created o.lastModified
            o.dataset.file o.dataset.path stored))
      else .fail

/-- One call. An entry of the table that is no open dataset is read after it was freed. -/
def sharingStep (s : SharingState) : SharingEvent → Option SharingState
  | .create c =>
      let s := { s with files := s.serverCreate c.dataset.file c.creates }
      if c.served then
        some ({ s with spaces := s.spaces ++ [c.space] }.add c.addr
          ⟨c.domain, c.dataset, datasetId, s.spaces.length⟩)
      else some (s.forget (keyOf c.domain .dataset))
  | .open o =>
      (o.others.mapM s.handles).bind fun others =>
        match openAnswer yajl nativeType s o others with
        | .undefined => none
        | .fail => some (s.forget (keyOf o.domain .dataset))
        | .ok opened =>
            match opened.space with
            | .inl space => some (s.add o.addr ⟨o.domain, o.dataset, opened.loc.uri, space⟩)
            | .inr space =>
                some ({ s with spaces := s.spaces ++ [space] }.add o.addr
                  ⟨o.domain, o.dataset, opened.loc.uri, s.spaces.length⟩)
  | .close p =>
      (s.handles p).map fun h => { s with handles := Function.update s.handles p none }.forget h.key

end System

/-! ## Which handles share -/

/-- Two handles share a dataspace exactly when they are the same dataset, and every dataspace has the
extent of its dataset. -/
structure SharesExactly (s : SharingState) : Prop where
  shares : ∀ p q h k, s.handles p = some h → s.handles q = some k →
    (h.space = k.space ↔ h.dataset = k.dataset)
  extent : ∀ p h, s.handles p = some h →
    ∃ stored, s.files h.dataset = some stored ∧ s.spaces[h.space]? = some stored.space

/-- The call has a result, and in it exactly the handles of one dataset share. -/
def KeepsSharing (yajl : Text → Option Doc) (nativeType : ElementType → ElementType)
    (s : SharingState) (e : SharingEvent) : Prop :=
  ∃ s', sharingStep yajl nativeType s e = some s' ∧ SharesExactly s'

/-- What the arguments, the allocator and the hash table can be. -/
def SharingPossible (s : SharingState) : SharingEvent → Prop
  | .create c => s.handles c.addr = none
  | .open o => s.handles o.addr = none ∧ ∀ q, q ∈ o.others ↔ ∃ k, s.table k = some q
  | .close p => (s.handles p).isSome

/-- No handle is open for the dataset. -/
def NotOpen (s : SharingState) (dataset : DatasetRef) : Prop :=
  ∀ q h, s.handles q = some h → h.dataset ≠ dataset

/-- A dataset is created that is not open, and its file then has it with the extent that was asked for.
A dataset that is opened is the first one in the table, or nothing is in the table, the dataset is not
open, and its dataspace can be read, unless there is no base type; and the path of its file is plain. -/
def Unconfused (nativeType : ElementType → ElementType) (s : SharingState) : SharingEvent → Prop
  | .create c => c.served = true → NotOpen s c.dataset ∧
      ∃ stored, s.serverCreate c.dataset.file c.creates c.dataset = some stored ∧
        stored.space = c.space
  | .open o => o.served = true → ∀ stored, s.files o.dataset = some stored →
      Describable o.dataset.file ∧ (HasBase nativeType stored.type →
        match o.others with
        | [] => NotOpen s o.dataset ∧ Readable stored.space
        | q :: _ => ∀ h, s.handles q = some h → h.dataset = o.dataset)
  | .close _ => True

/-! ## The effects on the state -/

namespace SharesExactly

variable {s : SharingState}

/-- A new handle that shares with exactly the handles of its dataset. -/
theorem add (h : SharesExactly s) (p : Addr) {new : DatasetHandle}
    (hshares : ∀ q k, s.handles q = some k → (new.space = k.space ↔ new.dataset = k.dataset))
    (hextent : ∃ stored, s.files new.dataset = some stored ∧ s.spaces[new.space]? = some stored.space) :
    SharesExactly (s.add p new) where
  shares := by
    intro q r k l hk hl
    simp only [SharingState.add, Function.update_apply] at hk hl
    split at hk <;> split at hl
    · cases hk
      cases hl
      exact iff_of_true rfl rfl
    · cases hk
      exact hshares r l hl
    · cases hl
      rw [eq_comm, hshares q k hk, eq_comm]
    · exact h.shares q r k l hk hl
  extent := by
    intro q k hk
    simp only [SharingState.add, Function.update_apply] at hk
    split at hk
    · cases hk
      exact hextent
    · exact h.extent q k hk

theorem forget (h : SharesExactly s) (k : Key) : SharesExactly (s.forget k) := ⟨h.shares, h.extent⟩

/-- A handle is gone. -/
theorem drop (h : SharesExactly s) (p : Addr) :
    SharesExactly { s with handles := Function.update s.handles p none } where
  shares := by
    intro q r k l hk hl
    simp only [Function.update_apply, ite_eq_iff, reduceCtorEq, and_false, false_or] at hk hl
    exact h.shares q r k l hk.2 hl.2
  extent := by
    intro q k hk
    simp only [Function.update_apply, ite_eq_iff, reduceCtorEq, and_false, false_or] at hk
    exact h.extent q k hk.2

/-- A dataset stays in its file. -/
theorem serverCreate (h : SharesExactly s) (file : Text) (new : Option (Text × FileDataset)) :
    SharesExactly { s with files := s.serverCreate file new } where
  shares := h.shares
  extent := by
    intro p k hk
    obtain ⟨stored, hstored, hspace⟩ := h.extent p k hk
    refine ⟨stored, ?_, hspace⟩
    cases new with
    | none => exact hstored
    | some new =>
        simp only [SharingState.serverCreate]
        split
        · next hfree =>
            rw [Function.update_of_ne, hstored]
            rintro hdataset
            rw [← hdataset, hstored] at hfree
            cases hfree
        · exact hstored

theorem lt_length (h : SharesExactly s) {p : Addr} {k : DatasetHandle} (hk : s.handles p = some k) :
    k.space < s.spaces.length := by
  obtain ⟨stored, -, hspace⟩ := h.extent p k hk
  exact (List.getElem?_eq_some_iff.mp hspace).1

/-- A new dataspace, which no handle has. -/
theorem register (h : SharesExactly s) (space : Dataspace) :
    SharesExactly { s with spaces := s.spaces ++ [space] } where
  shares := h.shares
  extent := by
    intro p k hk
    obtain ⟨stored, hstored, hspace⟩ := h.extent p k hk
    exact ⟨stored, hstored, by rw [List.getElem?_append_left (h.lt_length hk), hspace]⟩

/-- A handle of a dataset that is not open, with a dataspace of its own. -/
theorem addNew (h : SharesExactly s) (p domain : Addr) {dataset : DatasetRef} {space : Dataspace}
    (hnotOpen : NotOpen s dataset) (hextent : ∃ stored, s.files dataset = some stored ∧ stored.space = space) :
    SharesExactly ({ s with spaces := s.spaces ++ [space] }.add p
      ⟨domain, dataset, datasetId, s.spaces.length⟩) := by
  refine (h.register space).add p (fun q k hk => iff_of_false (fun hspace => ?_) fun hdataset => ?_) ?_
  · exact (h.lt_length hk).ne' hspace
  · exact hnotOpen q k hk hdataset.symm
  · obtain ⟨stored, hstored, rfl⟩ := hextent
    exact ⟨stored, hstored, List.getElem?_concat_length⟩

/-- A handle of a dataset that is open, with the dataspace of its other handle. -/
theorem addOther (h : SharesExactly s) (p domain : Addr) {q : Addr} {other : DatasetHandle}
    (hother : s.handles q = some other) :
    SharesExactly (s.add p ⟨domain, other.dataset, datasetId, other.space⟩) :=
  h.add p (fun r k hk => h.shares q r other k hother hk) (h.extent q other hother)

end SharesExactly

/-- Every open dataset has the identifier of all datasets, and what the table has is open under its
key. -/
structure Tabled (s : SharingState) : Prop where
  uri : ∀ p h, s.handles p = some h → h.uri = datasetId
  live : ∀ k q, s.table k = some q → ∃ h, s.handles q = some h ∧ h.key = k

namespace Tabled

variable {s : SharingState}

theorem add (h : Tabled s) {p : Addr} {new : DatasetHandle} (hfree : s.handles p = none)
    (huri : new.uri = datasetId) : Tabled (s.add p new) where
  uri := by
    intro q k hk
    simp only [SharingState.add, Function.update_apply] at hk
    split at hk
    · cases hk
      exact huri
    · exact h.uri q k hk
  live := by
    intro k q hq
    simp only [SharingState.add, Function.update_apply] at hq
    split at hq
    · next hk =>
        cases hq
        exact ⟨new, Function.update_self .., hk.symm⟩
    · obtain ⟨other, hother, hkey⟩ := h.live k q hq
      refine ⟨other, (Function.update_of_ne ?_ _ _).trans hother, hkey⟩
      rintro rfl
      rw [hfree] at hother
      cases hother

theorem addNew (h : Tabled s) {p : Addr} (hfree : s.handles p = none) (domain : Addr)
    (dataset : DatasetRef) (space : Dataspace) :
    Tabled ({ s with spaces := s.spaces ++ [space] }.add p
      ⟨domain, dataset, datasetId, s.spaces.length⟩) := by
  have hsame : Tabled { s with spaces := s.spaces ++ [space] } := ⟨h.uri, h.live⟩
  exact hsame.add hfree rfl

theorem forget (h : Tabled s) (k : Key) : Tabled (s.forget k) where
  uri := h.uri
  live := by
    intro l q hq
    simp only [SharingState.forget, Function.update_apply, ite_eq_iff, reduceCtorEq, and_false,
      false_or] at hq
    exact h.live l q hq.2

/-- A handle is closed: its key goes with it. -/
theorem close (h : Tabled s) {p : Addr} {handle : DatasetHandle} (hp : s.handles p = some handle) :
    Tabled ({ s with handles := Function.update s.handles p none }.forget handle.key) where
  uri := by
    intro q k hk
    simp only [SharingState.forget, Function.update_apply, ite_eq_iff, reduceCtorEq, and_false,
      false_or] at hk
    exact h.uri q k hk.2
  live := by
    intro k q hq
    simp only [SharingState.forget, Function.update_apply, ite_eq_iff, reduceCtorEq, and_false,
      false_or] at hq
    obtain ⟨other, hother, hkey⟩ := h.live k q hq.2
    refine ⟨other, (Function.update_of_ne ?_ _ _).trans hother, hkey⟩
    rintro rfl
    rw [hp] at hother
    cases hother
    exact hq.1 hkey.symm

/-- The open datasets of the table. -/
theorem mapM_others (h : Tabled s) {others : List Addr}
    (hothers : ∀ q, q ∈ others ↔ ∃ k, s.table k = some q) :
    ∃ handles, others.mapM s.handles = some handles ∧ (∀ handle ∈ handles, handle.uri = datasetId) ∧
      List.Forall₂ (fun q handle => s.handles q = some handle) others handles := by
  have hopen : ∀ q ∈ others, ∃ handle, s.handles q = some handle := by
    intro q hq
    obtain ⟨k, hk⟩ := (hothers q).mp hq
    obtain ⟨handle, hhandle, -⟩ := h.live k q hk
    exact ⟨handle, hhandle⟩
  clear hothers
  induction others with
  | nil => exact ⟨[], rfl, nofun, .nil⟩
  | cons q others ih =>
      obtain ⟨handle, hhandle⟩ := hopen q List.mem_cons_self
      obtain ⟨handles, hmap, huris, hall⟩ := ih fun r hr => hopen r (List.mem_cons_of_mem q hr)
      exact ⟨handle :: handles, by rw [List.mapM_cons, hhandle, hmap]; rfl,
        List.forall_mem_cons.mpr ⟨h.uri q handle hhandle, huris⟩, .cons hhandle hall⟩

end Tabled

/-! ## Unconfused calls -/

section Unconfused

variable {yajl : Text → Option Doc} {nativeType : ElementType → ElementType}

/-- What an answered call makes of the description. -/
theorem openAnswer_eq (hyajl : Doc.ReadsDocuments yajl) {s : SharingState} {o : OpenCall}
    {stored : FileDataset} (hstored : s.files o.dataset = some stored) (hserved : o.served = true)
    (hpath : Describable o.dataset.file) {others : List DatasetHandle}
    (huris : ∀ h ∈ others, h.uri = datasetId) :
    openAnswer yajl nativeType s o others =
      (convertedType (h5typeToString stored.type) (baseTypeName nativeType stored.type)).bind
        fun type => .ok ⟨⟨o.dataset.file, datasetId⟩,
          (others.head?.map fun h => Sum.inl h.space).getD (.inr (describedSpace stored.space)), type,
            .default⟩ := by
  unfold openAnswer
  rw [hstored]
  dsimp only
  rw [if_pos hserved, rvDatasetOpenDescribed_description hyajl o.dataset.path hpath stored]
  cases others with
  | nil => rfl
  | cons h others => rw [List.map_cons, List.find?_cons_of_pos (by simp [huris h])]; rfl

section Opened

variable (hyajl : Doc.ReadsDocuments yajl) (hnative : SearchesUpward nativeType) {s : SharingState}
  {o : OpenCall} {stored : FileDataset} (hstored : s.files o.dataset = some stored)
  (hserved : o.served = true) (hpath : Describable o.dataset.file)

include hyajl hnative hstored hserved hpath

/-- With nothing in the table, the dataspace is read. -/
theorem sharingStep_open_nil (hbase : HasBase nativeType stored.type) (hothers : o.others = []) :
    sharingStep yajl nativeType s (.open o) =
      some ({ s with spaces := s.spaces ++ [describedSpace stored.space] }.add o.addr
        ⟨o.domain, o.dataset, datasetId, s.spaces.length⟩) := by
  obtain ⟨type, htype, -⟩ := convertedType_of_base hnative hbase
  rw [sharingStep, hothers, List.mapM_nil, Option.pure_def, Option.bind_some,
    openAnswer_eq hyajl hstored hserved hpath (List.forall_mem_nil _), htype]
  rfl

/-- The first dataset in the table gives its dataspace. -/
theorem sharingStep_open_cons (hbase : HasBase nativeType stored.type) {first : DatasetHandle}
    {others : List DatasetHandle} (hmap : o.others.mapM s.handles = some (first :: others))
    (huris : ∀ h ∈ first :: others, h.uri = datasetId) :
    sharingStep yajl nativeType s (.open o) =
      some (s.add o.addr ⟨o.domain, o.dataset, datasetId, first.space⟩) := by
  obtain ⟨type, htype, -⟩ := convertedType_of_base hnative hbase
  rw [sharingStep, hmap, Option.bind_some, openAnswer_eq hyajl hstored hserved hpath huris, htype]
  rfl

omit hnative in
/-- A type without a base type cannot be opened. -/
theorem sharingStep_open_no_base (hbase : ¬ HasBase nativeType stored.type)
    {others : List DatasetHandle} (hmap : o.others.mapM s.handles = some others)
    (huris : ∀ h ∈ others, h.uri = datasetId) :
    sharingStep yajl nativeType s (.open o) = some (s.forget (keyOf o.domain .dataset)) := by
  rw [sharingStep, hmap, Option.bind_some, openAnswer_eq hyajl hstored hserved hpath huris,
    convertedType_of_no_base hbase]
  rfl

end Opened

/-- An unconfused call has a result, in which exactly the handles of one dataset share. -/
theorem sharesExactly_step (hyajl : Doc.ReadsDocuments yajl) (hnative : SearchesUpward nativeType)
    {s : SharingState} {e : SharingEvent} (h : SharesExactly s ∧ Tabled s) (hpossible : SharingPossible s e)
    (hunconfused : Unconfused nativeType s e) :
    ∃ s', sharingStep yajl nativeType s e = some s' ∧ SharesExactly s' ∧ Tabled s' := by
  obtain ⟨hshares, htabled⟩ := h
  cases e with
  | create c =>
      have hcreated : SharesExactly { s with files := s.serverCreate c.dataset.file c.creates } ∧
          Tabled { s with files := s.serverCreate c.dataset.file c.creates } :=
        ⟨hshares.serverCreate _ _, htabled.uri, htabled.live⟩
      rw [sharingStep]
      split
      · next hserved =>
          obtain ⟨hnotOpen, hextent⟩ := hunconfused hserved
          refine ⟨_, rfl, hcreated.1.addNew c.addr c.domain hnotOpen hextent, ?_⟩
          exact hcreated.2.addNew hpossible c.domain c.dataset c.space
      · exact ⟨_, rfl, hcreated.1.forget _, hcreated.2.forget _⟩
  | «open» o =>
      obtain ⟨hfree, hothers⟩ := hpossible
      obtain ⟨others, hmap, huris, hall⟩ := htabled.mapM_others hothers
      have hfails : ∃ s', some (s.forget (keyOf o.domain .dataset)) = some s' ∧
          SharesExactly s' ∧ Tabled s' := ⟨_, rfl, hshares.forget _, htabled.forget _⟩
      cases hstored : s.files o.dataset with
      | none =>
          rw [sharingStep, hmap, Option.bind_some]
          simpa only [openAnswer, hstored] using hfails
      | some stored =>
          by_cases hserved : o.served = true
          · obtain ⟨hpath, hfirst⟩ := hunconfused hserved stored hstored
            by_cases hbase : HasBase nativeType stored.type
            · cases others with
              | nil =>
                  have hnil := List.forall₂_nil_right_iff.mp hall
                  rw [sharingStep_open_nil hyajl hnative hstored hserved hpath hbase hnil]
                  have hfirst := hfirst hbase
                  rw [hnil] at hfirst
                  refine ⟨_, rfl, hshares.addNew o.addr o.domain hfirst.1 ⟨stored, hstored, ?_⟩, ?_⟩
                  · exact ((describedSpace_eq_iff stored.valid).mpr hfirst.2).symm
                  · exact htabled.addNew hfree o.domain o.dataset _
              | cons first others =>
                  rw [sharingStep_open_cons hyajl hnative hstored hserved hpath hbase hmap huris]
                  obtain ⟨q, rest, hq, -, hcons⟩ := List.forall₂_cons_right_iff.mp hall
                  have hfirst := hfirst hbase
                  rw [hcons] at hfirst
                  refine ⟨_, rfl, ?_, htabled.add hfree rfl⟩
                  rw [← hfirst first hq]
                  exact hshares.addOther o.addr o.domain hq
            · rw [sharingStep_open_no_base hyajl hstored hserved hpath hbase hmap huris]
              exact hfails
          · rw [sharingStep, hmap, Option.bind_some]
            simpa only [openAnswer, hstored, if_neg hserved] using hfails
  | close p =>
      obtain ⟨handle, hhandle⟩ := Option.isSome_iff_exists.mp hpossible
      rw [sharingStep, hhandle]
      exact ⟨_, rfl, (hshares.drop p).forget _, htabled.close hhandle⟩

end Unconfused

/-! ## Two datasets in a file -/

/-- Five doubles. -/
def fiveNumbers : FileDataset where
  space := .simple [(5, 5)]
  type := .number (.float ieeeF64)
  layout := .contiguous
  valid := by decide
  chunkRank := nofun

/-- A file with a dataset of four numbers and one of five. -/
def numbersFile (dataset : DatasetRef) : Option FileDataset :=
  if dataset = ⟨['f'], ['a']⟩ then some (fourNumbers .contiguous nofun)
  else if dataset = ⟨['f'], ['b']⟩ then some fiveNumbers
  else none

/-- A dataset is opened while others are open. -/
def openNumbers (addr : Addr) (path : Text) (others : List Addr) : OpenCall where
  addr := addr
  domain := 16
  dataset := ⟨['f'], path⟩
  others := others
  created := 0
  lastModified := 0
  served := true

/-- The first dataset is open. -/
def firstOpen : SharingState :=
  { SharingState.closed numbersFile with spaces := [.simple [(4, 4)]] }.add 32
    ⟨16, ⟨['f'], ['a']⟩, datasetId, 0⟩

theorem sharingStep_first :
    sharingStep Doc.readDocument searchNative (.closed numbersFile)
      (.open (openNumbers 32 ['a'] [])) = some firstOpen := by
  have hstored : (SharingState.closed numbersFile).files (openNumbers 32 ['a'] []).dataset =
      some (fourNumbers .contiguous nofun) := rfl
  rw [sharingStep_open_nil Doc.readsDocuments_readDocument searchesUpward_searchNative hstored rfl
    describable_f ieee_mem.2 rfl]
  have hread : describedSpace (fourNumbers .contiguous nofun).space = .simple [(4, 4)] := by decide
  rw [hread]
  rfl

theorem possible_first : SharingPossible (.closed numbersFile) (.open (openNumbers 32 ['a'] [])) := by
  refine ⟨rfl, fun q => iff_of_false (fun h => by cases h) ?_⟩
  rintro ⟨k, h⟩
  cases h

theorem possible_second (path : Text) :
    SharingPossible firstOpen (.open (openNumbers 48 path [32])) := by
  refine ⟨rfl, fun q => ?_⟩
  simp only [openNumbers, firstOpen, SharingState.add, SharingState.closed, List.mem_singleton,
    Function.update_apply]
  constructor
  · rintro rfl
    exact ⟨_, if_pos rfl⟩
  · rintro ⟨k, hk⟩
    split at hk
    · exact (Option.some.inj hk).symm
    · cases hk

end XHDF5.Exchange
