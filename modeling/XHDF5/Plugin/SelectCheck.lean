/-
# Which selections the plugin refuses

Nothing of a `select` parameter is checked. What `std::stoi` refuses ends the child process, and the
parent answers with an empty body; arrays of as many entries as were parsed are handed to calls that
read one for each dimension; and what the HDF5 library refuses is not looked at, so that the answer
is whatever the new buffer holds. The status is 200 all the same. A well-formed parameter is read.

The file and the dataset exist, the calls of the operating system succeed, and so do allocations.
The library's reading of a selection is a parameter.
-/

import Mathlib.Data.List.TakeWhile
import XHDF5.Math.Run
import XHDF5.Plugin.Select

namespace XHDF5.Plugin.SelectCheck

open XHDF5.Math XHDF5.Client

/-! ## The code -/

/-- Whether the HDF5 library reads a selection: the extents of the dataset, the start and the count
of each dimension, and the dimensions of the space in memory. -/
abbrev Library := List Nat → List Nat → List Nat → List Nat → Bool

/-- The answer to a request: its status, and the elements of the dataset in its body. A body that
holds something else has none. -/
structure Reply where
  status : Nat
  body : Option Box
deriving DecidableEq

/-- The first entries of an array. -/
def entries (n : Nat) (array : List Nat) : Outcome (List Nat) :=
  if n ≤ array.length then .ok (array.take n) else .undefined

/-- `result2[i]-result1[i]` for all entries of `result2`. -/
def counts (result1 result2 : List Int) : Outcome (List Nat) :=
  if result2.length ≤ result1.length then
    match (List.zipWith (fun stop start => stop - start) result2 result1).mapM cint with
    | some count => .ok (count.map toSize)
    | none => .undefined
  else .undefined

/-- `Xrd_read_dataset_info_by_chunked`: the elements in the buffer, if the library read any. It
fails where an exception ends the process. -/
def xrdReadDatasetInfoByChunked (reads : Library) (dims : List Nat) (select : Text) :
    Outcome (Option Box) :=
  match parseSelect select with
  | none => .fail
  | some (result1, result2) =>
      (counts result1 result2).bind fun count =>
        (entries dims.length (result1.map toSize)).bind fun start =>
          (entries dims.length count).bind fun extent =>
            (entries result1.length count).bind fun memory =>
              .ok (if reads dims start extent memory = true then
                some (List.zipWith (fun start extent => (start, start + extent)) start extent)
              else none)

/-- The branch of `ProcessReq` for a selection. A child that ended early has written nothing. A
request without a selection is answered in another branch, also with 200. -/
def readSelection (reads : Library) (dims : List Nat) (select : Text) : Outcome Reply :=
  if select = [] then .ok ⟨200, none⟩
  else
    match xrdReadDatasetInfoByChunked reads dims select with
    | .undefined => .undefined
    | .fail => .ok ⟨200, none⟩
    | .ok body => .ok ⟨200, body⟩

/-! ## Well-formed selections -/

/-- The library reads a selection inside of the extent into a space of its size. -/
def ReadsInside (reads : Library) : Prop :=
  ∀ box dims, List.Forall₂ (fun d extent => d.1 < d.2 ∧ d.2 ≤ extent) (box : Box) dims →
    reads dims (box.map Prod.fst) (box.map fun d => d.2 - d.1) (box.map fun d => d.2 - d.1) = true

/-- A field that is a number. -/
def Numeric (field : Text) : Prop := field ≠ [] ∧ ∀ c ∈ field, c.isDigit = true

/-- The number of a field. -/
def fieldValue (field : Text) : Nat := Nat.ofDigitChars 10 field 0

/-- An entry of a selection, `start:stop` or `start:stop:step`. -/
structure Entry where
  start : Text
  stop : Text
  step : Option Text

namespace Entry

/-- The fields of an entry. -/
def fields (entry : Entry) : List Text := entry.start :: entry.stop :: entry.step.toList

/-- The text of an entry. -/
def text (entry : Entry) : Text := [':'].intercalate entry.fields

/-- The indices that an entry selects. -/
def interval (entry : Entry) : Nat × Nat := (fieldValue entry.start, fieldValue entry.stop)

end Entry

/-- A well-formed selection, with the indices that it selects: one entry for each dimension, inside
of the extent and in the range of an `int`. -/
def Describes (dims : List Nat) (select : Text) (box : Box) : Prop :=
  ∃ list : List Entry, select = '[' :: [','].intercalate (list.map Entry.text) ++ [']'] ∧
    (∀ entry ∈ list, ∀ field ∈ entry.fields, Numeric field) ∧ box = list.map Entry.interval ∧
      List.Forall₂ (fun d extent => d.1 < d.2 ∧ d.2 ≤ extent) box dims ∧ ∀ d ∈ box, d.2 < 2 ^ 31

/-- Well-formed selections are read and answered with 200, every other one with an error, and no
array is read behind its end. -/
def AcceptsExactly (reads : Library) (dims : List Nat) (select : Text) : Prop :=
  (∀ box, Describes dims select box → readSelection reads dims select = .ok ⟨200, some box⟩) ∧
    ((¬ ∃ box, Describes dims select box) →
      ∃ reply, readSelection reads dims select = .ok reply ∧ 400 ≤ reply.status)

/-! ## Reading an entry -/

theorem isspace_of_isDigit {c : Char} (h : c.isDigit = true) : isspace c = false := by
  have hrange : 48 ≤ c.toNat ∧ c.toNat ≤ 57 := by
    simpa [Char.isDigit, UInt32.le_iff_toNat_le] using h
  have hblank : c ≠ ' ' := by
    rintro rfl
    simp at h
  simp [isspace, hblank]
  omega

/-- A number is read whole. -/
theorem stoi_numeric {field : Text} (h : Numeric field) :
    stoi field = if fieldValue field < 2 ^ 31 then some (fieldValue field : Int) else none := by
  obtain ⟨c, digits, rfl⟩ := List.exists_cons_of_ne_nil h.1
  have hc : c.isDigit = true := h.2 c List.mem_cons_self
  have hminus : c ≠ '-' := by
    rintro rfl
    simp at hc
  have hplus : c ≠ '+' := by
    rintro rfl
    simp at hc
  have hrun : (c :: digits).takeWhile Char.isDigit = c :: digits :=
    List.takeWhile_eq_self_iff.mpr h.2
  have hscan : scanDigits (c :: digits) = some (fieldValue (c :: digits)) := by
    rw [scanDigits, hrun]
    rfl
  have hstrtol : strtol (c :: digits) = some (fieldValue (c :: digits) : Int) := by
    unfold strtol
    rw [List.dropWhile_cons_of_neg (by simp [isspace_of_isDigit hc])]
    split
    · next heq => exact absurd (List.cons.inj heq).1 hminus
    · next heq => exact absurd (List.cons.inj heq).1 hplus
    · rw [hscan]
      rfl
  rw [stoi, hstrtol, Option.bind_some, cint_natCast]

theorem not_mem_of_numeric {field : Text} (h : Numeric field) {c : Char} (hc : c.isDigit = false) :
    c ∉ field := fun hmem => by
  rw [h.2 c hmem] at hc
  cases hc

theorem getlines_entry {entry : Entry} (h : ∀ field ∈ entry.fields, Numeric field) :
    getlines ':' entry.text = entry.fields := by
  refine getlines_intercalate ?_ (List.cons_ne_nil _ _) fun hlast => ?_
  · exact fun field hfield => not_mem_of_numeric (h field hfield) (by decide)
  · exact (h [] (List.mem_of_getLast? hlast)).1 rfl

theorem parseToken_entry {entry : Entry} (h : ∀ field ∈ entry.fields, Numeric field)
    (hstart : entry.interval.1 < 2 ^ 31) (hstop : entry.interval.2 < 2 ^ 31) :
    parseToken entry.text = some ([(entry.interval.1 : Int)], [(entry.interval.2 : Int)]) := by
  have hfirst : stoi entry.start = some (entry.interval.1 : Int) := by
    rw [stoi_numeric (h entry.start (by simp [Entry.fields]))]
    exact if_pos hstart
  have hsecond : stoi entry.stop = some (entry.interval.2 : Int) := by
    rw [stoi_numeric (h entry.stop (by simp [Entry.fields]))]
    exact if_pos hstop
  rw [parseToken, getlines_entry h, Entry.fields]
  simp only [hfirst, hsecond]
  rfl

theorem comma_not_mem_entry {entry : Entry} (h : ∀ field ∈ entry.fields, Numeric field) :
    ',' ∉ entry.text := fun hmem => by
  rcases mem_intercalate hmem with hcolon | ⟨field, hfield, hcomma⟩
  · exact absurd hcolon (by decide)
  · exact not_mem_of_numeric (h field hfield) (by decide) hcomma

theorem entry_ne_nil {entry : Entry} (h : ∀ field ∈ entry.fields, Numeric field) :
    entry.text ≠ [] := fun hnil => by
  have hlines := getlines_entry h
  rw [hnil] at hlines
  exact absurd hlines (by simp [getlines, Entry.fields])

/-! ## Reading a selection -/

section Selection

variable {reads : Library} {dims : List Nat} {select : Text} {box : Box}

/-- The two lists of a well-formed selection. -/
theorem parseSelect_of_describes (h : Describes dims select box) :
    parseSelect select = some (box.map fun d => (d.1 : Int), box.map fun d => (d.2 : Int)) := by
  obtain ⟨list, rfl, hnumeric, rfl, hinside, hrange⟩ := h
  have hbounds : ∀ entry ∈ list, entry.interval.1 < 2 ^ 31 ∧ entry.interval.2 < 2 ^ 31 := by
    intro entry hentry
    have hmem := List.mem_map_of_mem (f := Entry.interval) hentry
    have hstop := hrange _ hmem
    obtain ⟨k, hk, hat⟩ := List.getElem_of_mem hmem
    have hlt := (hinside.get hk (hinside.length_eq ▸ hk)).1
    rw [List.get_eq_getElem, hat] at hlt
    exact ⟨hlt.trans hstop, hstop⟩
  have htokens : getlines ',' ([','].intercalate (list.map Entry.text)) = list.map Entry.text := by
    by_cases hne : list = []
    · subst hne
      rfl
    · refine getlines_intercalate ?_ (by simpa using hne) fun hlast => ?_
      · exact List.forall_mem_map.mpr fun entry hentry => comma_not_mem_entry
          (hnumeric entry hentry)
      · obtain ⟨entry, hentry, hnil⟩ := List.mem_map.mp (List.mem_of_getLast? hlast)
        exact entry_ne_nil (hnumeric entry hentry) hnil
  have hparse : (list.map Entry.text).mapM parseToken =
      some (list.map fun entry => ([(entry.interval.1 : Int)], [(entry.interval.2 : Int)])) := by
    rw [List.mapM_map]
    refine mapM_eq_some_map fun entry hentry => ?_
    exact parseToken_entry (hnumeric entry hentry) (hbounds entry hentry).1 (hbounds entry hentry).2
  have hstrip : (('[' :: [','].intercalate (list.map Entry.text) ++ [']']).drop 1).dropLast =
      [','].intercalate (list.map Entry.text) := by
    simp
  rw [parseSelect, if_neg (by simp), hstrip, htokens, hparse]
  simp only [Option.bind_eq_bind, Option.bind_some, ← List.flatMap_def, List.flatMap_map,
    ← List.map_eq_flatMap, List.map_map]
  rfl

theorem counts_of_inside (hinside : List.Forall₂ (fun d extent => d.1 < d.2 ∧ d.2 ≤ extent) box
    dims)
    (hrange : ∀ d ∈ box, d.2 < 2 ^ 31) :
    counts (box.map fun d => (d.1 : Int)) (box.map fun d => (d.2 : Int)) =
      .ok (box.map fun d => d.2 - d.1) := by
  have hlt : ∀ d ∈ box, d.1 < d.2 := fun d hd => by
    obtain ⟨k, hk, rfl⟩ := List.getElem_of_mem hd
    exact (hinside.get hk (hinside.length_eq ▸ hk)).1
  have hcount : (List.zipWith (fun stop start : Int => stop - start)
      (box.map fun d => (d.2 : Int)) (box.map fun d => (d.1 : Int))).mapM cint =
        some (box.map fun d => ((d.2 - d.1 : Nat) : Int)) := by
    rw [List.zipWith_map, List.zipWith_self, List.mapM_map]
    refine mapM_eq_some_map fun d hd => ?_
    rw [Function.comp_apply, ← Nat.cast_sub (hlt d hd).le]
    exact cint_natCast_of_lt (lt_of_le_of_lt (Nat.sub_le _ _) (hrange d hd))
  have hsize : (box.map fun d => ((d.2 - d.1 : Nat) : Int)).map toSize =
      box.map fun d => d.2 - d.1 := by
    rw [List.map_map]
    refine List.map_congr_left fun d hd => toSize_natCast ?_
    exact lt_of_le_of_lt (Nat.sub_le _ _) ((hrange d hd).trans (by decide))
  rw [counts, if_pos (by simp), hcount]
  simp only [hsize]

/-- A well-formed selection is read. -/
theorem readSelection_of_describes (hreads : ReadsInside reads) (h : Describes dims select box) :
    readSelection reads dims select = .ok ⟨200, some box⟩ := by
  have hparse := parseSelect_of_describes h
  obtain ⟨list, hselect, -, -, hinside, hrange⟩ := h
  have hne : select ≠ [] := by simp [hselect]
  have hlt : ∀ d ∈ box, d.1 < d.2 := fun d hd => by
    obtain ⟨k, hk, rfl⟩ := List.getElem_of_mem hd
    exact (hinside.get hk (hinside.length_eq ▸ hk)).1
  have hstart : (box.map fun d => (d.1 : Int)).map toSize = box.map Prod.fst := by
    rw [List.map_map]
    refine List.map_congr_left fun d hd => toSize_natCast ?_
    exact ((hlt d hd).trans (hrange d hd)).trans (by decide)
  have hentries (array : List Nat) (hlen : array.length = box.length) :
      entries box.length array = .ok array := by
    rw [entries, if_pos (Nat.le_of_eq hlen.symm), List.take_of_length_le (Nat.le_of_eq hlen)]
  have hbox : List.zipWith (fun start extent => (start, start + extent)) (box.map Prod.fst)
      (box.map fun d => d.2 - d.1) = box := by
    rw [List.zipWith_map, List.zipWith_self]
    refine (List.map_congr_left fun d hd => ?_).trans (List.map_id box)
    exact Prod.ext rfl (Nat.add_sub_cancel' (hlt d hd).le)
  have hread : xrdReadDatasetInfoByChunked reads dims select = .ok (some box) := by
    rw [xrdReadDatasetInfoByChunked, hparse]
    simp only [counts_of_inside hinside hrange, Outcome.ok_bind, hstart, ← hinside.length_eq,
      List.length_map, hentries _ (List.length_map ..), hreads box dims hinside, if_true, hbox]
  rw [readSelection, if_neg hne, hread]

/-- Whatever the parameter, the status of an answer is 200. -/
theorem status_readSelection {reply : Reply} (h : readSelection reads dims select = .ok reply) :
    reply.status = 200 := by
  unfold readSelection at h
  split at h
  · cases h
    rfl
  · split at h
    · cases h
    · cases h
      rfl
    · cases h
      rfl

theorem length_counts {result1 result2 : List Int} {count : List Nat}
    (h : counts result1 result2 = .ok count) : count.length = result2.length := by
  have hmap (values : List Int) : ∀ {results : List Int}, values.mapM cint = some results →
      results.length = values.length := by
    induction values with
    | nil =>
        intro results hresults
        cases hresults
        rfl
    | cons value values ih =>
        intro results hresults
        rw [List.mapM_cons] at hresults
        obtain ⟨first, -, hresults⟩ := Option.bind_eq_some_iff.mp hresults
        obtain ⟨more, hmore, hall⟩ := Option.bind_eq_some_iff.mp hresults
        cases hall
        rw [List.length_cons, List.length_cons, ih hmore]
  unfold counts at h
  split at h
  · next hle =>
      split at h
      · next results hresults =>
          cases h
          rw [List.length_map, hmap _ hresults, List.length_zipWith, Nat.min_eq_left hle]
      · cases h
  · cases h

theorem counts_ne_fail (result1 result2 : List Int) : counts result1 result2 ≠ .fail := by
  unfold counts
  split
  · split <;> exact nofun
  · exact nofun

/-- An array is read behind its end when there are fewer entries than dimensions, or an entry
without a stop; and a difference may not be an `int`. -/
theorem readSelection_undefined_iff (hne : select ≠ []) :
    readSelection reads dims select = .undefined ↔
      ∃ result1 result2, parseSelect select = some (result1, result2) ∧
        (counts result1 result2 = .undefined ∨ result1.length < dims.length ∨
          result2.length < dims.length ∨ result2.length < result1.length) := by
  have hrun : readSelection reads dims select = .undefined ↔
      xrdReadDatasetInfoByChunked reads dims select = .undefined := by
    rw [readSelection, if_neg hne]
    cases xrdReadDatasetInfoByChunked reads dims select <;> simp
  rw [hrun, xrdReadDatasetInfoByChunked]
  cases hparse : parseSelect select with
  | none => simp
  | some results =>
      obtain ⟨result1, result2⟩ := results
      have hentries (n : Nat) (array : List Nat) :
          entries n array = if n ≤ array.length then .ok (array.take n) else .undefined := rfl
      cases hcounts : counts result1 result2 with
      | fail => exact absurd hcounts (counts_ne_fail result1 result2)
      | undefined =>
          refine iff_of_true ?_ ⟨result1, result2, rfl, .inl hcounts⟩
          simp only [hcounts]
          rfl
      | ok count =>
          have hlen := length_counts hcounts
          have hsome : (∃ first second, some (result1, result2) = some (first, second) ∧
              (counts first second = .undefined ∨ first.length < dims.length ∨
                second.length < dims.length ∨ second.length < first.length)) ↔
              (result1.length < dims.length ∨ result2.length < dims.length ∨
                result2.length < result1.length) := by
            constructor
            · rintro ⟨first, second, heq, hcase⟩
              cases heq
              exact hcase.resolve_left (by rw [hcounts]; exact nofun)
            · exact fun h => ⟨result1, result2, rfl, .inr h⟩
          rw [hsome]
          simp only [hcounts, Outcome.ok_bind, hentries, List.length_map, hlen]
          by_cases hstart : dims.length ≤ result1.length
          · by_cases hextent : dims.length ≤ result2.length
            · by_cases hmemory : result1.length ≤ result2.length
              · simp only [if_pos hstart, if_pos hextent, if_pos hmemory, Outcome.ok_bind]
                exact iff_of_false nofun (by omega)
              · simp only [if_pos hstart, if_pos hextent, if_neg hmemory, Outcome.ok_bind]
                exact iff_of_true rfl (by omega)
            · simp only [if_pos hstart, if_neg hextent, Outcome.ok_bind]
              exact iff_of_true rfl (by omega)
          · simp only [if_neg hstart]
            exact iff_of_true rfl (by omega)

end Selection

/-- A library that compares the selection with the extent and with the space in memory. -/
def comparingLibrary : Library := fun dims start extent memory =>
  decide (extent = memory) && (List.zip (List.zipWith (· + ·) start extent) dims).all
    fun bound => decide (bound.1 ≤ bound.2)

theorem readsInside_comparingLibrary : ReadsInside comparingLibrary := by
  intro box dims hinside
  have hstops : List.zipWith (· + ·) (box.map Prod.fst) (box.map fun d => d.2 - d.1) =
      box.map Prod.snd := by
    rw [List.zipWith_map, List.zipWith_self]
    refine List.map_congr_left fun d hd => ?_
    obtain ⟨k, hk, rfl⟩ := List.getElem_of_mem hd
    exact Nat.add_sub_cancel' (hinside.get hk (hinside.length_eq ▸ hk)).1.le
  simp only [comparingLibrary, hstops, decide_true, Bool.true_and, List.all_eq_true,
    decide_eq_true_eq, List.zip_map_left, List.forall_mem_map]
  exact fun pair hpair => (List.forall₂_zip hinside hpair).2

end XHDF5.Plugin.SelectCheck
