/-
# The path of an object's handle

`RV_set_object_handle_path` joins the name an object is created or opened by to the path of the
handle it is opened from. A name with a leading separator replaces that path. Nothing is
normalised: the separators of a name stay as they are.

The allocation succeeds, and what the new memory holds is arbitrary. Texts are the characters of
C strings.
-/

import XHDF5.Math.CString

namespace XHDF5.Client.HandlePath

open XHDF5.Math

/-! ## The code -/

/-- `obj_path[0] == '/'`. -/
def IsAbsolute (name : Text) : Prop := (cString name).head? = some '/'

instance (name : Text) : Decidable (IsAbsolute name) := inferInstanceAs (Decidable (_ = _))

/-- The parent's path, if `include_parent_path` is true. -/
def includedParent (objPath : Text) : Option Text → Option Text
  | none => none
  | some parentPath =>
      if cString parentPath ≠ ['/'] ∧ ¬ IsAbsolute objPath then some parentPath else none

/-- `path_size`. -/
def pathSize (objPath : Text) : Option Text → Nat
  | some parentPath => strlen parentPath + 1 + strlen objPath + 1
  | none => 1 + strlen objPath + 1

/-- The parent's path at the beginning of the buffer, and `path_len`. -/
def copyParent (b : Buffer Char) : Option Text → Outcome (Buffer Char × Nat)
  | some parentPath =>
      (b.strncpy 0 parentPath b.size).bind fun b => .ok (b, strlen parentPath)
  | none => .ok (b, 0)

/-- The separator before a relative name. -/
def addSeparator (b : Buffer Char) (pathLen : Nat) (objPath : Text) :
    Outcome (Buffer Char × Nat) :=
  if IsAbsolute objPath then .ok (b, pathLen)
  else (b.store pathLen ['/']).bind fun b => .ok (b, pathLen + 1)

/-- `RV_set_object_handle_path`: the new buffer, in memory that held `fresh`. -/
def rvSetObjectHandlePath (fresh : Memory Char) (objPath parentPath : Option Text) :
    Outcome (Option (Buffer Char)) :=
  match objPath with
  | none => .ok none
  | some objPath =>
      let included := includedParent objPath parentPath
      let size := pathSize objPath included
      (copyParent ⟨fresh, size⟩ included).bind fun (b, pathLen) =>
        (addSeparator b pathLen objPath).bind fun (b, pathLen) =>
          (b.strncpy pathLen objPath (strlen objPath + 1)).bind fun b =>
            (b.store (size - 1) [nul]).bind fun b => .ok (some b)

/-- The string that `handle_path` points to afterwards. -/
def handlePath (fresh : Memory Char) (objPath parentPath : Option Text) :
    Outcome (Option Text) :=
  (rvSetObjectHandlePath fresh objPath parentPath).bind fun result =>
    match result with
    | none => .ok none
    | some b => b.string.bind fun path => .ok (some path)

/-! ## What it computes -/

/-- The separator and the name behind a parent's path. -/
def relativePart (name : Text) : Text := if IsAbsolute name then name else '/' :: name

/-- A name joined to a parent's path. -/
def joinPath (parent : Option Text) (name : Text) : Text :=
  (includedParent name parent).getD [] ++ relativePart name

section Writes

variable {fresh : Memory Char} {name : Text} {parent : Option Text}

/-- The parent's path and the separator are at the beginning, with room for the name. -/
theorem copyParent_addSeparator (hname : nul ∉ name) (hparent : ∀ path ∈ parent, nul ∉ path)
    (habs : IsAbsolute name → parent = none) :
    ∃ b : Buffer Char, ∃ start : Text, b.size = pathSize name parent ∧ b.StartsWith start ∧
      start ++ name = parent.getD [] ++ relativePart name ∧
      start.length + name.length < b.size ∧
      ((copyParent ⟨fresh, pathSize name parent⟩ parent).bind fun (b, pathLen) =>
        addSeparator b pathLen name) = .ok (b, start.length) := by
  have hlen : strlen name = name.length := by rw [strlen, cString_of_not_mem hname]
  cases parent with
  | none =>
      by_cases hname : IsAbsolute name
      · refine ⟨⟨fresh, pathSize name none⟩, [], rfl, Buffer.startsWith_nil, ?_, ?_, ?_⟩
        · simp [relativePart, hname]
        · simp only [pathSize, hlen, List.length_nil]
          omega
        · simp [copyParent, addSeparator, hname]
      · have hstarts := @Buffer.StartsWith.write [] ⟨fresh, pathSize name none⟩ ['/']
          Buffer.startsWith_nil
        refine ⟨⟨fresh.write 0 ['/'], pathSize name none⟩, ['/'], rfl, hstarts, ?_, ?_, ?_⟩
        · simp [relativePart, hname]
        · simp only [pathSize, hlen, List.length_singleton]
          omega
        · have hwithin : Buffer.Within ⟨fresh, pathSize name none⟩ 0 ['/'].length :=
            .inr (by simp only [pathSize, List.length_singleton]; omega)
          simp only [copyParent, addSeparator, Outcome.ok_bind, if_neg hname,
            Buffer.store_of_within hwithin]
          rfl
  | some path =>
      have hrelative : ¬ IsAbsolute name := fun h => by cases habs h
      have hpath : strlen path = path.length := by
        rw [strlen, cString_of_not_mem (hparent path rfl)]
      have hroom : path.length + 1 + name.length + 1 = pathSize name (some path) := by
        rw [pathSize, hpath, hlen]
      have hstarts : Buffer.StartsWith
          ⟨fresh.write 0 (padded path (pathSize name (some path))), pathSize name (some path)⟩
          path := by
        have hall := @Buffer.StartsWith.write [] ⟨fresh, pathSize name (some path)⟩
          (padded path (pathSize name (some path))) Buffer.startsWith_nil
        rw [padded_of_lt (by omega), cString_of_not_mem (hparent path rfl), List.nil_append] at hall
        rw [padded_of_lt (by omega), cString_of_not_mem (hparent path rfl)]
        exact hall.of_append
      refine ⟨⟨(fresh.write 0 (padded path (pathSize name (some path)))).write path.length ['/'],
        pathSize name (some path)⟩, path ++ ['/'], rfl, hstarts.write, ?_, ?_, ?_⟩
      · simp [relativePart, hrelative]
      · simp only [List.length_append, List.length_singleton]
        omega
      · have hall : Buffer.Within ⟨fresh, pathSize name (some path)⟩ 0
            (pathSize name (some path)) :=
          .inr (Nat.le_of_eq (Nat.zero_add _))
        have hwithin : Buffer.Within
            ⟨fresh.write 0 (padded path (pathSize name (some path))), pathSize name (some path)⟩
            path.length ['/'].length :=
          .inr (by simp only [List.length_singleton]; omega)
        simp only [copyParent, addSeparator, Outcome.ok_bind, if_neg hrelative, hpath,
          strncpy_of_within hall, Buffer.store_of_within hwithin, List.length_append,
          List.length_singleton]

theorem includedParent_of_absolute (h : IsAbsolute name) : includedParent name parent = none := by
  cases parent with
  | none => rfl
  | some path => exact if_neg fun hboth => hboth.2 h

theorem mem_of_mem_includedParent {path : Text} (h : path ∈ includedParent name parent) :
    path ∈ parent := by
  cases parent with
  | none => cases h
  | some path' =>
      by_cases hboth : cString path' ≠ ['/'] ∧ ¬ IsAbsolute name
      · rwa [includedParent, if_pos hboth] at h
      · rw [includedParent, if_neg hboth] at h
        cases h

/-- No store leaves the buffer, and the string in it is the joined path. -/
theorem handlePath_eq (fresh : Memory Char) (hname : nul ∉ name)
    (hparent : ∀ path ∈ parent, nul ∉ path) :
    handlePath fresh (some name) parent = .ok (some (joinPath parent name)) := by
  have hincluded : ∀ path ∈ includedParent name parent, nul ∉ path :=
    fun path hpath => hparent path (mem_of_mem_includedParent hpath)
  obtain ⟨b, start, hsize, hstarts, hjoin, hroom, hcopy⟩ :=
    @copyParent_addSeparator fresh name _ hname hincluded includedParent_of_absolute
  have hclean : nul ∉ start ++ name := by
    rw [hjoin, List.mem_append, not_or]
    constructor
    · cases hcase : includedParent name parent with
      | none => simp
      | some path => exact hincluded path hcase
    · unfold relativePart
      split
      · exact hname
      · simpa [nul] using hname
  have hlen : strlen name = name.length := by rw [strlen, cString_of_not_mem hname]
  have hcopied : b.Within start.length (strlen name + 1) := .inr (by omega)
  have hwritten := @Buffer.StartsWith.write _ _ (padded name (strlen name + 1)) hstarts
  rw [padded_succ_strlen, cString_of_not_mem hname, ← List.append_assoc] at hwritten
  have hlast : Buffer.Within ⟨b.bytes.write start.length (name ++ [nul]), b.size⟩
      (b.size - 1) [nul].length := .inr (by simp only [List.length_singleton]; omega)
  have hstring : Buffer.string
      ⟨(b.bytes.write start.length (name ++ [nul])).write (b.size - 1) [nul], b.size⟩ =
        .ok (start ++ name) := by
    refine Buffer.StartsWith.string ?_ hclean (by rw [List.length_append]; exact hroom)
    -- The last store hits the terminator or the place behind it.
    rcases Nat.eq_or_lt_of_le (Nat.le_sub_one_of_lt hroom) with hend | hbehind
    · have hat := @Buffer.StartsWith.write _ _ [nul] hwritten.of_append
      rw [List.length_append, hend] at hat
      exact hat
    · refine hwritten.write_of_le ?_
      simp only [List.length_append, List.length_singleton]
      exact hbehind
  have hresult : rvSetObjectHandlePath fresh (some name) parent = .ok (some
      ⟨(b.bytes.write start.length (name ++ [nul])).write (b.size - 1) [nul], b.size⟩) := by
    obtain ⟨⟨copied, pathLen⟩, hparentCopy, hseparator⟩ := Outcome.bind_eq_ok_iff.mp hcopy
    unfold rvSetObjectHandlePath
    simp only [hparentCopy, hseparator, Outcome.ok_bind, strncpy_of_within hcopied]
    simp only [padded_succ_strlen, cString_of_not_mem hname, ← hsize,
      Buffer.store_of_within hlast, Outcome.ok_bind]
  rw [handlePath, hresult, Outcome.ok_bind]
  simp only [hstring, Outcome.ok_bind, joinPath, hjoin]

end Writes

/-! ## Separators -/

/-- A path begins with one separator. -/
def StartsOnce (path : Text) : Prop := path.head? = some '/' ∧ path.tail.head? ≠ some '/'

instance (path : Text) : Decidable (StartsOnce path) := inferInstanceAs (Decidable (_ ∧ _))

/-- The number of separators that stand right behind another one. -/
def slashPairs : Text → Nat
  | c :: d :: rest => (if c = '/' ∧ d = '/' then 1 else 0) + slashPairs (d :: rest)
  | _ => 0

/-- The doubled separators of a parent's path. -/
def slashPairsIn (parent : Option Text) : Nat := (parent.map slashPairs).getD 0

/-- The parent's path is not the root and ends in a separator. -/
def EndsOpen (parent : Option Text) : Prop :=
  ∃ path ∈ parent, path ≠ ['/'] ∧ path.getLast? = some '/'

instance : ∀ parent, Decidable (EndsOpen parent)
  | none => isFalse fun ⟨_, h, _⟩ => by cases h
  | some path =>
      decidable_of_iff (path ≠ ['/'] ∧ path.getLast? = some '/')
        ⟨fun h => ⟨path, rfl, h⟩, fun ⟨_, h, hpath⟩ => Option.some.inj h ▸ hpath⟩

/-- A relative name without separators at its ends. -/
structure PathName (name : Text) : Prop where
  nonempty : name ≠ []
  noNul : nul ∉ name
  noLeading : name.head? ≠ some '/'
  noTrailing : name.getLast? ≠ some '/'

/-- A name that is the root, or is not empty, does not end in a separator and does not start with
several. -/
def Tidy (name : Text) : Prop :=
  name = ['/'] ∨
    name ≠ [] ∧ name.getLast? ≠ some '/' ∧ (name.head? = some '/' → StartsOnce name)

/-- The paths of handles: no path, the root, and what the function makes of them with the names
it is given. -/
inductive Produced (Names : Text → Prop) : Option Text → Prop
  | null : Produced Names none
  | root : Produced Names (some ['/'])
  | child {parent path : Option Text} {name : Option Text} {fresh : Memory Char}
      (hparent : Produced Names parent) (hname : ∀ text ∈ name, nul ∉ text ∧ Names text)
      (hpath : handlePath fresh name parent = .ok path) : Produced Names path

theorem slashPairs_cons (c : Char) (rest : Text) :
    slashPairs (c :: rest) =
      (if c = '/' ∧ rest.head? = some '/' then 1 else 0) + slashPairs rest := by
  cases rest with
  | nil => simp [slashPairs]
  | cons d rest => simp [slashPairs]

/-- Only the place where two texts meet can hold another doubled separator. -/
theorem slashPairs_append (first second : Text) :
    slashPairs (first ++ second) = slashPairs first + slashPairs second +
      if first.getLast? = some '/' ∧ second.head? = some '/' then 1 else 0 := by
  induction first with
  | nil => simp [slashPairs]
  | cons c first ih =>
      rw [List.cons_append, slashPairs_cons, ih, slashPairs_cons]
      cases first with
      | nil => simp [slashPairs]; omega
      | cons d first => simp; omega

theorem isAbsolute_iff {name : Text} (hname : nul ∉ name) :
    IsAbsolute name ↔ name.head? = some '/' := by
  rw [IsAbsolute, cString_of_not_mem hname]

section Names

variable {a b : Text} {parent : Option Text}

theorem PathName.not_isAbsolute (ha : PathName a) : ¬ IsAbsolute a :=
  fun h => ha.noLeading ((isAbsolute_iff ha.noNul).mp h)

theorem PathName.join (ha : PathName a) (hb : PathName b) : PathName (a ++ '/' :: b) where
  nonempty := by simp
  noNul := by
    rw [List.mem_append, List.mem_cons]
    rintro (hfirst | hseparator | hsecond)
    · exact ha.noNul hfirst
    · exact absurd hseparator (by decide)
    · exact hb.noNul hsecond
  noLeading := by
    have hne := ha.nonempty
    have hhead := ha.noLeading
    cases a with
    | nil => exact absurd rfl hne
    | cons c a => simpa using hhead
  noTrailing := by
    have hne := hb.nonempty
    have hlast := hb.noTrailing
    cases b with
    | nil => exact absurd rfl hne
    | cons c b => simpa using hlast

theorem PathName.slashPairs_cons (ha : PathName a) : slashPairs ('/' :: a) = slashPairs a := by
  rw [HandlePath.slashPairs_cons, if_neg fun h => ha.noLeading h.2, Nat.zero_add]

theorem PathName.slashPairs_join (ha : PathName a) (hb : PathName b) :
    slashPairs (a ++ '/' :: b) = slashPairs a + slashPairs b := by
  rw [slashPairs_append, if_neg fun h => ha.noTrailing h.1, hb.slashPairs_cons, Nat.add_zero]

/-- What a parent's path puts before a relative name. -/
def parentPart : Option Text → Text
  | none => []
  | some path => if path = ['/'] then [] else path

theorem joinPath_of_absolute (h : IsAbsolute a) : joinPath parent a = a := by
  rw [joinPath, includedParent_of_absolute h, relativePart, if_pos h]
  rfl

theorem joinPath_of_relative (h : ¬ IsAbsolute a) (hparent : ∀ path ∈ parent, nul ∉ path) :
    joinPath parent a = parentPart parent ++ '/' :: a := by
  rw [joinPath, relativePart, if_neg h]
  cases parent with
  | none => rfl
  | some path =>
      have hpath : cString path = path := cString_of_not_mem (hparent path rfl)
      by_cases hroot : path = ['/']
      · rw [includedParent, hpath, if_neg fun h => h.1 hroot, parentPart, if_pos hroot,
          Option.getD_none]
      · rw [includedParent, hpath, if_pos ⟨hroot, h⟩, parentPart, if_neg hroot,
          Option.getD_some]

theorem nul_not_mem_parentPart (hparent : ∀ path ∈ parent, nul ∉ path) :
    nul ∉ parentPart parent := by
  cases parent with
  | none => simp [parentPart]
  | some path =>
      by_cases hroot : path = ['/']
      · simp [parentPart, hroot]
      · rw [parentPart, if_neg hroot]
        exact hparent path rfl

theorem nul_not_mem_joinPath (ha : nul ∉ a) (hparent : ∀ path ∈ parent, nul ∉ path) :
    nul ∉ joinPath parent a := by
  by_cases habs : IsAbsolute a
  · rwa [joinPath_of_absolute habs]
  · rw [joinPath_of_relative habs hparent, List.mem_append, List.mem_cons]
    rintro (hbefore | hseparator | hname)
    · exact nul_not_mem_parentPart hparent hbefore
    · exact absurd hseparator (by decide)
    · exact ha hname

theorem PathName.joinPath (ha : PathName a) (hparent : ∀ path ∈ parent, nul ∉ path) :
    joinPath parent a = parentPart parent ++ '/' :: a :=
  joinPath_of_relative ha.not_isAbsolute hparent

/-- Two names one after the other are the name of both. -/
theorem PathName.joinPath_joinPath (ha : PathName a) (hb : PathName b)
    (hparent : ∀ path ∈ parent, nul ∉ path) :
    HandlePath.joinPath (some (HandlePath.joinPath parent a)) b =
      HandlePath.joinPath parent (a ++ '/' :: b) := by
  have hclean : ∀ path ∈ some (HandlePath.joinPath parent a), nul ∉ path := by
    rintro path ⟨rfl⟩
    exact nul_not_mem_joinPath ha.noNul hparent
  have hlen : 0 < a.length := List.length_pos_iff.mpr ha.nonempty
  have hne : parentPart parent ++ '/' :: a ≠ ['/'] := fun h => by
    have := congrArg List.length h
    simp only [List.length_append, List.length_cons, List.length_nil] at this
    omega
  rw [hb.joinPath hclean, (ha.join hb).joinPath hparent, ha.joinPath hparent, parentPart,
    if_neg hne, List.append_assoc, List.cons_append]

/-- The beginning of a path is the beginning of its parent's. -/
theorem PathName.startsOnce_joinPath (ha : PathName a) (hparent : ∀ path ∈ parent, nul ∉ path)
    (hstart : ∀ path ∈ parent, path.head? = some '/') :
    (HandlePath.joinPath parent a).head? = some '/' ∧
      (StartsOnce (HandlePath.joinPath parent a) ↔ ∀ path ∈ parent, StartsOnce path) := by
  have hplain : StartsOnce ('/' :: a) := ⟨rfl, ha.noLeading⟩
  rw [ha.joinPath hparent]
  cases parent with
  | none => exact ⟨rfl, iff_of_true hplain fun _ h => by cases h⟩
  | some path =>
      have hhead := hstart path rfl
      by_cases hroot : path = ['/']
      · subst hroot
        refine ⟨rfl, iff_of_true hplain ?_⟩
        rintro _ ⟨rfl⟩
        decide
      · cases path with
        | nil => cases hhead
        | cons c rest =>
            cases rest with
            | nil => exact absurd (congrArg (· :: []) (Option.some.inj hhead)) hroot
            | cons d rest =>
                simp only [parentPart, if_neg hroot, StartsOnce, List.cons_append,
                  List.head?_cons, List.tail_cons, Option.mem_def, Option.some.injEq,
                  forall_eq', and_true]
                exact Option.some.inj hhead

/-- The doubled separators are those of the parent and of the name, and one where a parent's path
ends in a separator. -/
theorem PathName.slashPairs_joinPath (ha : PathName a) (hparent : ∀ path ∈ parent, nul ∉ path) :
    slashPairs (HandlePath.joinPath parent a) =
      slashPairsIn parent + slashPairs a + if EndsOpen parent then 1 else 0 := by
  rw [ha.joinPath hparent, slashPairs_append, ha.slashPairs_cons]
  cases parent with
  | none =>
      have hopen : ¬ EndsOpen none := fun ⟨_, h, _⟩ => by cases h
      rw [if_neg hopen]
      simp [parentPart, slashPairsIn, slashPairs]
  | some path =>
      by_cases hroot : path = ['/']
      · have hopen : ¬ EndsOpen (some path) := by
          subst hroot
          decide
        rw [if_neg hopen]
        simp [parentPart, hroot, slashPairsIn, slashPairs]
      · have hopen : EndsOpen (some path) ↔ path.getLast? = some '/' := by
          constructor
          · rintro ⟨_, ⟨rfl⟩, -, hlast⟩
            exact hlast
          · exact fun hlast => ⟨path, rfl, hroot, hlast⟩
        simp [parentPart, hroot, slashPairsIn, hopen]

/-! ## Composition -/

/-- What setting paths from a parent's path keeps to. -/
structure JoinsPaths (parent : Option Text) : Prop where
  composes : ∀ a b, PathName a → PathName b → ∀ fresh fresh' fresh'' : Memory Char, ∃ path,
    handlePath fresh (some (a ++ '/' :: b)) parent = .ok (some path) ∧
      (handlePath fresh' (some a) parent).bind (handlePath fresh'' (some b)) = .ok (some path) ∧
      path.head? = some '/' ∧ (StartsOnce path ↔ ∀ path' ∈ parent, StartsOnce path') ∧
      slashPairs path =
        slashPairsIn parent + slashPairs a + slashPairs b + if EndsOpen parent then 1 else 0
  joins : ∀ a, PathName a → ∀ fresh : Memory Char, ∃ path,
    handlePath fresh (some a) parent = .ok (some path) ∧
      path.head? = some '/' ∧ (StartsOnce path ↔ ∀ path' ∈ parent, StartsOnce path') ∧
      slashPairs path = slashPairsIn parent + slashPairs a + if EndsOpen parent then 1 else 0
  replaces : ∀ name, nul ∉ name → name.head? = some '/' → ∀ fresh : Memory Char,
    handlePath fresh (some name) parent = .ok (some name)

/-- The beginning of a parent's path is a separator, if there is any. -/
theorem head?_parentPart (hstart : ∀ path ∈ parent, path.head? = some '/') :
    (parentPart parent ++ '/' :: a).head? = some '/' := by
  cases parent with
  | none => rfl
  | some path =>
      by_cases hroot : path = ['/']
      · rw [parentPart, if_pos hroot]
        rfl
      · rw [parentPart, if_neg hroot, List.head?_append, hstart path rfl]
        rfl

/-- Parents' paths are strings that begin with a separator. -/
theorem Produced.wellFormed {Names : Text → Prop} (h : Produced Names parent) :
    (∀ path ∈ parent, nul ∉ path) ∧ ∀ path ∈ parent, path.head? = some '/' := by
  induction h with
  | null =>
      constructor
      · rintro _ ⟨⟩
      · rintro _ ⟨⟩
  | root =>
      constructor
      · rintro _ ⟨rfl⟩
        decide
      · rintro _ ⟨rfl⟩
        rfl
  | @child parent path name fresh _ hname hpath ih =>
      cases name with
      | none =>
          obtain rfl : none = path := Outcome.ok.inj hpath
          constructor
          · rintro _ ⟨⟩
          · rintro _ ⟨⟩
      | some name =>
          have hclean := (hname name rfl).1
          rw [handlePath_eq fresh hclean ih.1] at hpath
          obtain rfl := Outcome.ok.inj hpath
          constructor
          · rintro _ ⟨rfl⟩
            exact nul_not_mem_joinPath hclean ih.1
          · rintro _ ⟨rfl⟩
            by_cases habs : IsAbsolute name
            · rw [joinPath_of_absolute habs]
              exact (isAbsolute_iff hclean).mp habs
            · rw [joinPath_of_relative habs ih.1]
              exact head?_parentPart ih.2

/-- A tidy relative name is one without separators at its ends. -/
theorem Tidy.pathName {name : Text} (h : Tidy name) (hclean : nul ∉ name)
    (habs : ¬ IsAbsolute name) : PathName name := by
  rw [isAbsolute_iff hclean] at habs
  rcases h with rfl | ⟨hne, hlast, -⟩
  · exact absurd rfl habs
  · exact ⟨hne, hclean, habs, hlast⟩

theorem Tidy.startsOnce {name : Text} (h : Tidy name) (habs : name.head? = some '/') :
    StartsOnce name := by
  rcases h with rfl | ⟨-, -, hstart⟩
  · decide
  · exact hstart habs

theorem Tidy.not_endsOpen {name : Text} (h : Tidy name) : ¬ EndsOpen (some name) := by
  rintro ⟨_, ⟨rfl⟩, hroot, hlast⟩
  rcases h with hname | ⟨-, hend, -⟩
  · exact hroot hname
  · exact hend hlast

/-- Tidy names make tidy paths. -/
theorem Produced.tidy {Names : Text → Prop} (h : Produced Names parent)
    (hnames : ∀ name, Names name → Tidy name) :
    (∀ path ∈ parent, StartsOnce path) ∧ ¬ EndsOpen parent := by
  induction h with
  | null => exact ⟨by rintro _ ⟨⟩, by decide⟩
  | root => exact ⟨by rintro _ ⟨rfl⟩; decide, by decide⟩
  | @child parent path name fresh hproduced hname hpath ih =>
      obtain ⟨hparent, hstart⟩ := hproduced.wellFormed
      cases name with
      | none =>
          obtain rfl : none = path := Outcome.ok.inj hpath
          exact ⟨by rintro _ ⟨⟩, by decide⟩
      | some name =>
          obtain ⟨hclean, hname⟩ := hname name rfl
          have htidy := hnames name hname
          rw [handlePath_eq fresh hclean hparent] at hpath
          obtain rfl := Outcome.ok.inj hpath
          by_cases habs : IsAbsolute name
          · rw [joinPath_of_absolute habs]
            refine ⟨?_, htidy.not_endsOpen⟩
            rintro _ ⟨rfl⟩
            exact htidy.startsOnce ((isAbsolute_iff hclean).mp habs)
          · have hpathName := htidy.pathName hclean habs
            constructor
            · rintro _ ⟨rfl⟩
              exact (hpathName.startsOnce_joinPath hparent hstart).2.mpr ih.1
            · rintro ⟨_, ⟨rfl⟩, -, hlast⟩
              rw [hpathName.joinPath hparent] at hlast
              have hne := hpathName.nonempty
              have hend := hpathName.noTrailing
              cases name with
              | nil => exact hne rfl
              | cons c name => simp at hlast hend; exact hend hlast

/-- Composition holds from every parent. The beginning, and a separator at the end, are taken over
from the parent's path, where only names that are not tidy can bring them in. -/
theorem joinsPaths_of_produced {Names : Text → Prop} (h : Produced Names parent) :
    JoinsPaths parent ∧ ((∀ name, Names name → Tidy name) →
      (∀ path ∈ parent, StartsOnce path) ∧ ¬ EndsOpen parent) := by
  obtain ⟨hclean, hstart⟩ := h.wellFormed
  refine ⟨⟨fun a b ha hb fresh fresh' fresh'' => ?_, fun a ha fresh => ?_,
    fun name hname habs fresh => ?_⟩, h.tidy⟩
  · have hchild : ∀ path ∈ some (joinPath parent a), nul ∉ path := by
      rintro _ ⟨rfl⟩
      exact nul_not_mem_joinPath ha.noNul hclean
    obtain ⟨hhead, honce⟩ := (ha.join hb).startsOnce_joinPath hclean hstart
    have hdoubled := (ha.join hb).slashPairs_joinPath hclean
    rw [ha.slashPairs_join hb, ← Nat.add_assoc] at hdoubled
    refine ⟨joinPath parent (a ++ '/' :: b), handlePath_eq fresh (ha.join hb).noNul hclean, ?_,
      hhead, honce, hdoubled⟩
    rw [handlePath_eq fresh' ha.noNul hclean, Outcome.ok_bind,
      handlePath_eq fresh'' hb.noNul hchild, ha.joinPath_joinPath hb hclean]
  · obtain ⟨hhead, honce⟩ := ha.startsOnce_joinPath hclean hstart
    exact ⟨joinPath parent a, handlePath_eq fresh ha.noNul hclean, hhead, honce,
      ha.slashPairs_joinPath hclean⟩
  · have habs : IsAbsolute name := (isAbsolute_iff hname).mpr habs
    rw [handlePath_eq fresh hname hclean, joinPath_of_absolute habs]

/-- A parent opened by one name. -/
theorem produced_name (name path : Text) (hname : nul ∉ name)
    (hpath : handlePath (fun _ => nul) (some name) none = .ok (some path)) :
    Produced (fun _ => True) (some path) :=
  .child .null (by rintro _ ⟨rfl⟩; exact ⟨hname, trivial⟩) hpath

theorem joinsPaths_group : JoinsPaths (some ['/', 'g']) :=
  (joinsPaths_of_produced (produced_name ['g'] _ (by decide) (by decide))).1

/-- A parent that was opened as "x/" has a separator at the end. -/
theorem not_singleSeparators : ¬ ∀ parent, Produced (fun _ => True) parent → ∀ a b, PathName a →
    PathName b → ∀ fresh path, handlePath fresh (some (a ++ '/' :: b)) parent = .ok (some path) →
      StartsOnce path ∧ slashPairs path ≤ slashPairs a + slashPairs b := by
  intro h
  have hparent : Produced (fun _ => True) (some ['/', 'x', '/']) :=
    produced_name ['x', '/'] _ (by decide) (by decide)
  have hname : PathName ['a'] := ⟨by decide, by decide, by decide, by decide⟩
  have hpath : handlePath (fun _ => nul) (some (['a'] ++ '/' :: ['a'])) (some ['/', 'x', '/']) =
      .ok (some ['/', 'x', '/', '/', 'a', '/', 'a']) := by decide
  have hdoubled := (h _ hparent _ _ hname hname _ _ hpath).2
  exact absurd hdoubled (by decide)

end Names

end XHDF5.Client.HandlePath
