/-
# The URLs of the client

Three functions address a dataset: `RV_find_object_by_path` looks it up and percent-encodes the
path it was given, while `RV_dataset_read` and `RV_dataset_write` put the name under which the
dataset was opened into the URL as it is. A URL of `URL_MAX_LENGTH` characters or more is refused.

`curl_easy_escape` is not part of the repository. It enters as a parameter with its documented
behaviour: unreserved characters stay, every other becomes `%` and two hexadecimal digits.
-/

import XHDF5.Client.Selection

namespace XHDF5.Client

open XHDF5.Math

/-- `server_api_version`. -/
structure ServerApiVersion where
  major : Nat
  minor : Nat
  patch : Nat

/-- `SERVER_VERSION_MATCHES_OR_EXCEEDS`. -/
def serverVersionMatchesOrExceeds (version : ServerApiVersion) (major minor patch : Nat) : Bool :=
  version.major > major ∨ (version.major = major ∧ version.minor > minor) ∨
    (version.major = major ∧ version.minor = minor ∧ version.patch ≥ patch)

/-! ## The code -/

/-- The characters `curl_easy_escape` leaves alone. -/
def unreserved (c : Char) : Bool :=
  c.isAlphanum || c == '-' || c == '.' || c == '_' || c == '~'

/-- What `curl_easy_escape` makes of the other characters. -/
structure EasyEscape where
  percent : Char → Text
  percent_eq : ∀ c, ∃ high low, percent c = ['%', high, low] ∧ high.isAlphanum ∧ low.isAlphanum

/-- `curl_easy_escape`. -/
def curlEasyEscape (e : EasyEscape) (token : Text) : Text :=
  token.flatMap fun c => if unreserved c then [c] else e.percent c

/-- `H5_rest_url_encode_path`: everything before the first alphanumeric character is copied, and
the tokens of the rest are escaped and joined by single slashes. -/
def h5RestUrlEncodePath (e : EasyEscape) (path : Text) : Text :=
  path.takeWhile (fun c => !c.isAlphanum) ++ ['/'].intercalate
    ((strtok (· == '/') (path.dropWhile fun c => !c.isAlphanum)).map (curlEasyEscape e))

/-- `URL_MAX_LENGTH`. -/
def urlMaxLength : Nat := 2048

/-- The check behind each `snprintf`. -/
def checkUrl (url : Text) : Option Text := if urlMaxLength ≤ url.length then none else some url

/-- The loop that skips all but the last of some leading dots. -/
def skipDots : Text → Text
  | '.' :: '.' :: rest => skipDots ('.' :: rest)
  | path => path

/-- The path that `RV_find_object_by_path` sends, and whether it is relative. -/
def preparePath (objPath : Text) : Text × Bool :=
  let path := objPath.dropWhile (· == ' ')
  if path = ['.'] then (path, true)
  else if path = ['/'] then (path, false)
  else
    let isRelativePath := path.head? ≠ some '/'
    (if isRelativePath then skipDots path else path, isRelativePath)

/-- The request of `RV_find_object_by_path` to a server of version 0.8.0 or later. -/
def rvFindObjectByPathUrl (e : EasyEscape) (baseURL parentURI objPath : Text) : Option Text :=
  let (path, isRelativePath) := preparePath objPath
  checkUrl (baseURL ++ lit "/?h5path=" ++ h5RestUrlEncodePath e path ++
    (if isRelativePath then lit "&parent_id=" ++ parentURI else []) ++
    lit "&follow_soft_links=1&follow_external_links=1")

/-- The selection that a request carries in its URL, and the text of the selection itself. For a
file dataspace of `H5S_ALL` no text is made, and a text that is not for a binary transfer does not
go into the URL. -/
def requestSelection (isFixedLength : Bool) (ndims : Nat) (fileSpace : Option SpaceSelection) :
    Option (Option Text × Text) :=
  match fileSpace with
  | none => some (none, [])
  | some selection =>
      let isTransferBinary := isFixedLength && !selection.isPoints
      (rvConvertDataspaceSelectionToString ndims selection isTransferBinary).map fun body =>
        (if isTransferBinary then some body else none, body)

/-- The request of `RV_dataset_read`. -/
def rvDatasetReadUrl (baseURL uri datasetName : Text) (select : Option Text) : Option Text :=
  checkUrl (baseURL ++ lit "/datasets/" ++ uri ++ lit "/value?h5path=" ++ datasetName ++
    match select with
    | none => []
    | some body => lit "&select=" ++ body)

/-- The request of `RV_dataset_write`. -/
def rvDatasetWriteUrl (baseURL uri datasetName : Text) (select : Option Text) : Option Text :=
  checkUrl (baseURL ++ lit "/datasets/" ++ uri ++ lit "/value" ++
    (match select with
      | none => []
      | some body => lit "?select=" ++ body) ++
    lit "?h5path=" ++ datasetName)

/-- The paths that a lookup hands over as they are: no leading blank, no leading `..`, and
nothing to escape. -/
def LookupClean (objPath : Text) : Prop :=
  objPath.head? ≠ some ' ' ∧ ¬ ['.', '.'] <+: objPath ∧
    ∀ c ∈ objPath.dropWhile fun c => !c.isAlphanum, c = '/' ∨ unreserved c

instance (objPath : Text) : Decidable (LookupClean objPath) :=
  inferInstanceAs (Decidable (_ ∧ _ ∧ _))

/-- The links an HDF5 path follows: empty components and `.` stand for the current group. -/
def components (path : Text) : List Text :=
  (strtok (· == '/') path).filter (· ≠ ['.'])

/-! ## Escaping -/

section Escape

variable (e : EasyEscape)

theorem mem_curlEasyEscape {token : Text} {c : Char} (hc : c ∈ curlEasyEscape e token) :
    unreserved c ∨ c = '%' := by
  obtain ⟨x, -, hx⟩ := List.mem_flatMap.mp hc
  by_cases hunreserved : unreserved x
  · rw [if_pos hunreserved, List.mem_singleton] at hx
    exact Or.inl (hx ▸ hunreserved)
  · obtain ⟨high, low, hpercent, hhigh, hlow⟩ := e.percent_eq x
    rw [if_neg hunreserved, hpercent] at hx
    simp only [List.mem_cons, List.not_mem_nil, or_false] at hx
    rcases hx with rfl | rfl | rfl
    · exact Or.inr rfl
    · exact Or.inl (by simp [unreserved, hhigh])
    · exact Or.inl (by simp [unreserved, hlow])

theorem not_mem_curlEasyEscape {token : Text} {c : Char} (hc : unreserved c = false)
    (hpercent : c ≠ '%') : c ∉ curlEasyEscape e token := by
  intro hmem
  rcases mem_curlEasyEscape e hmem with hunreserved | rfl
  · rw [hunreserved] at hc
    cases hc
  · exact hpercent rfl

@[simp]
theorem curlEasyEscape_nil : curlEasyEscape e [] = [] := rfl

theorem curlEasyEscape_cons (c : Char) (token : Text) :
    curlEasyEscape e (c :: token) =
      (if unreserved c then [c] else e.percent c) ++ curlEasyEscape e token := rfl

theorem length_le_curlEasyEscape (token : Text) :
    token.length ≤ (curlEasyEscape e token).length := by
  induction token with
  | nil => exact Nat.zero_le _
  | cons c token ih =>
      obtain ⟨high, low, hpercent, -⟩ := e.percent_eq c
      rw [curlEasyEscape_cons, List.length_append, List.length_cons, hpercent]
      split <;> simp <;> omega

theorem curlEasyEscape_ne_nil {token : Text} (hne : token ≠ []) : curlEasyEscape e token ≠ [] := by
  rw [← List.length_pos_iff] at hne ⊢
  exact lt_of_lt_of_le hne (length_le_curlEasyEscape e token)

/-- Escaping changes nothing exactly when there is nothing to escape. -/
theorem curlEasyEscape_eq_self_iff {token : Text} :
    curlEasyEscape e token = token ↔ ∀ c ∈ token, unreserved c := by
  induction token with
  | nil => simp
  | cons c token ih =>
      rw [curlEasyEscape_cons, List.forall_mem_cons]
      by_cases hc : unreserved c
      · simp [hc, ih]
      · obtain ⟨high, low, hpercent, -⟩ := e.percent_eq c
        have hlen := length_le_curlEasyEscape e token
        refine iff_of_false (fun heq => ?_) fun h => hc h.1
        have hlengths := congrArg List.length heq
        simp [hc, hpercent] at hlengths
        omega

/-- Only `.` escapes to `.`. -/
theorem curlEasyEscape_eq_dot_iff {token : Text} :
    curlEasyEscape e token = ['.'] ↔ token = ['.'] := by
  constructor
  · intro heq
    have hlen := length_le_curlEasyEscape e token
    rw [heq] at hlen
    match token with
    | [] => cases heq
    | [c] =>
        rw [curlEasyEscape_cons] at heq
        by_cases hc : unreserved c
        · simpa [hc] using heq
        · obtain ⟨high, low, hpercent, -⟩ := e.percent_eq c
          simp [hc, hpercent] at heq
    | _ :: _ :: _ => simp at hlen
  · rintro rfl
    rfl

/-! ## Encoded paths -/

theorem h5RestUrlEncodePath_cons {c : Char} (hc : c.isAlphanum = false) (path : Text) :
    h5RestUrlEncodePath e (c :: path) = c :: h5RestUrlEncodePath e path := by
  simp [h5RestUrlEncodePath, hc]

/-- The tokens of an encoded path are those of the path, escaped from the first alphanumeric
character on. -/
theorem strtok_h5RestUrlEncodePath {path : Text}
    (hpath : (path.dropWhile fun c => !c.isAlphanum) ≠ []) :
    ∃ before stem first more, (∃ c ∈ first, c.isAlphanum) ∧
      strtok (· == '/') path = before ++ (stem ++ first) :: more ∧
      strtok (· == '/') (h5RestUrlEncodePath e path) =
        before ++ (stem ++ curlEasyEscape e first) :: more.map (curlEasyEscape e) ∧
      ((∀ c ∈ path.dropWhile fun c => !c.isAlphanum, c = '/' ∨ unreserved c) ↔
        (∀ c ∈ first, unreserved c) ∧ ∀ token ∈ more, ∀ c ∈ token, unreserved c) := by
  have hsplit := List.takeWhile_append_dropWhile (p := fun c : Char => !c.isAlphanum) (l := path)
  have hhead := List.head_dropWhile_not (fun c : Char => !c.isAlphanum) hpath
  obtain ⟨c, rest, hrest⟩ := List.exists_cons_of_ne_nil hpath
  simp only [hrest, List.head_cons, Bool.not_eq_false'] at hhead
  have hslash : (c == '/') = false := by
    rw [beq_eq_false_iff_ne]
    rintro rfl
    revert hhead
    decide
  obtain ⟨first, tail, htext, hfirst, hclean, htail, htokens⟩ :=
    exists_strtok_cons (· == '/') hslash rest
  have hne : first ≠ [] := by rintro rfl; cases hfirst
  obtain ⟨before, stem, happend⟩ := exists_strtok_append (· == '/')
    (path.takeWhile fun c => !c.isAlphanum)
  -- The escaped tokens contain no slash, so joining and cutting gives them back.
  have hescaped (token : Text) : ∀ x ∈ curlEasyEscape e token, (x == '/') = false := by
    intro x hx
    rw [beq_eq_false_iff_ne]
    rintro rfl
    exact not_mem_curlEasyEscape e (by decide) (by decide) hx
  refine ⟨before, stem, first, strtok (· == '/') tail, ⟨c, List.mem_of_head? hfirst, hhead⟩,
    ?_, ?_, ?_⟩
  · rw [← happend first tail hne hclean htail, ← htext, ← hrest, hsplit]
  · have hjoined : strtok (· == '/') (['/'].intercalate
        ((strtok (· == '/') tail).map (curlEasyEscape e))) =
          (strtok (· == '/') tail).map (curlEasyEscape e) := by
      refine strtok_intercalate ?_ ?_
      · intro word hword hmem
        obtain ⟨token, -, rfl⟩ := List.mem_map.mp hword
        simpa using hescaped token '/' hmem
      · intro word hword
        obtain ⟨token, htoken, rfl⟩ := List.mem_map.mp hword
        exact curlEasyEscape_ne_nil e (ne_nil_of_mem_strtok htoken)
    rw [h5RestUrlEncodePath, hrest, htokens, List.map_cons]
    cases hmore : (strtok (· == '/') tail).map (curlEasyEscape e) with
    | nil =>
        have hword := happend (curlEasyEscape e first) [] (curlEasyEscape_ne_nil e hne)
          (hescaped first) (Or.inl rfl)
        simpa [List.intercalate] using hword
    | cons word words =>
        have hword := happend (curlEasyEscape e first) ('/' :: ['/'].intercalate (word :: words))
          (curlEasyEscape_ne_nil e hne) (hescaped first) (Or.inr ⟨'/', _, rfl, rfl⟩)
        rw [strtok_cons _ rfl, ← hmore, hjoined, hmore] at hword
        simpa [List.intercalate] using hword
  · rw [hrest, htext, forall_mem_strtok_iff]
    simp only [List.forall_mem_append]
    refine and_congr (forall₂_congr fun x hx => ?_) (forall₂_congr fun x _ => ?_)
    · have hx := hclean x hx
      rw [beq_eq_false_iff_ne] at hx
      exact or_iff_right hx
    · rw [beq_eq_false_iff_ne]
      exact or_iff_not_imp_left

/-! ## Link names of encoded paths -/

variable {e}

theorem h5RestUrlEncodePath_eq_self {path : Text}
    (hpath : (path.dropWhile fun c => !c.isAlphanum) = []) : h5RestUrlEncodePath e path = path := by
  have hsplit := List.takeWhile_append_dropWhile (p := fun c : Char => !c.isAlphanum) (l := path)
  rw [hpath, List.append_nil] at hsplit
  rw [h5RestUrlEncodePath, hpath, hsplit]
  exact List.append_nil _

/-- The links of an encoded path, next to those of the path. -/
theorem components_h5RestUrlEncodePath {path : Text}
    (hpath : (path.dropWhile fun c => !c.isAlphanum) ≠ []) :
    ∃ before stem first more,
      components path = before ++ (stem ++ first) :: more ∧
      components (h5RestUrlEncodePath e path) =
        before ++ (stem ++ curlEasyEscape e first) :: more.map (curlEasyEscape e) ∧
      ((∀ c ∈ path.dropWhile fun c => !c.isAlphanum, c = '/' ∨ unreserved c) ↔
        (∀ c ∈ first, unreserved c) ∧ ∀ token ∈ more, ∀ c ∈ token, unreserved c) := by
  obtain ⟨before, stem, first, more, ⟨c, hc, halnum⟩, htokens, hencoded, hunreserved⟩ :=
    strtok_h5RestUrlEncodePath e hpath
  -- The token with the alphanumeric character is not the current group, escaped or not.
  have hdot (word : Text) (hword : c ∈ word) : (decide (stem ++ word ≠ ['.'])) = true := by
    rw [decide_eq_true_iff]
    intro heq
    have hmem : c ∈ stem ++ word := List.mem_append_right _ hword
    rw [heq, List.mem_singleton] at hmem
    subst hmem
    revert halnum
    decide
  have hescaped : c ∈ curlEasyEscape e first :=
    List.mem_flatMap.mpr ⟨c, hc, by simp [unreserved, halnum]⟩
  have hmap : ((more.map (curlEasyEscape e)).filter fun token => decide (token ≠ ['.'])) =
      (more.filter fun token => decide (token ≠ ['.'])).map (curlEasyEscape e) := by
    rw [List.filter_map]
    congr 1
    refine List.filter_congr fun token _ => ?_
    exact decide_eq_decide.mpr (not_congr (curlEasyEscape_eq_dot_iff e))
  refine ⟨before.filter (· ≠ ['.']), stem, first, more.filter (· ≠ ['.']), ?_, ?_, ?_⟩
  · rw [components, htokens, List.filter_append, List.filter_cons_of_pos (p := fun x => decide (x ≠ ['.'])) (hdot first hc)]
  · rw [components, hencoded, List.filter_append, List.filter_cons_of_pos (p := fun x => decide (x ≠ ['.'])) (hdot _ hescaped), hmap]
  · rw [hunreserved]
    refine and_congr_right fun _ => ⟨fun h token htoken => h token (List.mem_of_mem_filter htoken),
      fun h token htoken => ?_⟩
    by_cases hcurrent : token = ['.']
    · subst hcurrent
      decide
    · exact h token (List.mem_filter.mpr ⟨htoken, by simpa using hcurrent⟩)

theorem length_components_h5RestUrlEncodePath (path : Text) :
    (components (h5RestUrlEncodePath e path)).length = (components path).length := by
  by_cases hpath : (path.dropWhile fun c => !c.isAlphanum) = []
  · rw [h5RestUrlEncodePath_eq_self hpath]
  · obtain ⟨before, stem, first, more, hplain, hencoded, -⟩ :=
      components_h5RestUrlEncodePath (e := e) hpath
    rw [hplain, hencoded]
    simp

/-- An encoded path names the same links exactly when nothing in it had to be escaped. -/
theorem components_h5RestUrlEncodePath_eq_iff {path : Text} :
    components (h5RestUrlEncodePath e path) = components path ↔
      ∀ c ∈ path.dropWhile fun c => !c.isAlphanum, c = '/' ∨ unreserved c := by
  by_cases hpath : (path.dropWhile fun c => !c.isAlphanum) = []
  · rw [h5RestUrlEncodePath_eq_self hpath, hpath]
    simp
  · obtain ⟨before, stem, first, more, hplain, hencoded, hunreserved⟩ :=
      components_h5RestUrlEncodePath (e := e) hpath
    rw [hplain, hencoded, hunreserved, List.append_cancel_left_eq, List.cons.injEq,
      List.append_cancel_left_eq, curlEasyEscape_eq_self_iff]
    refine and_congr_right fun _ => ?_
    have hmap : more.map (curlEasyEscape e) = more ↔ ∀ token ∈ more, curlEasyEscape e token = token := by
      nth_rewrite 2 [← List.map_id more]
      exact List.map_inj_left
    rw [hmap]
    exact forall₂_congr fun token _ => curlEasyEscape_eq_self_iff e

theorem mem_h5RestUrlEncodePath {path : Text} {c : Char}
    (hc : c ∈ h5RestUrlEncodePath e path) :
    c ∈ path.takeWhile (fun c => !c.isAlphanum) ∨ c = '/' ∨ unreserved c ∨ c = '%' := by
  rcases List.mem_append.mp hc with hfirst | hrest
  · exact Or.inl hfirst
  · refine Or.inr ?_
    rcases mem_intercalate hrest with hslash | ⟨word, hword, hmem⟩
    · exact Or.inl hslash
    · obtain ⟨token, -, rfl⟩ := List.mem_map.mp hword
      exact Or.inr (mem_curlEasyEscape e hmem)

/-- An encoded path begins as the path does. -/
theorem head?_h5RestUrlEncodePath {path : Text} {c : Char} (hc : path.head? = some c) :
    (h5RestUrlEncodePath e path).head? = some c := by
  obtain ⟨rest, rfl⟩ : ∃ rest, path = c :: rest := by
    cases path with
    | nil => cases hc
    | cons x rest => exact ⟨rest, by rw [Option.some.inj hc]⟩
  by_cases halnum : c.isAlphanum
  · have hslash : (c == '/') = false := by
      rw [beq_eq_false_iff_ne]
      rintro rfl
      revert halnum
      decide
    obtain ⟨first, tail, -, hfirst, -, -, htokens⟩ := exists_strtok_cons (· == '/') hslash rest
    obtain ⟨more, rfl⟩ : ∃ more, first = c :: more := by
      cases first with
      | nil => cases hfirst
      | cons x more => exact ⟨more, by rw [Option.some.inj hfirst]⟩
    have hword : curlEasyEscape e (c :: more) = c :: curlEasyEscape e more := by
      simp [curlEasyEscape_cons, unreserved, halnum]
    simp only [h5RestUrlEncodePath, halnum, Bool.not_true, Bool.false_eq_true,
      not_false_eq_true, List.takeWhile_cons_of_neg, List.dropWhile_cons_of_neg, List.nil_append,
      htokens, List.map_cons, hword]
    cases (strtok (· == '/') tail).map (curlEasyEscape e) <;> rfl
  · rw [h5RestUrlEncodePath_cons e (by simpa using halnum)]
    rfl

/-! ## The path of a lookup -/

/-- A character in front never takes links away. -/
theorem length_components_cons_le (c : Char) (path : Text) :
    (components path).length ≤ (components (c :: path)).length := by
  by_cases hc : c = '/'
  · subst hc
    rw [components, components, strtok_cons path rfl]
  · have hclean : (c == '/') = false := by simpa using hc
    cases path with
    | nil => exact Nat.zero_le _
    | cons d path =>
        by_cases hd : d = '/'
        · subst hd
          have htokens : strtok (· == '/') ([c] ++ '/' :: path) =
              [c] :: strtok (· == '/') ('/' :: path) :=
            strtok_word_append (by simp) (by simpa using hc) (Or.inr ⟨'/', path, rfl, rfl⟩)
          rw [List.singleton_append] at htokens
          rw [components, components, htokens]
          exact ((List.sublist_cons_self _ _).filter _).length_le
        · obtain ⟨first, tail, htext, hfirst, hfirstClean, htail, htokens⟩ :=
            exists_strtok_cons (· == '/') (c := d) (by simpa using hd) path
          have hlonger : strtok (· == '/') ((c :: first) ++ tail) =
              (c :: first) :: strtok (· == '/') tail :=
            strtok_word_append (by simp) (List.forall_mem_cons.mpr ⟨hclean, hfirstClean⟩) htail
          rw [List.cons_append, ← htext] at hlonger
          have hlink : c :: first ≠ ['.'] := by
            cases first with
            | nil => cases hfirst
            | cons x first => simp
          rw [components, components, htokens, hlonger,
            List.filter_cons_of_pos (p := fun token => decide (token ≠ ['.']))
              (decide_eq_true hlink), List.length_cons, List.filter_cons]
          split
          · exact le_rfl
          · exact Nat.le_succ _

theorem length_components_le {path suffix : Text} (h : suffix <:+ path) :
    (components suffix).length ≤ (components path).length := by
  obtain ⟨front, rfl⟩ := h
  induction front with
  | nil => exact le_rfl
  | cons c front ih => exact ih.trans (length_components_cons_le c _)

/-- Links keep every character that is neither a slash nor a dot. -/
theorem count_flatten_components {c : Char} (hslash : c ≠ '/') (hdot : c ≠ '.') (path : Text) :
    (components path).flatten.count c = path.count c := by
  have hfilter (tokens : List Text) :
      (tokens.filter (· ≠ ['.'])).flatten.count c = tokens.flatten.count c := by
    induction tokens with
    | nil => rfl
    | cons token tokens ih =>
        by_cases htoken : token = ['.']
        · subst htoken
          simpa [Ne.symm hdot] using ih
        · rw [List.filter_cons_of_pos (by simpa using htoken), List.flatten_cons,
            List.flatten_cons, List.count_append, List.count_append, ih]
  rw [components, hfilter, flatten_strtok, List.count_filter (by simpa using hslash)]

theorem skipDots_suffix (path : Text) : skipDots path <:+ path := by
  induction path with
  | nil => exact List.suffix_rfl
  | cons c path ih =>
      by_cases h : ∃ rest, c :: path = '.' :: '.' :: rest
      · obtain ⟨rest, hrest⟩ := h
        obtain ⟨rfl, rfl⟩ := List.cons.inj hrest
        exact ih.trans (List.suffix_cons _ _)
      · rw [skipDots.eq_def]
        split
        · next rest heq => exact absurd ⟨rest, heq⟩ h
        · exact List.suffix_rfl

/-- The last of the leading dots stays. -/
theorem exists_skipDots (path : Text) :
    ∃ dots rest, skipDots ('.' :: path) = '.' :: rest ∧ rest.head? ≠ some '.' ∧
      '.' :: path = dots ++ '.' :: rest ∧ (∀ c ∈ dots, c = '.') ∧
      (path.head? = some '.' → dots ≠ []) := by
  induction path with
  | nil => exact ⟨[], [], rfl, by simp, rfl, by simp, by simp⟩
  | cons c path ih =>
      by_cases hc : c = '.'
      · subst hc
        obtain ⟨dots, rest, hskip, hrest, hsplit, hdots, -⟩ := ih
        refine ⟨'.' :: dots, rest, hskip, hrest, ?_, List.forall_mem_cons.mpr ⟨rfl, hdots⟩, by simp⟩
        rw [List.cons_append, ← hsplit]
      · refine ⟨[], c :: path, ?_, by simpa using hc, rfl, by simp, by simpa using hc⟩
        rw [skipDots.eq_def]
        split
        · next heq => exact absurd (List.cons.inj (List.cons.inj heq).2).1 hc
        · rfl

theorem preparePath_suffix (objPath : Text) : (preparePath objPath).1 <:+ objPath := by
  have hspaces := List.dropWhile_suffix (p := (· == ' ')) (l := objPath)
  simp only [preparePath]
  split
  · exact hspaces
  · split
    · exact hspaces
    · split
      · exact (skipDots_suffix _).trans hspaces
      · exact hspaces

/-- A blank that was skipped is missing from the links. -/
theorem components_lookup_ne_of_blank (path : Text) :
    components (h5RestUrlEncodePath e (preparePath (' ' :: path)).1) ≠ components (' ' :: path) := by
  have hsuffix : (preparePath (' ' :: path)).1 <:+ path := by
    have hskip : preparePath (' ' :: path) = preparePath path := by
      simp [preparePath]
    rw [hskip]
    exact preparePath_suffix path
  have hencoded (path : Text) : (h5RestUrlEncodePath e path).count ' ' ≤ path.count ' ' := by
    have hjoined : ' ' ∉ ['/'].intercalate ((strtok (· == '/')
        (path.dropWhile fun c => !c.isAlphanum)).map (curlEasyEscape e)) := by
      intro hmem
      rcases mem_intercalate hmem with hslash | ⟨word, hword, hblank⟩
      · revert hslash
        decide
      · obtain ⟨token, -, rfl⟩ := List.mem_map.mp hword
        exact not_mem_curlEasyEscape e (by decide) (by decide) hblank
    rw [h5RestUrlEncodePath, List.count_append, List.count_eq_zero.mpr hjoined, Nat.add_zero]
    exact (List.takeWhile_sublist _).count_le _
  intro heq
  have hblanks := congrArg (fun links : List Text => links.flatten.count ' ') heq
  simp only [count_flatten_components (c := ' ') (by decide) (by decide)] at hblanks
  have hle := (hencoded (preparePath (' ' :: path)).1).trans (hsuffix.sublist.count_le ' ')
  rw [hblanks, List.count_cons_self] at hle
  omega

/-- The first link of a path that begins with two characters of one link. -/
theorem components_cons_cons {c d : Char} (hc : c ≠ '/') (hd : d ≠ '/') (path : Text) :
    ∃ link more, components (c :: d :: path) = (c :: d :: link) :: more := by
  obtain ⟨first, tail, htext, hfirst, -, htail, htokens⟩ :=
    exists_strtok_cons (· == '/') (c := c) (by simpa using hc) (d :: path)
  match first, hfirst with
  | [x], hx =>
      obtain rfl : d :: path = tail := by simpa using (List.cons.inj htext).2
      rcases htail with hnil | ⟨y, rest, htail, hy⟩
      · cases hnil
      · obtain ⟨rfl, -⟩ := List.cons.inj htail
        exact absurd (by simpa using hy) hd
  | x :: y :: link, hx =>
      obtain ⟨rfl, hrest⟩ := List.cons.inj htext
      obtain ⟨rfl, -⟩ := List.cons.inj hrest
      exact ⟨link, (strtok (· == '/') tail).filter (· ≠ ['.']), by
        rw [components, htokens, List.filter_cons_of_pos (by simp)]⟩

/-- Skipped dots are missing from the first link, or the whole link is. -/
theorem components_lookup_ne_of_dots (path : Text) :
    components (h5RestUrlEncodePath e (skipDots ('.' :: '.' :: path))) ≠
      components ('.' :: '.' :: path) := by
  obtain ⟨dots, rest, hskip, hrest, hsplit, hdots, hne⟩ := exists_skipDots ('.' :: path)
  have hne : dots ≠ [] := hne rfl
  rw [hskip, h5RestUrlEncodePath_cons e (by decide)]
  by_cases hend : rest = [] ∨ ∃ more, rest = '/' :: more
  · -- The link was made of dots only; what is left of it is the current group.
    have htail (tail : Text) (htail : tail = [] ∨ ∃ more, tail = '/' :: more) :
        tail = [] ∨ ∃ d more, tail = d :: more ∧ (d == '/') = true :=
      htail.imp_right fun ⟨more, h⟩ => ⟨'/', more, h, rfl⟩
    have hencoded : h5RestUrlEncodePath e rest = [] ∨
        ∃ more, h5RestUrlEncodePath e rest = '/' :: more := by
      rcases hend with rfl | ⟨more, rfl⟩
      · exact Or.inl rfl
      · exact Or.inr ⟨_, h5RestUrlEncodePath_cons e (by decide) more⟩
    have hcurrent : components ('.' :: h5RestUrlEncodePath e rest) =
        components (h5RestUrlEncodePath e rest) := by
      have htokens : strtok (· == '/') (['.'] ++ h5RestUrlEncodePath e rest) =
          ['.'] :: strtok (· == '/') (h5RestUrlEncodePath e rest) :=
        strtok_word_append (by simp) (by decide) (htail _ hencoded)
      rw [List.singleton_append] at htokens
      rw [components, htokens]
      rfl
    have hlink : components ((dots ++ ['.']) ++ rest) = (dots ++ ['.']) :: components rest := by
      have htokens : strtok (· == '/') ((dots ++ ['.']) ++ rest) =
          (dots ++ ['.']) :: strtok (· == '/') rest := by
        refine strtok_word_append (by simp) (fun c hc => ?_) (htail _ hend)
        have hc : c = '.' := by
          rcases List.mem_append.mp hc with hc | hc
          · exact hdots c hc
          · exact List.mem_singleton.mp hc
        subst hc
        rfl
      rw [components, htokens, List.filter_cons_of_pos (by simpa using hne)]
      rfl
    rw [hcurrent, hsplit, List.append_cons, hlink]
    intro heq
    have hlen := congrArg List.length heq
    rw [length_components_h5RestUrlEncodePath, List.length_cons] at hlen
    omega
  · -- Another character follows the last dot, where the path has a second dot.
    obtain ⟨c, more, rfl⟩ : ∃ c more, rest = c :: more := by
      cases rest with
      | nil => exact absurd (Or.inl rfl) hend
      | cons c more => exact ⟨c, more, rfl⟩
    have hc : c ≠ '/' := by
      rintro rfl
      exact hend (Or.inr ⟨more, rfl⟩)
    obtain ⟨tail, htail⟩ : ∃ tail, h5RestUrlEncodePath e (c :: more) = c :: tail := by
      have hhead : (h5RestUrlEncodePath e (c :: more)).head? = some c :=
        head?_h5RestUrlEncodePath rfl
      cases hencoded : h5RestUrlEncodePath e (c :: more) with
      | nil => rw [hencoded] at hhead; cases hhead
      | cons x tail =>
          rw [hencoded] at hhead
          exact ⟨tail, by rw [Option.some.inj hhead]⟩
    obtain ⟨link, links, hlinks⟩ := components_cons_cons (c := '.') (by decide) hc tail
    obtain ⟨link', links', hlinks'⟩ :=
      components_cons_cons (c := '.') (d := '.') (by decide) (by decide) path
    rw [htail, hlinks, hlinks']
    intro heq
    have hsecond := (List.cons.inj (List.cons.inj (List.cons.inj heq).1).2).1
    exact hrest (by rw [List.head?_cons, hsecond])

/-- Without leading blanks and dots nothing is skipped. -/
theorem preparePath_eq_self {objPath : Text} (hblank : objPath.head? ≠ some ' ')
    (hdots : ¬ ['.', '.'] <+: objPath) : (preparePath objPath).1 = objPath := by
  have hspaces : objPath.dropWhile (· == ' ') = objPath := by
    cases objPath with
    | nil => rfl
    | cons c path =>
        have hc : c ≠ ' ' := fun heq => hblank (by rw [heq]; rfl)
        exact List.dropWhile_cons_of_neg (by simpa using hc)
  have hskip : skipDots objPath = objPath := by
    rw [skipDots.eq_def]
    split
    · next rest => exact absurd ⟨rest, rfl⟩ hdots
    · rfl
  simp only [preparePath, hspaces, hskip, ite_self]
  split
  · rfl
  · split <;> rfl

/-- The path of a lookup names the links of the path it was made from exactly when it is clean. -/
theorem components_preparePath_eq_iff {objPath : Text} :
    components (h5RestUrlEncodePath e (preparePath objPath).1) = components objPath ↔
      LookupClean objPath := by
  by_cases hblank : objPath.head? = some ' '
  · obtain ⟨path, rfl⟩ : ∃ path, objPath = ' ' :: path := by
      cases objPath with
      | nil => cases hblank
      | cons c path => exact ⟨path, by rw [Option.some.inj hblank]⟩
    exact iff_of_false (components_lookup_ne_of_blank path) fun h => h.1 rfl
  · by_cases hdots : ['.', '.'] <+: objPath
    · obtain ⟨path, rfl⟩ := hdots
      have hprepared : (preparePath (['.', '.'] ++ path)).1 = skipDots ('.' :: '.' :: path) := by
        simp [preparePath]
      rw [hprepared]
      exact iff_of_false (components_lookup_ne_of_dots path) fun h => h.2.1 ⟨path, rfl⟩
    · rw [preparePath_eq_self hblank hdots, components_h5RestUrlEncodePath_eq_iff]
      exact ⟨fun h => ⟨hblank, hdots, h⟩, fun h => h.2.2⟩

end Escape

end XHDF5.Client
