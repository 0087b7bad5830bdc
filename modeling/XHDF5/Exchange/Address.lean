/-
# Which dataset a request is about

The plugin derives the dataset path and the selection from the query string alone. It ignores
`parent_id`, decodes nothing and opens every path from the root group, so a request reaches its
dataset only if the name it was opened with already says where the dataset is.

The query string is what follows the first `?`; the transport hands it over unchanged.
-/

import XHDF5.Client.Url
import XHDF5.Plugin.Query

namespace XHDF5.Exchange

open XHDF5.Math XHDF5.Client XHDF5.Plugin

/-- The base URL of the servers. -/
structure Endpoint where
  url : Text
  no_query : '?' ∉ url

/-- An identifier that a server issued for an object. -/
structure Uri where
  text : Text
  plain : ∀ c ∈ text, c.isAlphanum ∨ c = '-'

/-- A dataset that was opened: the links from the root to the object its name is relative to,
that object's identifier, its own identifier, and the name. -/
structure OpenDataset where
  parent : List Text
  parentURI : Uri
  uri : Uri
  name : Text

/-- The links from the root group to the dataset. -/
def OpenDataset.absolutePath (d : OpenDataset) : List Text :=
  if d.name.head? = some '/' then components d.name else d.parent ++ components d.name

/-- The name says where the dataset is. -/
def OpenDataset.Rooted (d : OpenDataset) : Prop := d.name.head? = some '/' ∨ d.parent = []

/-- A name from the root without a delimiter of the query string. -/
def OpenDataset.Clean (d : OpenDataset) : Prop := d.Rooted ∧ '&' ∉ d.name ∧ '=' ∉ d.name

/-- The plugin derives the dataset and the selection from the URL. -/
def Addresses (url : Text) (d : OpenDataset) (selection : Text) : Prop :=
  components (parseQuery (queryOf url)).1 = d.absolutePath ∧ (parseQuery (queryOf url)).2 = selection

/-- The file selections that a read can put into its URL, or need not. -/
def ReadExpressible (isFixedLength : Bool) : Option SpaceSelection → Prop
  | none | some .all | some .none => True
  | some (.points _) => False
  | some (.hyperslab _) => isFixedLength = true

/-- The file selections that leave no trace in the URL of a write, and need none. -/
def WriteExpressible (isFixedLength : Bool) : Option SpaceSelection → Prop
  | none => True
  | some .all | some .none => isFixedLength = false
  | some (.points _) | some (.hyperslab _) => False

section Requests

variable (e : EasyEscape) (s : Endpoint) (d : OpenDataset)

/-- The three requests for a dataset, as far as the client builds them. -/
def lookupUrl : Option Text := rvFindObjectByPathUrl e s.url d.parentURI.text d.name

def readUrl (select : Option Text) : Option Text := rvDatasetReadUrl s.url d.uri.text d.name select

def writeUrl (select : Option Text) : Option Text :=
  rvDatasetWriteUrl s.url d.uri.text d.name select

/-- Every URL the client builds for the dataset and the selection is understood. -/
def RequestsAddress (isFixedLength : Bool) (ndims : Nat) (fileSpace : Option SpaceSelection) : Prop :=
  (∀ url, lookupUrl e s d = some url → Addresses url d []) ∧
    ∀ select selection, requestSelection isFixedLength ndims fileSpace = some (select, selection) →
      (∀ url, readUrl s d select = some url → Addresses url d selection) ∧
        ∀ url, writeUrl s d select = some url → Addresses url d selection

/-- What the client must have been given for that: for a lookup, a clean path with nothing to
skip or to escape; for a read, a selection that is in the URL; for a write, no selection at all. A
URL that is too long is never sent. -/
def RequestsClean (isFixedLength : Bool) (ndims : Nat) (fileSpace : Option SpaceSelection) : Prop :=
  ((lookupUrl e s d).isSome → d.Clean ∧ LookupClean d.name) ∧
    ∀ select selection, requestSelection isFixedLength ndims fileSpace = some (select, selection) →
      ((readUrl s d select).isSome → d.Clean ∧ ReadExpressible isFixedLength fileSpace) ∧
        ((writeUrl s d select).isSome → d.Clean ∧ WriteExpressible isFixedLength fileSpace)

end Requests

/-! ## Names and paths -/

section Paths

variable {d : OpenDataset}

theorem components_eq_absolutePath_iff : components d.name = d.absolutePath ↔ d.Rooted := by
  unfold OpenDataset.absolutePath OpenDataset.Rooted
  by_cases hroot : d.name.head? = some '/'
  · simp [hroot]
  · simp [hroot]

/-- A path with fewer links than the name is not the dataset's, unless the name is rooted. -/
theorem ne_absolutePath_of_not_rooted (hrooted : ¬ d.Rooted) {path : List Text}
    (hlen : path.length ≤ (components d.name).length) : path ≠ d.absolutePath := by
  obtain ⟨hroot, hparent⟩ := not_or.mp hrooted
  rintro rfl
  rw [OpenDataset.absolutePath, if_neg hroot, List.length_append] at hlen
  have := List.length_pos_iff.mpr hparent
  omega

/-- A delimiter in the name is part of a link, and of no path that the plugin derives. -/
theorem ne_absolutePath_of_delimiter {c : Char} (hc : c = '&' ∨ c = '=') (hname : c ∈ d.name)
    (query : Text) : components (parseQuery query).1 ≠ d.absolutePath := by
  have hlinks (path : Text) : c ∈ (components path).flatten ↔ c ∈ path := by
    rw [← List.count_pos_iff, ← List.count_pos_iff,
      count_flatten_components (by rcases hc with rfl | rfl <;> decide)
        (by rcases hc with rfl | rfl <;> decide)]
  intro heq
  have habsolute : c ∈ d.absolutePath.flatten := by
    unfold OpenDataset.absolutePath
    split
    · exact (hlinks _).mpr hname
    · rw [List.flatten_append]
      exact List.mem_append_right _ ((hlinks _).mpr hname)
  rw [← heq, hlinks] at habsolute
  exact not_mem_parseQuery hc habsolute

theorem clean_or_delimiter (name : Text) :
    ('&' ∉ name ∧ '=' ∉ name) ∨ ∃ c, (c = '&' ∨ c = '=') ∧ c ∈ name := by
  by_cases hand : '&' ∈ name
  · exact Or.inr ⟨'&', Or.inl rfl, hand⟩
  · by_cases heq : '=' ∈ name
    · exact Or.inr ⟨'=', Or.inr rfl, heq⟩
    · exact Or.inl ⟨hand, heq⟩

theorem not_clean_of_delimiter {c : Char} (hc : c = '&' ∨ c = '=') (hname : c ∈ d.name) :
    ¬ d.Clean := by
  rintro ⟨-, hand, heq⟩
  rcases hc with rfl | rfl
  · exact hand hname
  · exact heq hname

theorem Uri.not_mem (uri : Uri) {c : Char} (hc : c.isAlphanum = false) (hdash : c ≠ '-') :
    c ∉ uri.text := by
  intro hmem
  rcases uri.plain c hmem with halnum | rfl
  · rw [hc] at halnum
    cases halnum
  · exact hdash rfl

end Paths

/-! ## Selections in a URL -/

/-- A selection that travels in the URL is its own text, without delimiters. -/
theorem requestSelection_some {isFixedLength : Bool} {ndims : Nat} {fileSpace : Option SpaceSelection}
    {body selection : Text}
    (h : requestSelection isFixedLength ndims fileSpace = some (some body, selection)) :
    body = selection ∧ '&' ∉ body ∧ '=' ∉ body := by
  have htriples {c : Char} (hc : c ∉ ['[', ']', ',', ':']) (hdigit : c.isDigit = false)
      (slabs : List Slab) : c ∉ slabText slabs := by
    simp only [List.mem_cons, List.not_mem_nil, or_false, not_or] at hc
    intro hmem
    rcases List.mem_cons.mp hmem with hopen | hmem
    · exact hc.1 hopen
    · rcases List.mem_append.mp hmem with hmem | hclose
      · rcases mem_intercalate hmem with hcomma | ⟨word, hword, hin⟩
        · exact hc.2.2.1 hcomma
        · obtain ⟨d, -, rfl⟩ := List.mem_map.mp hword
          exact not_mem_tripleText hc.2.2.2 hdigit hin
      · exact hc.2.1 (List.mem_singleton.mp hclose)
  cases fileSpace with
  | none => cases h
  | some space =>
      obtain ⟨text, htext, hpair⟩ := Option.map_eq_some_iff.mp h
      obtain ⟨hbody, rfl⟩ := Prod.mk.inj hpair
      by_cases hbinary : (isFixedLength && !space.isPoints) = true
      · rw [if_pos hbinary] at hbody
        obtain rfl := Option.some.inj hbody
        refine ⟨rfl, ?_⟩
        simp only [hbinary, rvConvertDataspaceSelectionToString, if_true] at htext
        split at htext
        · cases htext
        · cases space with
          | all => obtain rfl := Option.some.inj htext; simp
          | none => obtain rfl := Option.some.inj htext; simp
          | points list => cases htext
          | hyperslab slabs =>
              obtain rfl := Option.some.inj htext
              exact ⟨htriples (by decide) (by decide) slabs, htriples (by decide) (by decide) slabs⟩
      · rw [if_neg hbinary] at hbody
        cases hbody

/-- Only the text of everything or nothing is empty outside the URL. -/
theorem json_eq_nil_iff {ndims : Nat} {space : SpaceSelection} {text : Text}
    (h : rvConvertDataspaceSelectionToString ndims space false = some text) :
    text = [] ↔ space = .all ∨ space = .none := by
  have hpoints : "\"points\": [".toList ≠ [] := by decide
  have hstart : "\"start\": ".toList ≠ [] := by decide
  unfold rvConvertDataspaceSelectionToString at h
  split at h
  · cases h
  · cases space with
    | all => exact iff_of_true (Option.some.inj h).symm (Or.inl rfl)
    | none => exact iff_of_true (Option.some.inj h).symm (Or.inr rfl)
    | points list =>
        obtain rfl := Option.some.inj h
        refine iff_of_false (fun hnil => ?_) (by simp)
        exact hpoints (List.append_eq_nil_iff.mp (List.append_eq_nil_iff.mp hnil).1).1
    | hyperslab slabs =>
        refine iff_of_false (fun hnil => ?_) (by simp)
        simp only [Bool.false_eq_true, if_false] at h
        split at h
        · cases h
        · have htext := (Option.some.inj h).trans hnil
          simp only [List.append_assoc] at htext
          exact hstart (List.append_eq_nil_iff.mp htext).1

/-- A selection outside the URL is lost, unless its text is empty. -/
theorem requestSelection_eq {isFixedLength : Bool} {ndims : Nat} {fileSpace : Option SpaceSelection}
    {select : Option Text} {selection : Text}
    (h : requestSelection isFixedLength ndims fileSpace = some (select, selection)) :
    (select.getD [] = selection ↔ ReadExpressible isFixedLength fileSpace) ∧
      (select = none ∧ selection = [] ↔ WriteExpressible isFixedLength fileSpace) := by
  cases fileSpace with
  | none =>
      cases h
      exact ⟨iff_of_true rfl trivial, iff_of_true ⟨rfl, rfl⟩ trivial⟩
  | some space =>
      obtain ⟨text, htext, hpair⟩ := Option.map_eq_some_iff.mp h
      obtain ⟨rfl, rfl⟩ := Prod.mk.inj hpair
      by_cases hbinary : (isFixedLength && !space.isPoints) = true
      · obtain ⟨rfl, hpoints⟩ := Bool.and_eq_true_iff.mp hbinary
        rw [if_pos hbinary]
        cases space <;> simp_all [ReadExpressible, WriteExpressible, SpaceSelection.isPoints]
      · rw [Bool.eq_false_of_not_eq_true hbinary] at htext
        have hempty := json_eq_nil_iff htext
        rw [if_neg hbinary, Option.getD_none, eq_comm, and_iff_right rfl, hempty]
        cases space <;> simp_all [ReadExpressible, WriteExpressible, SpaceSelection.isPoints]

/-! ## The three requests -/

section Requests

variable {e : EasyEscape} {s : Endpoint} {d : OpenDataset}

theorem checkUrl_eq_some {url checked : Text} (h : checkUrl url = some checked) : checked = url := by
  unfold checkUrl at h
  split at h
  · cases h
  · exact (Option.some.inj h).symm

/-- The query string behind an address without `?`. -/
theorem queryOf_url {address query checked : Text} (h : '?' ∉ address)
    (hurl : checkUrl (address ++ '?' :: query) = some checked) : queryOf checked = query := by
  rw [checkUrl_eq_some hurl, queryOf_append h]

/-- The parameters of a lookup. -/
def lookupParams (e : EasyEscape) (d : OpenDataset) : List (Text × Text) :=
  (lit "h5path", h5RestUrlEncodePath e (preparePath d.name).1) ::
    ((if (preparePath d.name).2 then [(lit "parent_id", d.parentURI.text)] else []) ++
      [(lit "follow_soft_links", ['1']), (lit "follow_external_links", ['1'])])

theorem lookupUrl_eq : lookupUrl e s d = checkUrl ((s.url ++ ['/']) ++ '?' ::
    ['&'].intercalate ((lookupParams e d).map fun pair => param pair.1 pair.2)) := by
  have hpath : lit "/?h5path=" = '/' :: '?' :: (lit "h5path" ++ ['=']) := by
    unfold lit
    decide
  have hparent : lit "&parent_id=" = '&' :: (lit "parent_id" ++ ['=']) := by
    unfold lit
    decide
  have hfollow : lit "&follow_soft_links=1&follow_external_links=1" =
      '&' :: ((lit "follow_soft_links" ++ ['=', '1']) ++
        '&' :: (lit "follow_external_links" ++ ['=', '1'])) := by
    unfold lit
    decide
  rw [lookupUrl, rvFindObjectByPathUrl, lookupParams, hpath, hparent, hfollow]
  cases preparePath d.name with
  | mk path isRelativePath =>
      cases isRelativePath <;> simp [List.intercalate, param]

/-- The keys of a lookup behind its path, and their values, concern the plugin in no way. -/
theorem lookupParams_tail : ∀ pair ∈ (lookupParams e d).tail,
    (('&' ∉ pair.1 ∧ '=' ∉ pair.1) ∧ '&' ∉ pair.2 ∧ '=' ∉ pair.2) ∧
      pair.1 ≠ lit "h5path" ∧ pair.1 ≠ lit "select" := by
  have hparent : ('&' ∉ lit "parent_id" ∧ '=' ∉ lit "parent_id") ∧
      lit "parent_id" ≠ lit "h5path" ∧ lit "parent_id" ≠ lit "select" := by
    unfold lit
    decide
  have hsoft : ('&' ∉ lit "follow_soft_links" ∧ '=' ∉ lit "follow_soft_links") ∧
      lit "follow_soft_links" ≠ lit "h5path" ∧ lit "follow_soft_links" ≠ lit "select" := by
    unfold lit
    decide
  have hexternal : ('&' ∉ lit "follow_external_links" ∧ '=' ∉ lit "follow_external_links") ∧
      lit "follow_external_links" ≠ lit "h5path" ∧ lit "follow_external_links" ≠ lit "select" := by
    unfold lit
    decide
  have hone : '&' ∉ ['1'] ∧ '=' ∉ ['1'] := by decide
  rw [lookupParams, List.tail_cons]
  refine List.forall_mem_append.mpr ⟨fun pair hpair => ?_, List.forall_mem_cons.mpr
    ⟨⟨⟨hsoft.1, hone⟩, hsoft.2⟩, List.forall_mem_singleton.mpr ⟨⟨hexternal.1, hone⟩, hexternal.2⟩⟩⟩
  split at hpair
  · obtain rfl := List.mem_singleton.mp hpair
    exact ⟨⟨hparent.1, d.parentURI.not_mem (by decide) (by decide),
      d.parentURI.not_mem (by decide) (by decide)⟩, hparent.2⟩
  · cases hpair

/-- What the plugin makes of a lookup whose path has no delimiter. -/
theorem parseQuery_lookupUrl {url : Text} (hurl : lookupUrl e s d = some url)
    (hpath : '&' ∉ h5RestUrlEncodePath e (preparePath d.name).1 ∧
      '=' ∉ h5RestUrlEncodePath e (preparePath d.name).1) :
    parseQuery (queryOf url) = (h5RestUrlEncodePath e (preparePath d.name).1, []) := by
  have haddress : '?' ∉ s.url ++ ['/'] := by simp [s.no_query]
  have hskip (pairs : List (Text × Text)) (hpairs : ∀ pair ∈ pairs,
      pair.1 ≠ lit "h5path" ∧ pair.1 ≠ lit "select") (found : Text × Text) :
      pairs.foldl assignPair found = found := by
    induction pairs with
    | nil => rfl
    | cons pair pairs ih =>
        obtain ⟨hpair, hrest⟩ := List.forall_mem_cons.mp hpairs
        rw [List.foldl_cons, assignPair_other _ _ hpair.1 hpair.2, ih hrest]
  have hclean : ∀ pair ∈ lookupParams e d,
      ('&' ∉ pair.1 ∧ '=' ∉ pair.1) ∧ '&' ∉ pair.2 ∧ '=' ∉ pair.2 :=
    List.forall_mem_cons.mpr ⟨⟨keys_clean.1, hpath⟩,
      fun pair hpair => (lookupParams_tail (e := e) pair hpair).1⟩
  rw [queryOf_url haddress (lookupUrl_eq ▸ hurl), parseQuery_params (by simp [lookupParams]) hclean,
    lookupParams, List.foldl_cons, assignPair_h5path]
  exact hskip _ (fun pair hpair => (lookupParams_tail (e := e) pair hpair).2) _

theorem addresses_lookupUrl_iff {url : Text} (hurl : lookupUrl e s d = some url) :
    Addresses url d [] ↔ d.Clean ∧ LookupClean d.name := by
  have hsuffix := preparePath_suffix d.name
  rcases clean_or_delimiter (h5RestUrlEncodePath e (preparePath d.name).1) with
    ⟨hand, heq⟩ | ⟨c, hc, hmem⟩
  · rw [Addresses, parseQuery_lookupUrl hurl ⟨hand, heq⟩, and_iff_left rfl]
    by_cases hrooted : d.Rooted
    · rw [← components_eq_absolutePath_iff.mpr hrooted, components_preparePath_eq_iff]
      refine ⟨fun hlookup => ⟨⟨hrooted, ?_⟩, hlookup⟩, fun h => h.2⟩
      -- A delimiter would be in the prefix, which is copied, or would have to be escaped.
      have hfirst {c : Char} (hc : c = '&' ∨ c = '=') (hmem : c ∈ d.name) :
          c ∈ d.name.takeWhile fun c => !c.isAlphanum := by
        rw [← List.takeWhile_append_dropWhile (p := fun c : Char => !c.isAlphanum) (l := d.name)]
          at hmem
        refine (List.mem_append.mp hmem).resolve_right fun hrest => ?_
        rcases hlookup.2.2 c hrest with hslash | hunreserved
        · rcases hc with rfl | rfl <;> exact absurd hslash (by decide)
        · rcases hc with rfl | rfl <;> exact absurd hunreserved (by decide)
      rw [preparePath_eq_self hlookup.1 hlookup.2.1] at hand heq
      exact ⟨fun hmem => hand (List.mem_append_left _ (hfirst (Or.inl rfl) hmem)),
        fun hmem => heq (List.mem_append_left _ (hfirst (Or.inr rfl) hmem))⟩
    · refine iff_of_false (ne_absolutePath_of_not_rooted hrooted ?_) fun h => hrooted h.1.1
      rw [length_components_h5RestUrlEncodePath]
      exact length_components_le hsuffix
  · have hname : c ∈ d.name := by
      rcases mem_h5RestUrlEncodePath hmem with hfirst | rfl | hunreserved | rfl
      · exact hsuffix.subset (List.takeWhile_subset _ hfirst)
      · rcases hc with h | h <;> exact absurd h (by decide)
      · rcases hc with rfl | rfl <;> exact absurd hunreserved (by decide)
      · rcases hc with h | h <;> exact absurd h (by decide)
    exact iff_of_false (fun h => ne_absolutePath_of_delimiter hc hname _ h.1)
      fun h => not_clean_of_delimiter hc hname h.1

/-- The address of the value requests. -/
def valueAddress (s : Endpoint) (d : OpenDataset) : Text :=
  s.url ++ (lit "/datasets/" ++ (d.uri.text ++ lit "/value"))

theorem not_mem_valueAddress : '?' ∉ valueAddress s d := by
  have hliterals : '?' ∉ lit "/datasets/" ∧ '?' ∉ lit "/value" := by
    unfold lit
    decide
  simp only [valueAddress, List.mem_append, not_or]
  exact ⟨s.no_query, hliterals.1, d.uri.not_mem (by decide) (by decide), hliterals.2⟩

theorem readUrl_eq (select : Option Text) : readUrl s d select =
    checkUrl (valueAddress s d ++ '?' :: ['&'].intercalate (((lit "h5path", d.name) ::
      (select.map fun body => (lit "select", body)).toList).map fun pair =>
        param pair.1 pair.2)) := by
  have hpath : lit "/value?h5path=" = lit "/value" ++ '?' :: (lit "h5path" ++ ['=']) := by
    unfold lit
    decide
  have hselect : lit "&select=" = '&' :: (lit "select" ++ ['=']) := by
    unfold lit
    decide
  unfold readUrl rvDatasetReadUrl
  rw [hpath, hselect]
  cases select <;> simp [List.intercalate, param, valueAddress]

theorem addresses_readUrl_iff {select : Option Text} {selection url : Text}
    (hselect : ∀ body, select = some body → '&' ∉ body ∧ '=' ∉ body)
    (hurl : readUrl s d select = some url) :
    Addresses url d selection ↔ d.Clean ∧ select.getD [] = selection := by
  rcases clean_or_delimiter d.name with hname | ⟨c, hc, hname⟩
  · have hparse : parseQuery (queryOf url) = (d.name, select.getD []) := by
      rw [queryOf_url not_mem_valueAddress (readUrl_eq select ▸ hurl), parseQuery_params (by simp)]
      · rw [List.foldl_cons, assignPair_h5path]
        cases select with
        | none => rfl
        | some body => exact assignPair_select _ _
      · refine List.forall_mem_cons.mpr ⟨⟨keys_clean.1, hname⟩, fun pair hpair => ?_⟩
        cases select with
        | none => cases hpair
        | some body =>
            obtain rfl := List.mem_singleton.mp hpair
            exact ⟨keys_clean.2.1, hselect body rfl⟩
    rw [Addresses, hparse, OpenDataset.Clean, components_eq_absolutePath_iff]
    exact and_congr_left fun _ => ⟨fun h => ⟨h, hname⟩, fun h => h.1⟩
  · exact iff_of_false (fun h => ne_absolutePath_of_delimiter hc hname _ h.1)
      fun h => not_clean_of_delimiter hc hname h.1

theorem writeUrl_none_eq : writeUrl s d none =
    checkUrl (valueAddress s d ++ '?' :: ['&'].intercalate ([(lit "h5path", d.name)].map
      fun pair => param pair.1 pair.2)) := by
  have hpath : lit "?h5path=" = '?' :: (lit "h5path" ++ ['=']) := by
    unfold lit
    decide
  rw [writeUrl, rvDatasetWriteUrl, hpath]
  simp [List.intercalate, param, valueAddress]

/-- With a selection the second `?` makes everything behind the first one a single parameter. -/
theorem writeUrl_some_eq (body : Text) : writeUrl s d (some body) =
    checkUrl (valueAddress s d ++ '?' :: param (lit "select")
      ((body ++ '?' :: lit "h5path") ++ '=' :: d.name)) := by
  have hpath : lit "?h5path=" = '?' :: (lit "h5path" ++ ['=']) := by
    unfold lit
    decide
  have hselect : lit "?select=" = '?' :: (lit "select" ++ ['=']) := by
    unfold lit
    decide
  rw [writeUrl, rvDatasetWriteUrl, hpath, hselect]
  simp [param, valueAddress]

/-- What the plugin makes of a write without a selection in its URL. -/
theorem parseQuery_writeUrl_none {url : Text} (hname : '&' ∉ d.name ∧ '=' ∉ d.name)
    (hurl : writeUrl s d none = some url) : parseQuery (queryOf url) = (d.name, []) := by
  rw [queryOf_url not_mem_valueAddress (writeUrl_none_eq ▸ hurl), parseQuery_params (by simp)
    (List.forall_mem_singleton.mpr ⟨keys_clean.1, hname⟩)]
  exact assignPair_h5path _ _

/-- With a selection in its URL the plugin finds no path. -/
theorem parseQuery_writeUrl_some {body url : Text} (hname : '&' ∉ d.name)
    (hbody : '&' ∉ body ∧ '=' ∉ body) (hurl : writeUrl s d (some body) = some url) :
    parseQuery (queryOf url) = ([], body ++ '?' :: lit "h5path") := by
  have hvalue : '&' ∉ body ++ '?' :: lit "h5path" ∧ '=' ∉ body ++ '?' :: lit "h5path" := by
    simp [hbody, keys_clean.1]
  rw [queryOf_url not_mem_valueAddress (writeUrl_some_eq body ▸ hurl)]
  exact parseQuery_select hvalue hname

theorem addresses_writeUrl_iff {select : Option Text} {selection url : Text}
    (hselect : ∀ body, select = some body → body = selection ∧ '&' ∉ body ∧ '=' ∉ body)
    (hurl : writeUrl s d select = some url) :
    Addresses url d selection ↔ d.Clean ∧ select = none ∧ selection = [] := by
  rcases clean_or_delimiter d.name with hname | ⟨c, hc, hname⟩
  · cases select with
    | none =>
        rw [Addresses, parseQuery_writeUrl_none hname hurl, OpenDataset.Clean,
          components_eq_absolutePath_iff]
        constructor
        · rintro ⟨hrooted, rfl⟩
          exact ⟨⟨hrooted, hname⟩, rfl, rfl⟩
        · rintro ⟨⟨hrooted, -⟩, -, rfl⟩
          exact ⟨hrooted, rfl⟩
    | some body =>
        obtain ⟨rfl, hbody⟩ := hselect body rfl
        have hparse := parseQuery_writeUrl_some hname.1 hbody hurl
        refine iff_of_false (fun h => ?_) fun h => by simpa using h.2.1
        have hlen := congrArg List.length ((congrArg Prod.snd hparse).symm.trans h.2)
        rw [List.length_append, List.length_cons] at hlen
        omega
  · exact iff_of_false (fun h => ne_absolutePath_of_delimiter hc hname _ h.1)
      fun h => not_clean_of_delimiter hc hname h.1

end Requests

/-- A property of everything an optional request can be. -/
theorem forall_some_iff {request : Option Text} {P : Text → Prop} {Q : Prop}
    (h : ∀ url, request = some url → (P url ↔ Q)) :
    (∀ url, request = some url → P url) ↔ (request.isSome → Q) := by
  cases request with
  | none => simp
  | some url =>
      constructor
      · exact fun hall _ => (h url rfl).mp (hall url rfl)
      · rintro hq checked hchecked
        exact (h checked hchecked).mpr (hq rfl)

/-- `%` and two hexadecimal digits. -/
def hexEscape : EasyEscape where
  percent c := ['%', (Nat.digitChar (c.toNat / 16 % 16)).toUpper, (Nat.digitChar (c.toNat % 16)).toUpper]
  percent_eq c := by
    have hdigit : ∀ value < 16, (Nat.digitChar value).toUpper.isAlphanum := by decide
    exact ⟨_, _, rfl, hdigit _ (Nat.mod_lt _ (by decide)), hdigit _ (Nat.mod_lt _ (by decide))⟩

theorem plain_g : ∀ c ∈ ['g'], c.isAlphanum ∨ c = '-' := by decide

theorem plain_d : ∀ c ∈ ['d'], c.isAlphanum ∨ c = '-' := by decide

/-- The dataset `/entry/data`, opened as `data` in the group `/entry`. -/
def nestedDataset : OpenDataset where
  parent := [['e', 'n', 't', 'r', 'y']]
  parentURI := ⟨['g'], plain_g⟩
  uri := ⟨['d'], plain_d⟩
  name := ['d', 'a', 't', 'a']

end XHDF5.Exchange
