/-
# The query string in the plugin

`ProcessReq` cuts the query string at `&` and each parameter at `=`. Later parameters of one name
replace earlier ones, and nothing is percent-decoded.
-/

import Mathlib.Data.List.TakeWhile
import XHDF5.Math.Token

namespace XHDF5.Plugin

open XHDF5.Math

/-- The key and the value of a parameter: the text before the first `=`, and the text between
the first and the second. -/
def parseParam (param : Text) : Text × Text :=
  (param.takeWhile (· ≠ '='), ((param.dropWhile (· ≠ '=')).drop 1).takeWhile (· ≠ '='))

/-- The assignments of one parameter; the first pair holds `h5path` and `select`. -/
def assignPair (found pair : Text × Text) : Text × Text :=
  let found := if pair.1 = lit "h5path" then (pair.2, found.2) else found
  if pair.1 = lit "select" then (found.1, pair.2) else found

/-- One round of the loop over the parameters. -/
def assignParam (found : Text × Text) (param : Text) : Text × Text :=
  assignPair found (parseParam param)

/-- `h5path` and `select` of a request. -/
def parseQuery (query : Text) : Text × Text :=
  ((getlines '&' query).filter (· ≠ [])).foldl assignParam ([], [])

/-- The query string of a URL, everything behind the first `?`. -/
def queryOf (url : Text) : Text := (url.dropWhile (· ≠ '?')).drop 1

/-- `key=value`. -/
def param (key value : Text) : Text := key ++ '=' :: value

/-! ## Parameters -/

/-- The two keys the plugin looks for. -/
theorem keys_clean : ('&' ∉ lit "h5path" ∧ '=' ∉ lit "h5path") ∧
    ('&' ∉ lit "select" ∧ '=' ∉ lit "select") ∧ lit "h5path" ≠ lit "select" := by
  unfold lit
  decide

theorem assignPair_h5path (found : Text × Text) (value : Text) :
    assignPair found (lit "h5path", value) = (value, found.2) := by
  simp only [assignPair, if_true, if_neg keys_clean.2.2]

theorem assignPair_select (found : Text × Text) (value : Text) :
    assignPair found (lit "select", value) = (found.1, value) := by
  simp only [assignPair, if_true, if_neg keys_clean.2.2.symm]

theorem assignPair_other (found : Text × Text) {key : Text} (value : Text)
    (hh5path : key ≠ lit "h5path") (hselect : key ≠ lit "select") :
    assignPair found (key, value) = found := by
  simp only [assignPair, if_neg hh5path, if_neg hselect]

theorem queryOf_append {address query : Text} (h : '?' ∉ address) :
    queryOf (address ++ '?' :: query) = query := by
  rw [queryOf, List.dropWhile_append_of_pos]
  · simp
  · intro c hc
    exact decide_eq_true fun heq => h (heq ▸ hc)

/-- The value of a parameter ends at its second `=`, if it has one. -/
theorem parseParam_param {key value rest : Text} (hkey : '=' ∉ key) (hvalue : '=' ∉ value)
    (hrest : rest = [] ∨ ∃ more, rest = '=' :: more) :
    parseParam (param key (value ++ rest)) = (key, value) := by
  have hclean {text : Text} (h : '=' ∉ text) : ∀ c ∈ text, decide (c ≠ '=') = true :=
    fun c hc => decide_eq_true fun heq => h (heq ▸ hc)
  have hend : (value ++ rest).takeWhile (· ≠ '=') = value := by
    rw [List.takeWhile_append_of_pos (hclean hvalue)]
    rcases hrest with rfl | ⟨more, rfl⟩
    · exact List.append_nil _
    · rw [List.takeWhile_cons_of_neg (by simp), List.append_nil]
  rw [parseParam, param, List.takeWhile_append_of_pos (hclean hkey),
    List.dropWhile_append_of_pos (hclean hkey), List.takeWhile_cons_of_neg (by simp),
    List.dropWhile_cons_of_neg (by simp), List.append_nil, List.drop_one, List.tail_cons, hend]

theorem param_ne_nil (key value : Text) : param key value ≠ [] := by
  simp [param]

/-- The parameters of a query string are the words that were joined with `&`. -/
theorem parseQuery_intercalate {params : List Text} (hne : params ≠ [])
    (hparams : ∀ text ∈ params, '&' ∉ text ∧ text ≠ []) :
    parseQuery (['&'].intercalate params) = params.foldl assignParam ([], []) := by
  have hfields : getlines '&' (['&'].intercalate params) = params :=
    getlines_intercalate (fun text htext => (hparams text htext).1) hne
      fun hlast => (hparams _ (List.mem_of_getLast? hlast)).2 rfl
  have hkept : params.filter (· ≠ []) = params :=
    List.filter_eq_self.mpr fun text htext => decide_eq_true (hparams text htext).2
  rw [parseQuery, hfields, hkept]

/-- The parameters of a query string that joins pairs without delimiters. -/
theorem parseQuery_params {pairs : List (Text × Text)} (hne : pairs ≠ [])
    (hclean : ∀ pair ∈ pairs, ('&' ∉ pair.1 ∧ '=' ∉ pair.1) ∧ '&' ∉ pair.2 ∧ '=' ∉ pair.2) :
    parseQuery (['&'].intercalate (pairs.map fun pair => param pair.1 pair.2)) =
      pairs.foldl assignPair ([], []) := by
  rw [parseQuery_intercalate (by simpa using hne), List.foldl_map]
  · refine List.foldl_ext _ _ _ fun found pair hpair => ?_
    obtain ⟨⟨-, hkey⟩, -, hvalue⟩ := hclean pair hpair
    have hparse := parseParam_param hkey hvalue (Or.inl rfl)
    rw [List.append_nil] at hparse
    rw [assignParam, hparse]
  · intro text htext
    obtain ⟨pair, hpair, rfl⟩ := List.mem_map.mp htext
    obtain ⟨⟨hkey, -⟩, hvalue, -⟩ := hclean pair hpair
    exact ⟨by simp [param, hkey, hvalue], param_ne_nil _ _⟩

/-- A lone `select` parameter with a second `=` in it. -/
theorem parseQuery_select {value rest : Text} (hvalue : '&' ∉ value ∧ '=' ∉ value)
    (hrest : '&' ∉ rest) :
    parseQuery (param (lit "select") (value ++ '=' :: rest)) = ([], value) := by
  have hquery := parseQuery_intercalate
    (List.cons_ne_nil (param (lit "select") (value ++ '=' :: rest)) [])
    (List.forall_mem_singleton.mpr
      ⟨by simp [param, keys_clean.2.1.1, hvalue.1, hrest], param_ne_nil _ _⟩)
  rw [List.foldl_cons, List.foldl_nil, assignParam,
    parseParam_param keys_clean.2.1.2 hvalue.2 (Or.inr ⟨rest, rfl⟩), assignPair_select] at hquery
  simpa [List.intercalate] using hquery

/-- Whatever the query string is, the path the plugin derives contains no delimiter. -/
theorem not_mem_parseQuery {query : Text} {c : Char} (hc : c = '&' ∨ c = '=') :
    c ∉ (parseQuery query).1 := by
  have hstep (params : List Text) (hparams : ∀ text ∈ params, '&' ∉ text) (found : Text × Text)
      (hfound : c ∉ found.1) : c ∉ (params.foldl assignParam found).1 := by
    induction params generalizing found with
    | nil => exact hfound
    | cons text params ih =>
        rw [List.foldl_cons]
        refine ih (fun other hother => hparams other (List.mem_cons_of_mem _ hother)) _ ?_
        have hvalue : c ∉ (parseParam text).2 := by
          intro hmem
          rcases hc with rfl | rfl
          · have hsuffix := ((List.drop_sublist 1 _).trans (List.dropWhile_sublist _)).subset
              (List.takeWhile_subset _ hmem)
            exact hparams text List.mem_cons_self hsuffix
          · simpa using List.mem_takeWhile_imp hmem
        simp only [assignParam, assignPair]
        split <;> split <;> first | exact hvalue | exact hfound
  refine hstep _ (fun text htext => ?_) _ (by simp)
  exact not_mem_of_mem_getlines (List.mem_of_mem_filter htext)

end XHDF5.Plugin
