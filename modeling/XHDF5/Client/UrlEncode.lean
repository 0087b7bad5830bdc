/-
# Decoding an encoded path

`H5_rest_url_encode_path` escapes the components of a path but copies what stands before the first
alphanumeric character as it is. It allocates three bytes for each character that it may escape.
A path can be decoded again just when there is nothing to escape in the part that is copied.

The result of `curl_easy_escape` enters as a parameter, as for the other URLs. `isalnum` knows the
ASCII letters and digits. Allocations succeed, and what new memory holds is arbitrary.
-/

import Mathlib.Algebra.Order.BigOperators.Group.List
import Mathlib.Tactic.IntervalCases
import XHDF5.Client.Url
import XHDF5.Math.CString
import XHDF5.Math.Growing
import XHDF5.Math.Percent

namespace XHDF5.Client.UrlEncode

open XHDF5.Math

/-! ## The code -/

/-- `CHECKED_REALLOC`. -/
def grow (b : Buffer Char) (target : Nat) : Buffer Char :=
  ⟨b.bytes, Math.doubled b.size target target⟩

/-- A component at `cur_pos`, without a terminator. -/
def putComponent (b : Buffer Char) (curPos : Nat) (component : Text) :
    Outcome (Buffer Char × Nat) :=
  (b.strncpy curPos component (strlen component)).bind fun b =>
    .ok (b, curPos + strlen component)

/-- The first component, behind the prefix. -/
def putFirst (e : EasyEscape) (token : Text) (b : Buffer Char) (curPos : Nat) :
    Outcome (Buffer Char × Nat) :=
  let component := curlEasyEscape e token
  putComponent (grow b (curPos + strlen component)) curPos component

/-- Every other component, behind a separator. -/
def putNext (e : EasyEscape) (token : Text) (b : Buffer Char) (curPos : Nat) :
    Outcome (Buffer Char × Nat) :=
  let component := curlEasyEscape e token
  ((grow b (curPos + strlen component + 1)).store curPos ['/']).bind fun b =>
    putComponent b (curPos + 1) component

/-- The loop over the components. -/
def putRest (e : EasyEscape) : List Text → Buffer Char → Nat → Outcome (Buffer Char × Nat)
  | [], b, curPos => .ok (b, curPos)
  | token :: tokens, b, curPos =>
      (putNext e token b curPos).bind fun (b, curPos) => putRest e tokens b curPos

/-- All components. -/
def putTokens (e : EasyEscape) : List Text → Buffer Char → Nat → Outcome (Buffer Char × Nat)
  | [], b, curPos => .ok (b, curPos)
  | token :: tokens, b, curPos =>
      (putFirst e token b curPos).bind fun (b, curPos) => putRest e tokens b curPos

/-- `path_prefix_len`. -/
def pathPrefixLen (path : Text) : Nat :=
  ((cString path).takeWhile fun c => !c.isAlphanum).length

/-- `bytes_nalloc` of the copy of the path. -/
def copySize (path : Text) : Nat := strlen path - pathPrefixLen path + 1

/-- `bytes_nalloc` of the result. -/
def resultSize (path : Text) : Nat := 3 * copySize path + pathPrefixLen path + 1

/-- `H5_rest_url_encode_path` in memory: the buffer that it returns. `copied` and `fresh` are what
the memory of the copy and of the result holds before. -/
def h5RestUrlEncodePathIn (e : EasyEscape) (copied fresh : Memory Char) (path : Text) :
    Outcome (Buffer Char) :=
  (Buffer.strncpy ⟨copied, copySize path⟩ 0 (path.drop (pathPrefixLen path))
      (copySize path)).bind fun copy =>
    copy.string.bind fun pathCopy =>
      (Buffer.strncpy ⟨fresh, resultSize path⟩ 0 path (pathPrefixLen path)).bind fun b =>
        (putTokens e (strtok (· == '/') pathCopy) b (pathPrefixLen path)).bind fun (b, curPos) =>
          (grow b (curPos + 1)).store curPos [nul]

/-! ## The purpose -/

/-- `curl_easy_escape` writes the two digits of a byte. -/
def WritesDigits (e : EasyEscape) : Prop :=
  ∀ c : Char, c.toNat < 256 → ∃ high low, e.percent c = ['%', high, low] ∧
    hexValue high = some (c.toNat / 16) ∧ hexValue low = some (c.toNat % 16)

/-- A path with single separators behind its first component, and none at its end. What stands
before the first alphanumeric character stays as it is. -/
def collapsed (path : Text) : Text :=
  path.takeWhile (fun c => !c.isAlphanum) ++
    ['/'].intercalate (strtok (· == '/') (path.dropWhile fun c => !c.isAlphanum))

/-- The result can be decoded, contains only what it may, and was written in the memory that was
computed for it. -/
def Invertible (e : EasyEscape) (copied fresh : Memory Char) (path : Text) : Prop :=
  ∃ b url, h5RestUrlEncodePathIn e copied fresh path = .ok b ∧ b.size = resultSize path ∧
    b.string = .ok url ∧ percentDecode url = some (collapsed path) ∧
      ∀ c ∈ url, unreserved c = true ∨ c = '%' ∨ c = '/'

/-! ## Writing -/

section Writing

variable {e : EasyEscape} {b : Buffer Char} {text : Text}

theorem grow_of_le {target : Nat} (h : target ≤ b.size) : grow b target = b := by
  have hsize : Math.doubled b.size target target = b.size := by
    cases target with
    | zero => rfl
    | succ target => exact if_neg (Nat.not_lt.mpr h)
  rw [grow, hsize]

theorem padded_strlen (source : Text) : padded source (strlen source) = cString source := by
  rw [padded, Nat.sub_self, List.replicate_zero, List.append_nil]
  exact List.take_of_length_le (Nat.le_refl _)

theorem nul_not_mem_curlEasyEscape (token : Text) : nul ∉ curlEasyEscape e token :=
  not_mem_curlEasyEscape e (by decide) (by decide)

theorem strlen_curlEasyEscape (token : Text) :
    strlen (curlEasyEscape e token) = (curlEasyEscape e token).length := by
  rw [strlen, cString_of_not_mem (nul_not_mem_curlEasyEscape token)]

/-- A component is written behind what is there. -/
theorem putComponent_eq (h : b.StartsWith text) (token : Text)
    (hroom : text.length + (curlEasyEscape e token).length ≤ b.size) :
    ∃ b' : Buffer Char, putComponent b text.length (curlEasyEscape e token) =
        .ok (b', (text ++ curlEasyEscape e token).length) ∧
      b'.size = b.size ∧ b'.StartsWith (text ++ curlEasyEscape e token) := by
  refine ⟨⟨b.bytes.write text.length (curlEasyEscape e token), b.size⟩, ?_, rfl, h.write⟩
  have hwithin : b.Within text.length (strlen (curlEasyEscape e token)) :=
    .inr (by rwa [strlen_curlEasyEscape])
  rw [putComponent, strncpy_of_within hwithin, padded_strlen,
    cString_of_not_mem (nul_not_mem_curlEasyEscape token), strlen_curlEasyEscape,
    List.length_append]
  rfl

theorem putNext_eq (h : b.StartsWith text) (token : Text)
    (hroom : text.length + 1 + (curlEasyEscape e token).length ≤ b.size) :
    ∃ b' : Buffer Char, putNext e token b text.length =
        .ok (b', (text ++ '/' :: curlEasyEscape e token).length) ∧
      b'.size = b.size ∧ b'.StartsWith (text ++ '/' :: curlEasyEscape e token) := by
  have hwithin : b.Within text.length ['/'].length :=
    .inr (by rw [List.length_singleton]; omega)
  have hseparated := @Buffer.StartsWith.write _ b ['/'] h
  obtain ⟨b', hput, hsize, hstarts⟩ := putComponent_eq hseparated token
    (by rw [List.length_append, List.length_singleton]; exact hroom)
  rw [List.append_assoc, List.singleton_append] at hput hstarts
  rw [List.length_append, List.length_singleton] at hput
  refine ⟨b', ?_, hsize, hstarts⟩
  rw [putNext, grow_of_le (by rw [strlen_curlEasyEscape]; omega), Buffer.store_of_within hwithin]
  exact hput

/-- The loop writes the other components, and the buffer is not moved as long as there is room. -/
theorem putRest_eq (h : b.StartsWith text) (tokens : List Text)
    (hroom : text.length + (tokens.flatMap fun token => '/' :: curlEasyEscape e token).length ≤
      b.size) :
    ∃ b' : Buffer Char, putRest e tokens b text.length =
        .ok (b', (text ++ tokens.flatMap fun token => '/' :: curlEasyEscape e token).length) ∧
      b'.size = b.size ∧
        b'.StartsWith (text ++ tokens.flatMap fun token => '/' :: curlEasyEscape e token) := by
  induction tokens generalizing b text with
  | nil => exact ⟨b, by simp [putRest], rfl, by simpa using h⟩
  | cons token tokens ih =>
      rw [List.flatMap_cons, List.length_append, List.length_cons] at hroom
      obtain ⟨b', hput, hsize, hstarts⟩ := putNext_eq (e := e) h token (by omega)
      have hmore : (text ++ '/' :: curlEasyEscape e token).length +
          (tokens.flatMap fun token => '/' :: curlEasyEscape e token).length ≤ b'.size := by
        rw [hsize, List.length_append, List.length_cons]
        omega
      obtain ⟨b'', hrest, hsize', hstarts'⟩ := ih hstarts hmore
      rw [List.append_assoc] at hrest hstarts'
      refine ⟨b'', ?_, hsize'.trans hsize, hstarts'⟩
      rw [putRest, hput]
      exact hrest

theorem intercalate_cons (first : Text) (more : List Text) :
    ['/'].intercalate (first :: more) = first ++ more.flatMap fun word => '/' :: word := by
  induction more generalizing first with
  | nil => simp [List.intercalate]
  | cons next more ih =>
      have hsplit : ['/'].intercalate (first :: next :: more) =
          first ++ '/' :: ['/'].intercalate (next :: more) := by
        simp [List.intercalate]
      rw [hsplit, ih, List.flatMap_cons]
      rfl

theorem putTokens_eq (h : b.StartsWith text) (tokens : List Text)
    (hroom : text.length + (['/'].intercalate (tokens.map (curlEasyEscape e))).length ≤ b.size) :
    ∃ b' : Buffer Char, putTokens e tokens b text.length =
        .ok (b', (text ++ ['/'].intercalate (tokens.map (curlEasyEscape e))).length) ∧
      b'.size = b.size ∧
        b'.StartsWith (text ++ ['/'].intercalate (tokens.map (curlEasyEscape e))) := by
  cases tokens with
  | nil =>
      exact ⟨b, by simp [putTokens, List.intercalate], rfl, by simpa [List.intercalate] using h⟩
  | cons token tokens =>
      rw [List.map_cons, intercalate_cons, List.flatMap_map] at hroom ⊢
      rw [List.length_append] at hroom
      obtain ⟨b', hput, hsize, hstarts⟩ := putComponent_eq (e := e) h token (by omega)
      have hmore : (text ++ curlEasyEscape e token).length +
          (tokens.flatMap fun token => '/' :: curlEasyEscape e token).length ≤ b'.size := by
        rw [hsize, List.length_append]
        omega
      obtain ⟨b'', hrest, hsize', hstarts'⟩ := putRest_eq hstarts tokens hmore
      rw [List.append_assoc] at hrest hstarts'
      refine ⟨b'', ?_, hsize'.trans hsize, hstarts'⟩
      have hfirst : putFirst e token b text.length =
          .ok (b', (text ++ curlEasyEscape e token).length) := by
        rw [putFirst, grow_of_le (by rw [strlen_curlEasyEscape]; omega)]
        exact hput
      rw [putTokens, hfirst]
      exact hrest

/-! ## Room -/

/-- The tokens and a separator for each are no longer than the text and one more. -/
theorem sum_length_strtok (text : Text) :
    ((strtok (· == '/') text).map fun token => token.length + 1).sum ≤ text.length + 1 := by
  have hall : ((text.splitOnP (· == '/')).map fun field => field.length + 1).sum =
      text.length + 1 := by
    induction text with
    | nil => rfl
    | cons c text ih =>
        obtain ⟨field, fields, hfields⟩ :=
          List.exists_cons_of_ne_nil (List.splitOnP_ne_nil (· == '/') text)
        rw [List.splitOnP_cons_eq_if_modifyHead]
        by_cases hc : (c == '/') = true
        · rw [if_pos hc, List.map_cons, List.sum_cons, ih, List.length_cons]
          simp only [List.length_nil]
          omega
        · rw [hfields] at ih
          rw [if_neg hc, hfields]
          simp only [List.modifyHead_cons, List.map_cons, List.sum_cons, List.length_cons] at ih ⊢
          omega
  rw [← hall, strtok]
  exact List.Sublist.sum_le_sum (List.filter_sublist.map _) fun _ _ => Nat.zero_le _

theorem length_curlEasyEscape_le (token : Text) :
    (curlEasyEscape e token).length ≤ 3 * token.length := by
  induction token with
  | nil => exact Nat.zero_le _
  | cons c token ih =>
      obtain ⟨high, low, hpercent, -⟩ := e.percent_eq c
      rw [curlEasyEscape_cons, List.length_append, List.length_cons, hpercent]
      split <;> simp <;> omega

/-- Three characters for each one of the text are enough for its escaped tokens. -/
theorem length_escaped_le (text : Text) :
    (['/'].intercalate ((strtok (· == '/') text).map (curlEasyEscape e))).length ≤
      3 * (text.length + 1) := by
  have hsum := sum_length_strtok text
  have hwords (words : List Text) : (['/'].intercalate (words.map (curlEasyEscape e))).length ≤
      3 * (words.map fun word => word.length + 1).sum := by
    cases words with
    | nil => exact Nat.zero_le _
    | cons word words =>
        have hfirst := length_curlEasyEscape_le (e := e) word
        have hmore : ((words.map (curlEasyEscape e)).flatMap fun word => '/' :: word).length ≤
            3 * (words.map fun word => word.length + 1).sum := by
          induction words with
          | nil => exact Nat.zero_le _
          | cons word words ih =>
              have hword := length_curlEasyEscape_le (e := e) word
              simp only [List.map_cons, List.flatMap_cons, List.length_append, List.length_cons,
                List.sum_cons] at ih ⊢
              omega
        rw [List.map_cons, intercalate_cons, List.length_append, List.map_cons, List.sum_cons]
        omega
  exact (hwords _).trans (Nat.mul_le_mul_left 3 hsum)

/-- The buffers have room for everything, and the result is the encoded path. -/
theorem h5RestUrlEncodePathIn_eq (copied fresh : Memory Char) {path : Text} (hpath : nul ∉ path) :
    ∃ b, h5RestUrlEncodePathIn e copied fresh path = .ok b ∧ b.size = resultSize path ∧
      b.string = .ok (h5RestUrlEncodePath e path) := by
  obtain ⟨front, hfront⟩ : ∃ front, front = path.takeWhile fun c => !c.isAlphanum := ⟨_, rfl⟩
  obtain ⟨rest, hrest⟩ : ∃ rest, rest = path.dropWhile fun c => !c.isAlphanum := ⟨_, rfl⟩
  have hsplit : path = front ++ rest := by
    rw [hfront, hrest, List.takeWhile_append_dropWhile]
  have hprefixed : pathPrefixLen path = front.length := by
    rw [pathPrefixLen, cString_of_not_mem hpath, hfront]
  have hclean : nul ∉ front ∧ nul ∉ rest := by
    rwa [hsplit, List.mem_append, not_or] at hpath
  have hcopySize : copySize path = rest.length + 1 := by
    rw [copySize, hprefixed, strlen, cString_of_not_mem hpath, hsplit, List.length_append,
      Nat.add_sub_cancel_left]
  have hdrop : path.drop (pathPrefixLen path) = rest := by
    rw [hprefixed, hsplit, List.drop_left]
  -- The copy holds the rest of the path and a terminator.
  have hcopy : ∃ copy, Buffer.strncpy ⟨copied, copySize path⟩ 0 rest (copySize path) = .ok copy ∧
      copy.string = .ok rest := by
    have hwithin : Buffer.Within ⟨copied, copySize path⟩ 0 (copySize path) :=
      .inr (Nat.le_of_eq (Nat.zero_add _))
    refine ⟨_, strncpy_of_within hwithin, ?_⟩
    have hlen : strlen rest = rest.length := by rw [strlen, cString_of_not_mem hclean.2]
    have hstarts := @Buffer.StartsWith.write [] ⟨copied, copySize path⟩ (rest ++ [nul])
      Buffer.startsWith_nil
    rw [hcopySize, ← hlen, padded_succ_strlen, cString_of_not_mem hclean.2]
    rw [hcopySize, ← hlen] at hstarts
    refine Buffer.StartsWith.string hstarts hclean.2 ?_
    rw [hlen]
    exact Nat.lt_succ_self _
  obtain ⟨copy, hcopy, hstring⟩ := hcopy
  -- The prefix is copied as it is.
  have hroom := length_escaped_le (e := e) rest
  have hsize : resultSize path = 3 * (rest.length + 1) + front.length + 1 := by
    rw [resultSize, hcopySize, hprefixed]
  have hfirst : ∃ b : Buffer Char,
      Buffer.strncpy ⟨fresh, resultSize path⟩ 0 path (pathPrefixLen path) = .ok b ∧
        b.size = resultSize path ∧ b.StartsWith front := by
    have hwithin : Buffer.Within ⟨fresh, resultSize path⟩ 0 (pathPrefixLen path) :=
      .inr (by simp only; omega)
    refine ⟨_, strncpy_of_within hwithin, rfl, ?_⟩
    have hpadded : padded path (pathPrefixLen path) = front := by
      have hlen : front.length - strlen path = 0 := by
        rw [strlen, cString_of_not_mem hpath, hsplit, List.length_append]
        omega
      rw [padded, cString_of_not_mem hpath, hprefixed, hlen, List.replicate_zero, List.append_nil,
        hsplit, List.take_left]
    rw [hpadded]
    exact @Buffer.StartsWith.write [] ⟨fresh, resultSize path⟩ front Buffer.startsWith_nil
  obtain ⟨b, hfirst, hbsize, hstarts⟩ := hfirst
  obtain ⟨b', hput, hsize', hstarts'⟩ := putTokens_eq (e := e) hstarts (strtok (· == '/') rest)
    (by omega)
  rw [← hprefixed] at hput
  have hurl : front ++ ['/'].intercalate ((strtok (· == '/') rest).map (curlEasyEscape e)) =
      h5RestUrlEncodePath e path := by
    rw [h5RestUrlEncodePath, ← hfront, ← hrest]
  rw [hurl] at hput hstarts'
  have hlen : (h5RestUrlEncodePath e path).length < b'.size := by
    rw [← hurl, List.length_append]
    omega
  have hlast : b'.Within (h5RestUrlEncodePath e path).length [nul].length :=
    .inr (by rw [List.length_singleton]; omega)
  have hend : nul ∉ h5RestUrlEncodePath e path := by
    intro hmem
    rcases mem_h5RestUrlEncodePath hmem with hfirst | hslash | hunreserved | hpercent
    · exact hclean.1 (hfront ▸ hfirst)
    · exact absurd hslash (by decide)
    · exact absurd hunreserved (by decide)
    · exact absurd hpercent (by decide)
  refine ⟨⟨b'.bytes.write (h5RestUrlEncodePath e path).length [nul], b'.size⟩, ?_,
    hsize'.trans hbsize, hstarts'.write.string hend hlen⟩
  unfold h5RestUrlEncodePathIn
  simp only [hdrop, hcopy, hstring, hfirst, hput, Outcome.ok_bind, grow_of_le hlen,
    Buffer.store_of_within hlast]

/-! ## Decoding -/

/-- Escaped text is decoded to the text. -/
theorem percentDecode_curlEasyEscape (hdigits : WritesDigits e) {token : Text}
    (hbytes : ∀ c ∈ token, c.toNat < 256) (rest : Text) :
    percentDecode (curlEasyEscape e token ++ rest) =
      (percentDecode rest).map fun text => token ++ text := by
  induction token with
  | nil => simp
  | cons c token ih =>
      obtain ⟨hc, hbytes⟩ := List.forall_mem_cons.mp hbytes
      rw [curlEasyEscape_cons, List.append_assoc]
      by_cases hplain : unreserved c = true
      · have hne : c ≠ '%' := by
          rintro rfl
          revert hplain
          decide
        rw [if_pos hplain, List.singleton_append, percentDecode_cons hne, ih hbytes, Option.map_map]
        rfl
      · obtain ⟨high, low, hpercent, hhigh, hlow⟩ := hdigits c hc
        rw [if_neg hplain, hpercent]
        simp only [List.cons_append, List.nil_append]
        rw [percentDecode_byte hhigh hlow, ih hbytes, Option.map_map]
        rfl

theorem percentDecode_intercalate (hdigits : WritesDigits e) {tokens : List Text}
    (hbytes : ∀ token ∈ tokens, ∀ c ∈ token, c.toNat < 256) :
    percentDecode (['/'].intercalate (tokens.map (curlEasyEscape e))) =
      some (['/'].intercalate tokens) := by
  cases tokens with
  | nil => rfl
  | cons token tokens =>
      obtain ⟨hfirst, hmore⟩ := List.forall_mem_cons.mp hbytes
      have hrest : percentDecode
          ((tokens.map (curlEasyEscape e)).flatMap fun word => '/' :: word) =
            some (tokens.flatMap fun word => '/' :: word) := by
        induction tokens with
        | nil => rfl
        | cons token tokens ih =>
            obtain ⟨htoken, hmore⟩ := List.forall_mem_cons.mp hmore
            have hlater := ih (List.forall_mem_cons.mpr ⟨hfirst, hmore⟩) hmore
            rw [List.map_cons, List.flatMap_cons, List.cons_append, percentDecode_cons (by decide),
              percentDecode_curlEasyEscape hdigits htoken, hlater]
            rfl
      rw [List.map_cons, intercalate_cons, intercalate_cons,
        percentDecode_curlEasyEscape hdigits hfirst, hrest]
      rfl

/-- Collapsing the separators keeps the components. -/
theorem strtok_collapsed (path : Text) :
    strtok (· == '/') (collapsed path) = strtok (· == '/') path := by
  have hsplit := List.takeWhile_append_dropWhile (p := fun c : Char => !c.isAlphanum) (l := path)
  by_cases hpath : (path.dropWhile fun c => !c.isAlphanum) = []
  · rw [hpath, List.append_nil] at hsplit
    rw [collapsed, hpath, hsplit]
    simp [List.intercalate]
  · have hhead := List.head_dropWhile_not (fun c : Char => !c.isAlphanum) hpath
    obtain ⟨c, rest, hrest⟩ := List.exists_cons_of_ne_nil hpath
    simp only [hrest, List.head_cons, Bool.not_eq_false'] at hhead
    have hslash : (c == '/') = false := by
      rw [beq_eq_false_iff_ne]
      rintro rfl
      revert hhead
      decide
    obtain ⟨first, tail, htext, hfirst, hclean, htail, htokens⟩ :=
      exists_strtok_cons (· == '/') hslash rest
    have hne : first ≠ [] := by
      rintro rfl
      cases hfirst
    obtain ⟨before, stem, happend⟩ := exists_strtok_append (· == '/')
      (path.takeWhile fun c => !c.isAlphanum)
    have hwords : ∀ word ∈ strtok (· == '/') tail, '/' ∉ word ∧ word ≠ [] := fun word hword =>
      ⟨fun hmem => by simpa using clean_of_mem_strtok hword '/' hmem, ne_nil_of_mem_strtok hword⟩
    have hmore : strtok (· == '/') ((strtok (· == '/') tail).flatMap fun word => '/' :: word) =
        strtok (· == '/') tail := by
      cases htokens : strtok (· == '/') tail with
      | nil => rfl
      | cons word words =>
          rw [htokens] at hwords
          rw [List.flatMap_cons, List.cons_append, strtok_cons _ rfl, ← intercalate_cons]
          exact strtok_intercalate (fun word hword => (hwords word hword).1)
            fun word hword => (hwords word hword).2
    have hend : ((strtok (· == '/') tail).flatMap fun word => '/' :: word) = [] ∨
        ∃ d rest, ((strtok (· == '/') tail).flatMap fun word => '/' :: word) = d :: rest ∧
          (d == '/') = true := by
      cases strtok (· == '/') tail with
      | nil => exact .inl rfl
      | cons word words => exact .inr ⟨'/', _, by rw [List.flatMap_cons, List.cons_append], rfl⟩
    have hcollapsed : collapsed path = path.takeWhile (fun c => !c.isAlphanum) ++
        (first ++ (strtok (· == '/') tail).flatMap fun word => '/' :: word) := by
      rw [collapsed, hrest, htokens, intercalate_cons]
    rw [hcollapsed, happend first _ hne hclean hend, hmore, ← happend first tail hne hclean htail,
      ← htext, ← hrest, hsplit]

/-- Only what stands before the first alphanumeric character can keep a path from being decoded. -/
theorem invertible_iff (hdigits : WritesDigits e) (copied fresh : Memory Char) {path : Text}
    (hpath : ∀ c ∈ path, c ≠ nul ∧ c.toNat < 256) :
    Invertible e copied fresh path ↔
      ∀ c ∈ path.takeWhile fun c => !c.isAlphanum, unreserved c = true ∨ c = '/' := by
  have hnul : nul ∉ path := fun hmem => (hpath nul hmem).1 rfl
  obtain ⟨b, hrun, hsize, hstring⟩ := h5RestUrlEncodePathIn_eq (e := e) copied fresh hnul
  have hbytes : ∀ token ∈ strtok (· == '/') (path.dropWhile fun c => !c.isAlphanum),
      ∀ c ∈ token, c.toNat < 256 :=
    forall_mem_strtok_iff.mpr fun c hc _ =>
      (hpath c ((List.dropWhile_suffix fun c => !c.isAlphanum).subset hc)).2
  have hdecode := percentDecode_intercalate hdigits hbytes
  constructor
  · rintro ⟨b', url, hrun', -, hstring', hdecoded, hchars⟩ c hc
    obtain rfl := Outcome.ok.inj (hrun'.symm.trans hrun)
    obtain rfl := Outcome.ok.inj (hstring'.symm.trans hstring)
    have hfront : ∀ c ∈ path.takeWhile fun c => !c.isAlphanum, c.isAlphanum = false :=
      fun c hc => by simpa using List.mem_takeWhile_imp hc
    have hpercent := not_mem_percent hfront hdecode hdecoded
    rcases hchars c (List.mem_append_left _ hc) with hplain | rfl | hslash
    · exact .inl hplain
    · exact absurd hc hpercent
    · exact .inr hslash
  · intro hfront
    have hpercent : '%' ∉ path.takeWhile fun c => !c.isAlphanum := by
      intro hmem
      rcases hfront '%' hmem with hplain | hslash
      · exact absurd hplain (by decide)
      · exact absurd hslash (by decide)
    refine ⟨b, _, hrun, hsize, hstring, ?_, fun c hc => ?_⟩
    · rw [h5RestUrlEncodePath, percentDecode_append hpercent, hdecode]
      rfl
    · rcases mem_h5RestUrlEncodePath hc with hmem | hslash | hplain | hpercent
      · exact (hfront c hmem).imp id .inr
      · exact .inr (.inr hslash)
      · exact .inl hplain
      · exact .inr (.inl hpercent)

end Writing

/-- A digit as cURL writes it. -/
def hexDigit (n : Nat) : Char :=
  ['0', '1', '2', '3', '4', '5', '6', '7', '8', '9', 'A', 'B', 'C', 'D', 'E', 'F'].getD n '0'

theorem hexDigit_spec (n : Nat) :
    (hexDigit n).isAlphanum = true ∧ (n < 16 → hexValue (hexDigit n) = some n) := by
  by_cases hn : n < 16
  · interval_cases n <;> decide
  · have hzero : hexDigit n = '0' := by
      rw [hexDigit, List.getD_eq_getElem?_getD, List.getElem?_eq_none (by simpa using hn)]
      rfl
    rw [hzero]
    exact ⟨by decide, fun h => absurd h hn⟩

/-- Escaping with upper case digits. -/
def easyEscape : EasyEscape where
  percent c := ['%', hexDigit (c.toNat / 16), hexDigit (c.toNat % 16)]
  percent_eq _ := ⟨_, _, rfl, (hexDigit_spec _).1, (hexDigit_spec _).1⟩

theorem writesDigits_easyEscape : WritesDigits easyEscape := fun _ hc =>
  ⟨_, _, rfl, (hexDigit_spec _).2 (by omega), (hexDigit_spec _).2 (by omega)⟩

/-- An absolute path with a blank, a doubled separator and a byte that is not ASCII. -/
theorem invertible_blank : Invertible easyEscape (fun _ => nul) (fun _ => nul)
    ['/', 'a', ' ', 'b', '/', '/', 'c', Char.ofNat 0xE9] :=
  (invertible_iff writesDigits_easyEscape _ _ (by decide)).mpr (by decide)

/-- The two bytes of a letter with an accent in front of the first ASCII letter. -/
theorem not_invertible_accent : ¬ Invertible easyEscape (fun _ => nul) (fun _ => nul)
    [Char.ofNat 0xC3, Char.ofNat 0xA9, 't', Char.ofNat 0xC3, Char.ofNat 0xA9] := by
  rintro ⟨b, url, hrun, -, hstring, -, hchars⟩
  obtain ⟨b', hrun', -, hstring'⟩ := @h5RestUrlEncodePathIn_eq easyEscape (fun _ => nul)
    (fun _ => nul) [Char.ofNat 0xC3, Char.ofNat 0xA9, 't', Char.ofNat 0xC3, Char.ofNat 0xA9]
    (by decide)
  obtain rfl := Outcome.ok.inj (hrun.symm.trans hrun')
  obtain rfl := Outcome.ok.inj (hstring.symm.trans hstring')
  exact absurd (hchars (Char.ofNat 0xC3) (by decide)) (by decide)

end XHDF5.Client.UrlEncode
