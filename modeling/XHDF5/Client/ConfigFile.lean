/-
# Where the connector finds its server

`H5_rest_set_connection_information` takes the endpoint and the user from the environment or, when
there is no endpoint, from the lines of `~/.hscfg`. A line is cut at blanks and equals signs; its
first word is the key and the second one the value. A call that finds `base_URL` set has nothing to
do.

What the environment holds, what the allocations and the options of curl answer and whether
`H5_rest_authenticate_with_AD` succeeds are given. A key that is the null pointer has no defined
comparison.
-/

import XHDF5.Math.Lines
import XHDF5.Math.Run

namespace XHDF5.Client.ConfigFile

open XHDF5.Math

/-! ## The code -/

/-- The strings of an `H5_rest_ad_info_t`, and its flag. -/
structure AdInfo where
  clientId : Text
  tenantId : Text
  resourceId : Text
  clientSecret : Text
  unattended : Bool
deriving DecidableEq

/-- `memset(&ad_info, 0, sizeof(ad_info))`. -/
def AdInfo.zero : AdInfo := ⟨[], [], [], [], false⟩

/-- The string behind `strncpy` into an array of 128 zeros that leaves the last one. -/
def adField (source : Text) : Text := (cString source).take 127

/-- `base_URL`, and the user and the password that curl has. -/
structure Connection where
  baseUrl : Option Text
  username : Option Text
  password : Option Text
deriving DecidableEq

/-- The variables of the environment, the files by their paths, and what the calls answer. -/
structure Environment where
  hsdsEndpoint : Option Text
  hsdsUsername : Option Text
  hsdsPassword : Option Text
  hsdsAdClientId : Option Text
  hsdsAdTenantId : Option Text
  hsdsAdResourceId : Option Text
  hsdsAdClientSecret : Option Text
  home : Option Text
  fopen : Text → Option Text
  malloc : Nat → Bool
  setUsername : Text → Bool
  setPassword : Text → Bool
  authenticate : AdInfo → Bool

/-- A copy of the endpoint in `base_URL`. -/
def setBaseUrl (env : Environment) (c : Connection) (url : Text) : Connection × Bool :=
  if env.malloc (strlen url + 1) then ({ c with baseUrl := some (cString url) }, true)
  else ({ c with baseUrl := none }, false)

/-- The user, if the string has characters. -/
def setUsername (env : Environment) (c : Connection) (username : Option Text) : Connection × Bool :=
  match username.filter (strlen · ≠ 0) with
  | none => (c, true)
  | some name =>
      if env.setUsername name then ({ c with username := some (cString name) }, true) else (c, false)

/-- The password, if the string has characters. -/
def setPassword (env : Environment) (c : Connection) (password : Option Text) : Connection × Bool :=
  match password.filter (strlen · ≠ 0) with
  | none => (c, true)
  | some word =>
      if env.setPassword word then ({ c with password := some (cString word) }, true) else (c, false)

/-- The placeholder for a socket of the machine, or the endpoint. -/
def endpointUrl (url : Text) : Text := if lit "http+unix" <+: url then lit "0" else url

/-- `H5_rest_set_connection_information` with an endpoint in the environment. -/
def fromEnvironment (env : Environment) (c : Connection) (url : Text) : Connection × Bool :=
  let (c, ok) := setBaseUrl env c (endpointUrl url)
  if ¬ ok then (c, false)
  else if env.hsdsUsername.isSome ∨ env.hsdsPassword.isSome then
    let (c, ok) := setUsername env c env.hsdsUsername
    if ¬ ok then (c, false) else setPassword env c env.hsdsPassword
  else
    (c, env.authenticate
      { clientId := env.hsdsAdClientId.elim [] adField
        tenantId := env.hsdsAdTenantId.elim [] adField
        resourceId := env.hsdsAdResourceId.elim [] adField
        clientSecret := env.hsdsAdClientSecret.elim [] adField
        unattended := env.hsdsAdClientSecret.isSome })

/-- What is known while the file is read. -/
structure Reading where
  connection : Connection
  adInfo : AdInfo
deriving DecidableEq

/-- The delimiters of `strtok(file_line, " =\n")`. -/
def isDelim (c : Char) : Bool := c == ' ' || c == '=' || c == '\n'

/-- The comparisons of the key, with what is done for a value. -/
def Reading.assign (env : Environment) (r : Reading) (key : Text) (val : Option Text) :
    Reading × Bool :=
  let given := val.filter (strlen · ≠ 0)
  if key = lit "hs_endpoint" then
    match val with
    | none => (r, true)
    | some url =>
        let (c, ok) := setBaseUrl env r.connection url
        ({ r with connection := c }, ok)
  else if key = lit "hs_username" then
    let (c, ok) := setUsername env r.connection val
    ({ r with connection := c }, ok)
  else if key = lit "hs_password" then
    let (c, ok) := setPassword env r.connection val
    ({ r with connection := c }, ok)
  else if key = lit "hs_ad_app_id" then
    ({ r with adInfo.clientId := given.elim r.adInfo.clientId adField }, true)
  else if key = lit "hs_ad_tenant_id" then
    ({ r with adInfo.tenantId := given.elim r.adInfo.tenantId adField }, true)
  else if key = lit "hs_ad_resource_id" then
    ({ r with adInfo.resourceId := given.elim r.adInfo.resourceId adField }, true)
  else if key = lit "hs_ad_client_secret" then
    ({ r with
        adInfo.clientSecret := given.elim r.adInfo.clientSecret adField
        adInfo.unattended := r.adInfo.unattended || given.isSome }, true)
  else (r, true)

/-- A line that the loop passes over. -/
def Skipped (line : Text) : Prop := line.head? = some '#' ∨ strlen line = 0

instance (line : Text) : Decidable (Skipped line) := inferInstanceAs (Decidable (_ ∨ _))

/-- The words of a line. -/
def wordsOf (line : Text) : List Text := strtok isDelim (cString line)

/-- The loop over the lines of the file. -/
def readLines (env : Environment) : Reading → List Text → Outcome (Reading × Bool)
  | r, [] => .ok (r, true)
  | r, line :: rest =>
      if Skipped line then readLines env r rest
      else
        match wordsOf line with
        | [] => .undefined
        | key :: more =>
            match r.assign env key more.head? with
            | (r, true) => readLines env r rest
            | (r, false) => .ok (r, false)

/-- The end of the function behind the loop. -/
def Reading.finish (env : Environment) (r : Reading) : Connection × Bool :=
  let given := r.adInfo.clientId ≠ [] ∧ r.adInfo.tenantId ≠ [] ∧ r.adInfo.resourceId ≠ []
  if given ∧ ¬ env.authenticate r.adInfo then (r.connection, false)
  else (r.connection, r.connection.baseUrl.isSome)

/-- The configuration file of the user, if it can be opened. -/
def configFile (env : Environment) : Option Text :=
  match env.home with
  | none => none
  | some home =>
      if env.malloc (strlen home + strlen (lit ".hscfg") + 2) then
        env.fopen (cString home ++ lit "/" ++ lit ".hscfg")
      else none

/-- `sizeof(file_line) - 1`. -/
def lineRoom : Nat := 1023

/-- `H5_rest_set_connection_information`. -/
def h5RestSetConnectionInformation (env : Environment) (c : Connection) :
    Outcome (Connection × Bool) :=
  if c.baseUrl.isSome then .ok (c, true)
  else
    match env.hsdsEndpoint with
    | some url => .ok (fromEnvironment env c url)
    | none =>
        match configFile env with
        | none => .ok (c, false)
        | some file =>
            (readLines env ⟨c, .zero⟩ (fgetsAll lineRoom file)).bind fun (r, ok) =>
              .ok (if ok then r.finish env else (r.connection, false))

/-! ## Settings -/

/-- The keys that the function knows. -/
inductive Key
  | endpoint
  | username
  | password
  | adAppId
  | adTenantId
  | adResourceId
  | adClientSecret
deriving DecidableEq

/-- How a key is written. -/
def Key.text : Key → Text
  | .endpoint => lit "hs_endpoint"
  | .username => lit "hs_username"
  | .password => lit "hs_password"
  | .adAppId => lit "hs_ad_app_id"
  | .adTenantId => lit "hs_ad_tenant_id"
  | .adResourceId => lit "hs_ad_resource_id"
  | .adClientSecret => lit "hs_ad_client_secret"

theorem text_injective : Function.Injective Key.text := by
  intro first second heq
  unfold Key.text lit at heq
  revert heq
  cases first <;> cases second <;> decide

/-- A key begins with a letter, and is one word. -/
theorem text_word (k : Key) : k.text.head? = some 'h' ∧ '\n' ∉ k.text ∧ nul ∉ k.text ∧
    ∀ c ∈ k.text, isDelim c = false := by
  unfold Key.text lit
  cases k <;> decide

/-- What a setting is for. -/
def Reading.store (r : Reading) (k : Key) (value : Text) : Reading :=
  match k with
  | .endpoint => { r with connection.baseUrl := some value }
  | .username => { r with connection.username := some value }
  | .password => { r with connection.password := some value }
  | .adAppId => { r with adInfo.clientId := adField value }
  | .adTenantId => { r with adInfo.tenantId := adField value }
  | .adResourceId => { r with adInfo.resourceId := adField value }
  | .adClientSecret =>
      { r with adInfo.clientSecret := adField value, adInfo.unattended := true }

/-- Nothing that is asked for is refused. -/
structure Environment.Willing (env : Environment) : Prop where
  malloc : ∀ size, env.malloc size = true
  setUsername : ∀ name, env.setUsername name = true
  setPassword : ∀ word, env.setPassword word = true

/-- The assignment of a key that is known. -/
theorem assign_text {env : Environment} (hwilling : env.Willing) (r : Reading) (k : Key) {value : Text}
    (hne : value ≠ []) (hnul : nul ∉ value) :
    r.assign env k.text (some value) = (r.store k value, true) := by
  have hlength : strlen value ≠ 0 := by
    rw [strlen, cString_of_not_mem hnul]
    exact fun hzero => hne (List.length_eq_zero_iff.mp hzero)
  have hgiven : (some value).filter (strlen · ≠ 0) = some value :=
    Option.filter_some_pos (decide_eq_true hlength)
  have hother {first second : Key} (hne : first ≠ second) : first.text ≠ second.text :=
    fun heq => hne (text_injective heq)
  have hcompare (k : Key) : r.assign env k.text (some value) =
      if k.text = Key.endpoint.text then
        ({ r with connection := (setBaseUrl env r.connection value).1 },
          (setBaseUrl env r.connection value).2)
      else if k.text = Key.username.text then
        ({ r with connection := (ConfigFile.setUsername env r.connection (some value)).1 },
          (ConfigFile.setUsername env r.connection (some value)).2)
      else if k.text = Key.password.text then
        ({ r with connection := (ConfigFile.setPassword env r.connection (some value)).1 },
          (ConfigFile.setPassword env r.connection (some value)).2)
      else if k.text = Key.adAppId.text then (r.store .adAppId value, true)
      else if k.text = Key.adTenantId.text then (r.store .adTenantId value, true)
      else if k.text = Key.adResourceId.text then (r.store .adResourceId value, true)
      else if k.text = Key.adClientSecret.text then (r.store .adClientSecret value, true)
      else (r, true) := by
    rw [Reading.assign, hgiven, Option.isSome_some, Bool.or_true]
    rfl
  rw [hcompare]
  cases k with
  | endpoint =>
      rw [if_pos rfl, setBaseUrl, if_pos (hwilling.malloc _), cString_of_not_mem hnul]
      rfl
  | username =>
      rw [if_neg (hother (by decide)), if_pos rfl, ConfigFile.setUsername, hgiven]
      simp only
      rw [if_pos (hwilling.setUsername value), cString_of_not_mem hnul]
      rfl
  | password =>
      rw [if_neg (hother (by decide)), if_neg (hother (by decide)), if_pos rfl,
        ConfigFile.setPassword, hgiven]
      simp only
      rw [if_pos (hwilling.setPassword value), cString_of_not_mem hnul]
      rfl
  | adAppId =>
      rw [if_neg (hother (by decide)), if_neg (hother (by decide)), if_neg (hother (by decide)),
        if_pos rfl]
  | adTenantId =>
      rw [if_neg (hother (by decide)), if_neg (hother (by decide)), if_neg (hother (by decide)),
        if_neg (hother (by decide)), if_pos rfl]
  | adResourceId =>
      rw [if_neg (hother (by decide)), if_neg (hother (by decide)), if_neg (hother (by decide)),
        if_neg (hother (by decide)), if_neg (hother (by decide)), if_pos rfl]
  | adClientSecret =>
      rw [if_neg (hother (by decide)), if_neg (hother (by decide)), if_neg (hother (by decide)),
        if_neg (hother (by decide)), if_neg (hother (by decide)), if_neg (hother (by decide)),
        if_pos rfl]

/-! ## A file that is written line by line -/

/-- A line of a configuration file: a comment, or a setting with what stands around its words. -/
inductive Entry
  | comment (text : Text)
  | setting (before : Text) (key : Key) (between value after : Text)

/-- The line without its newline. -/
def Entry.line : Entry → Text
  | .comment text => '#' :: text
  | .setting before key between value after => before ++ (key.text ++ (between ++ (value ++ after)))

/-- Characters that separate words within a line. -/
def Separates (text : Text) : Prop := ∀ c ∈ text, c = ' ' ∨ c = '='

/-- The words of a line can be told apart, and the line fits into the buffer. -/
def Entry.WellFormed : Entry → Prop
  | .comment text => '\n' ∉ text ∧ (Entry.comment text).line.length < lineRoom
  | .setting before key between value after =>
      Separates before ∧ (Separates between ∧ between ≠ []) ∧
        (value ≠ [] ∧ nul ∉ value ∧ ∀ c ∈ value, isDelim c = false) ∧
        (nul ∉ after ∧ '\n' ∉ after ∧ after.head?.all isDelim = true) ∧
        (Entry.setting before key between value after).line.length < lineRoom

/-- The text of the file. -/
def render (entries : List Entry) : Text := (entries.map fun e => e.line ++ ['\n']).flatten

/-- The value that a line has for a key. -/
def Entry.valueFor (k : Key) : Entry → Option Text
  | .comment _ => none
  | .setting _ key _ value _ => if key = k then some value else none

/-- The value that a file has for a key, the last one. -/
def lastValue (entries : List Entry) (k : Key) : Option Text :=
  (entries.filterMap (·.valueFor k)).getLast?

theorem lastValue_cons (e : Entry) (entries : List Entry) (k : Key) :
    lastValue (e :: entries) k = (lastValue entries k).or (e.valueFor k) := by
  rw [lastValue, lastValue]
  cases hvalue : e.valueFor k with
  | none => rw [List.filterMap_cons_none hvalue, Option.or_none]
  | some value =>
      rw [List.filterMap_cons_some hvalue, List.getLast?_cons]
      cases (entries.filterMap (·.valueFor k)).getLast? with
      | none => rfl
      | some last => rfl

/-- What the file says for Active Directory. -/
def adInfoOf (entries : List Entry) : AdInfo where
  clientId := (lastValue entries .adAppId).elim [] adField
  tenantId := (lastValue entries .adTenantId).elim [] adField
  resourceId := (lastValue entries .adResourceId).elim [] adField
  clientSecret := (lastValue entries .adClientSecret).elim [] adField
  unattended := (lastValue entries .adClientSecret).isSome

section Rendering

variable {env : Environment} (hwilling : env.Willing)

theorem strtok_of_separates {before text : Text} (h : Separates before) :
    strtok isDelim (before ++ text) = strtok isDelim text := by
  induction before with
  | nil => rfl
  | cons c before ih =>
      have hc : isDelim c = true := by
        rcases h c List.mem_cons_self with rfl | rfl <;> rfl
      rw [List.cons_append, strtok_cons _ hc, ih fun x hx => h x (List.mem_cons_of_mem _ hx)]

theorem not_mem_of_separates {text : Text} (h : Separates text) :
    nul ∉ text ∧ '\n' ∉ text ∧ '#' ∉ text := by
  have hnot {c : Char} (hblank : c ≠ ' ') (hequal : c ≠ '=') : c ∉ text :=
    fun hmem => (h c hmem).elim hblank hequal
  exact ⟨hnot (by decide) (by decide), hnot (by decide) (by decide), hnot (by decide) (by decide)⟩

/-- A line has no newline. -/
theorem Entry.WellFormed.newline {e : Entry} (h : e.WellFormed) : '\n' ∉ e.line := by
  cases e with
  | comment text =>
      rw [Entry.line, List.mem_cons, not_or]
      exact ⟨by decide, h.1⟩
  | setting before key between value after =>
      obtain ⟨hbefore, ⟨hbetween, -⟩, ⟨-, -, hvalue⟩, ⟨-, hafter, -⟩, -⟩ := h
      simp only [Entry.line, List.mem_append, not_or]
      refine ⟨(not_mem_of_separates hbefore).2.1, (text_word key).2.1,
        (not_mem_of_separates hbetween).2.1, fun hmem => ?_, hafter⟩
      have hdelim := hvalue _ hmem
      cases hdelim

theorem Entry.WellFormed.fits {e : Entry} (h : e.WellFormed) : e.line.length < lineRoom := by
  cases e with
  | comment text => exact h.2
  | setting before key between value after => exact h.2.2.2.2

/-- What a line does to what is known. -/
def Reading.take (r : Reading) : Entry → Reading
  | .comment _ => r
  | .setting _ key _ value _ => r.store key value

/-- The words of a setting's line begin with its key and its value. -/
theorem wordsOf_setting {before between value after : Text} {key : Key}
    (h : (Entry.setting before key between value after).WellFormed) :
    ∃ more, wordsOf ((Entry.setting before key between value after).line ++ ['\n']) =
      key.text :: value :: more := by
  obtain ⟨hbefore, ⟨hbetween, hne⟩, ⟨hvalue, hnul, hclean⟩, ⟨hafter, -, hend⟩, -⟩ := h
  obtain ⟨-, -, hkeyNul, hkey⟩ := text_word key
  have hkeyNe : key.text ≠ [] := by
    have hhead := (text_word key).1
    intro hnil
    rw [hnil] at hhead
    cases hhead
  have hwhole : nul ∉ (Entry.setting before key between value after).line ++ ['\n'] := by
    simp only [Entry.line, List.mem_append, not_or, List.mem_singleton]
    exact ⟨⟨(not_mem_of_separates hbefore).1, hkeyNul, (not_mem_of_separates hbetween).1, hnul,
      hafter⟩, by decide⟩
  have hsecond : strtok isDelim (between ++ (value ++ (after ++ ['\n']))) =
      value :: strtok isDelim (after ++ ['\n']) := by
    rw [strtok_of_separates hbetween]
    refine strtok_word_append hvalue hclean (.inr ?_)
    cases after with
    | nil => exact ⟨'\n', [], rfl, rfl⟩
    | cons c after => exact ⟨c, after ++ ['\n'], rfl, hend⟩
  refine ⟨strtok isDelim (after ++ ['\n']), ?_⟩
  rw [wordsOf, cString_of_not_mem hwhole, Entry.line, List.append_assoc, List.append_assoc,
    List.append_assoc, List.append_assoc, strtok_of_separates hbefore,
    strtok_word_append hkeyNe hkey, hsecond]
  obtain ⟨c, more, rfl⟩ := List.exists_cons_of_ne_nil hne
  have hc : isDelim c = true := by
    rcases hbetween c List.mem_cons_self with rfl | rfl <;> rfl
  exact .inr ⟨c, _, rfl, hc⟩

/-- A setting's line is not passed over. -/
theorem not_skipped_setting {before between value after : Text} {key : Key}
    (h : (Entry.setting before key between value after).WellFormed) :
    ¬ Skipped ((Entry.setting before key between value after).line ++ ['\n']) := by
  obtain ⟨more, hwords⟩ := wordsOf_setting h
  rintro (hcomment | hempty)
  · obtain ⟨hbefore, -⟩ := h
    cases before with
    | nil =>
        obtain ⟨c, rest, hkey⟩ : ∃ c rest, key.text = c :: rest := by
          refine List.exists_cons_of_ne_nil fun hnil => ?_
          have hhead := (text_word key).1
          rw [hnil] at hhead
          cases hhead
        have hhead := (text_word key).1
        rw [Entry.line, List.nil_append, hkey] at hcomment
        rw [hkey] at hhead
        cases hcomment.symm.trans hhead
    | cons c before =>
        have hc : c = '#' := Option.some.inj hcomment
        exact (not_mem_of_separates hbefore).2.2 (hc ▸ List.mem_cons_self)
  · rw [wordsOf, List.length_eq_zero_iff.mp hempty, strtok_nil] at hwords
    cases hwords

include hwilling

/-- One line is read as it was meant. -/
theorem readLines_entry {e : Entry} (h : e.WellFormed) (r : Reading) (rest : List Text) :
    readLines env r ((e.line ++ ['\n']) :: rest) = readLines env (r.take e) rest := by
  cases e with
  | comment text =>
      rw [readLines, if_pos (.inl rfl)]
      rfl
  | setting before key between value after =>
      obtain ⟨more, hwords⟩ := wordsOf_setting h
      obtain ⟨-, -, ⟨hvalue, hnul, -⟩, -⟩ := id h
      rw [readLines, if_neg (not_skipped_setting h), hwords]
      simp only [List.head?_cons]
      rw [assign_text hwilling r key hvalue hnul]
      rfl

/-- The lines of a file are read one after the other. -/
theorem readLines_render {entries : List Entry} (h : ∀ e ∈ entries, e.WellFormed) (r : Reading) :
    readLines env r (fgetsAll lineRoom (render entries)) =
      .ok (entries.foldl Reading.take r, true) := by
  have hlines : fgetsAll lineRoom (render entries) = entries.map fun e => e.line ++ ['\n'] := by
    have hclean : ∀ line ∈ entries.map Entry.line, '\n' ∉ line :=
      List.forall_mem_map.mpr fun e he => (h e he).newline
    have hfits : ∀ line ∈ entries.map Entry.line, line.length < lineRoom :=
      List.forall_mem_map.mpr fun e he => (h e he).fits
    have hpieces := fgetsAll_lines hclean hfits
    rw [List.map_map] at hpieces
    exact hpieces
  rw [hlines]
  clear hlines
  induction entries generalizing r with
  | nil => rfl
  | cons e entries ih =>
      obtain ⟨he, hrest⟩ := List.forall_mem_cons.mp h
      rw [List.map_cons, readLines_entry hwilling he, ih hrest, List.foldl_cons]

omit hwilling

/-- A value that the file has is not empty. -/
theorem adField_lastValue {entries : List Entry} (h : ∀ e ∈ entries, e.WellFormed) (k : Key) :
    (lastValue entries k).elim [] adField ≠ [] ↔ (lastValue entries k).isSome = true := by
  cases hlast : lastValue entries k with
  | none => exact iff_of_false (fun hne => hne rfl) (by decide)
  | some value =>
      refine iff_of_true ?_ rfl
      obtain ⟨e, he, hvalue⟩ := List.mem_filterMap.mp (List.mem_of_getLast? hlast)
      cases e with
      | comment text => cases hvalue
      | setting before key between found after =>
          obtain ⟨-, -, ⟨hne, hnul, -⟩, -⟩ := h _ he
          rw [Entry.valueFor] at hvalue
          split at hvalue
          · obtain rfl := Option.some.inj hvalue
            rw [Option.elim_some, adField, cString_of_not_mem hnul, ne_eq, List.take_eq_nil_iff]
            exact fun hor => hor.elim (by decide) hne
          · cases hvalue

/-- Later lines win. -/
theorem foldl_take (entries : List Entry) (r : Reading) :
    entries.foldl Reading.take r =
      { connection :=
          { baseUrl := (lastValue entries .endpoint).or r.connection.baseUrl
            username := (lastValue entries .username).or r.connection.username
            password := (lastValue entries .password).or r.connection.password }
        adInfo :=
          { clientId := (lastValue entries .adAppId).elim r.adInfo.clientId adField
            tenantId := (lastValue entries .adTenantId).elim r.adInfo.tenantId adField
            resourceId := (lastValue entries .adResourceId).elim r.adInfo.resourceId adField
            clientSecret := (lastValue entries .adClientSecret).elim r.adInfo.clientSecret adField
            unattended := (lastValue entries .adClientSecret).isSome || r.adInfo.unattended } } := by
  induction entries generalizing r with
  | nil => rfl
  | cons e entries ih =>
      have hor (a b c : Option Text) : (a.or b).or c = a.or (b.or c) := Option.or_assoc
      have helim (a b : Option Text) (x : Text) :
          (a.or b).elim x adField = a.elim (b.elim x adField) adField := by
        cases a <;> rfl
      have hsome (a b : Option Text) (x : Bool) :
          ((a.or b).isSome || x) = (a.isSome || (b.isSome || x)) := by
        cases a <;> rfl
      rw [List.foldl_cons, ih]
      simp only [lastValue_cons, hor, helim, hsome]
      cases e with
      | comment text => rfl
      | setting before key between value after => cases key <;> rfl

include hwilling

/-- A configuration file is read as it was written, whatever the lines look like: the last value of
each key counts. -/
theorem h5RestSetConnectionInformation_render {entries : List Entry} {c : Connection}
    (hentries : ∀ e ∈ entries, e.WellFormed) (hendpoint : env.hsdsEndpoint = none)
    (hfile : configFile env = some (render entries)) (hfirst : c.baseUrl = none) :
    h5RestSetConnectionInformation env c =
      .ok ({ baseUrl := lastValue entries .endpoint
             username := (lastValue entries .username).or c.username
             password := (lastValue entries .password).or c.password },
        (lastValue entries .endpoint).isSome &&
          (((lastValue entries .adAppId).isNone || (lastValue entries .adTenantId).isNone ||
            (lastValue entries .adResourceId).isNone) || env.authenticate (adInfoOf entries))) := by
  have hnone : ¬ c.baseUrl.isSome = true := by
    rw [hfirst]
    decide
  have hunset (x : Option Text) : x.or none = x := Option.or_none
  rw [h5RestSetConnectionInformation, if_neg hnone, hendpoint]
  simp only [hfile]
  rw [readLines_render hwilling hentries, Outcome.ok_bind, foldl_take]
  have hgiven := adField_lastValue hentries
  have hfinish (r : Reading) (k1 k2 k3 : Key)
      (h1 : r.adInfo.clientId = (lastValue entries k1).elim [] adField)
      (h2 : r.adInfo.tenantId = (lastValue entries k2).elim [] adField)
      (h3 : r.adInfo.resourceId = (lastValue entries k3).elim [] adField) :
      r.finish env = (r.connection, r.connection.baseUrl.isSome &&
        (((lastValue entries k1).isNone || (lastValue entries k2).isNone ||
          (lastValue entries k3).isNone) || env.authenticate r.adInfo)) := by
    have hall : (r.adInfo.clientId ≠ [] ∧ r.adInfo.tenantId ≠ [] ∧ r.adInfo.resourceId ≠ []) ↔
        ((lastValue entries k1).isNone || (lastValue entries k2).isNone ||
          (lastValue entries k3).isNone) = false := by
      rw [h1, h2, h3, hgiven, hgiven, hgiven]
      cases lastValue entries k1 <;> cases lastValue entries k2 <;> cases lastValue entries k3 <;>
        simp
    rw [Reading.finish]
    simp only [hall]
    cases ((lastValue entries k1).isNone || (lastValue entries k2).isNone ||
      (lastValue entries k3).isNone) <;> cases env.authenticate r.adInfo <;> simp
  rw [if_pos rfl, hfinish _ .adAppId .adTenantId .adResourceId rfl rfl rfl]
  simp only [hfirst, hunset, AdInfo.zero, Bool.or_false]
  rfl

end Rendering

/-! ## Lines without words -/

/-- A line that is not passed over and has no words. -/
def Blank (line : Text) : Prop :=
  line.head? ≠ some '#' ∧ cString line ≠ [] ∧ ∀ c ∈ cString line, isDelim c = true

/-- A line with a value that an allocation or an option of curl refuses. -/
def Refused (env : Environment) (line : Text) : Prop :=
  ¬ Skipped line ∧ ∃ key val more, wordsOf line = key :: val :: more ∧
    (key = lit "hs_endpoint" ∧ env.malloc (strlen val + 1) = false ∨
      key = lit "hs_username" ∧ env.setUsername val = false ∨
      key = lit "hs_password" ∧ env.setPassword val = false)

theorem blank_iff {line : Text} : Blank line ↔ ¬ Skipped line ∧ wordsOf line = [] := by
  have hempty : strlen line = 0 ↔ cString line = [] := List.length_eq_zero_iff
  have hwords : wordsOf line = [] ↔ ∀ c ∈ cString line, isDelim c = true := by
    constructor
    · intro hnil c hc
      by_contra hnot
      have hall : ∀ token ∈ strtok isDelim (cString line), ∀ x ∈ token, False := by
        intro token htoken
        rw [wordsOf] at hnil
        rw [hnil] at htoken
        cases htoken
      exact forall_mem_strtok_iff.mp hall c hc (Bool.eq_false_iff.mpr hnot)
    · intro hall
      have hstep : ∀ text : Text, (∀ c ∈ text, isDelim c = true) → strtok isDelim text = [] := by
        intro text
        induction text with
        | nil => exact fun _ => rfl
        | cons c text ih =>
            intro h
            rw [strtok_cons _ (h c List.mem_cons_self)]
            exact ih fun x hx => h x (List.mem_cons_of_mem _ hx)
      exact hstep _ hall
  rw [Blank, Skipped, not_or, hempty, hwords, and_assoc]

/-- The comparisons fail exactly where something is refused. -/
theorem assign_refused_iff {env : Environment} {line key : Text} {more : List Text} (r : Reading)
    (hskip : ¬ Skipped line) (hwords : wordsOf line = key :: more) :
    (r.assign env key more.head?).2 = false ↔ Refused env line := by
  cases more with
  | nil =>
      refine iff_of_false (fun hfalse => ?_) ?_
      · simp only [Reading.assign, List.head?_nil, setUsername, setPassword, Option.filter_none] at hfalse
        split_ifs at hfalse
      · rintro ⟨-, first, val, rest, hfirst, -⟩
        rw [hwords] at hfirst
        cases hfirst
  | cons val rest =>
      have hval : strlen val ≠ 0 := by
        have hmem : val ∈ wordsOf line := by
          rw [hwords]
          exact List.mem_cons_of_mem _ List.mem_cons_self
        have hclean : ∀ token ∈ strtok isDelim (cString line), ∀ c ∈ token, c ≠ nul :=
          forall_mem_strtok_iff.mpr fun c hc _ heq => nul_not_mem_cString line (heq ▸ hc)
        have hnul : nul ∉ val := fun hin => hclean val hmem nul hin rfl
        rw [strlen, cString_of_not_mem hnul]
        exact fun hzero => ne_nil_of_mem_strtok hmem (List.length_eq_zero_iff.mp hzero)
      have hgiven : (some val).filter (strlen · ≠ 0) = some val :=
        Option.filter_some_pos (decide_eq_true hval)
      have hrefused : Refused env line ↔
          (key = lit "hs_endpoint" ∧ env.malloc (strlen val + 1) = false ∨
            key = lit "hs_username" ∧ env.setUsername val = false ∨
            key = lit "hs_password" ∧ env.setPassword val = false) := by
        rw [Refused, hwords]
        refine ⟨?_, fun h => ⟨hskip, key, val, rest, rfl, h⟩⟩
        rintro ⟨-, _, _, _, heq, h⟩
        cases heq
        exact h
      have hdistinct : lit "hs_username" ≠ lit "hs_endpoint" ∧
          lit "hs_password" ≠ lit "hs_endpoint" ∧ lit "hs_password" ≠ lit "hs_username" := by
        unfold lit
        decide
      rw [hrefused, List.head?_cons, Reading.assign, hgiven]
      simp only [setUsername, setPassword, setBaseUrl, hgiven]
      by_cases hendpoint : key = lit "hs_endpoint"
      · subst hendpoint
        rw [if_pos rfl]
        cases env.malloc (strlen val + 1) <;>
          simp [hdistinct.1.symm, hdistinct.2.1.symm]
      · rw [if_neg hendpoint]
        by_cases hname : key = lit "hs_username"
        · subst hname
          rw [if_pos rfl]
          cases env.setUsername val <;> simp [hdistinct.1, hdistinct.2.2.symm]
        · rw [if_neg hname]
          by_cases hword : key = lit "hs_password"
          · subst hword
            rw [if_pos rfl]
            cases env.setPassword val <;> simp [hdistinct.2.1, hdistinct.2.2]
          · rw [if_neg hword]
            refine iff_of_false (fun hfalse => ?_) (by simp [hendpoint, hname, hword])
            split_ifs at hfalse

/-- The loop has no defined result exactly when it comes to a line without words. -/
theorem readLines_undefined_iff (env : Environment) (r : Reading) (lines : List Text) :
    readLines env r lines = .undefined ↔ ∃ before line after, lines = before ++ line :: after ∧
      Blank line ∧ ∀ earlier ∈ before, ¬ Refused env earlier := by
  induction lines generalizing r with
  | nil =>
      refine iff_of_false (fun h => by cases h) ?_
      rintro ⟨before, line, after, h, -⟩
      exact List.append_ne_nil_of_right_ne_nil _ (List.cons_ne_nil _ _) h.symm
  | cons line rest ih =>
      have hsplit : (∃ before blank after, line :: rest = before ++ blank :: after ∧ Blank blank ∧
          ∀ earlier ∈ before, ¬ Refused env earlier) ↔
          Blank line ∨ ¬ Refused env line ∧ ∃ before blank after, rest = before ++ blank :: after ∧
            Blank blank ∧ ∀ earlier ∈ before, ¬ Refused env earlier := by
        constructor
        · rintro ⟨before, blank, after, heq, hblank, hearlier⟩
          cases before with
          | nil =>
              obtain ⟨rfl, -⟩ := List.cons.inj heq
              exact .inl hblank
          | cons first before =>
              obtain ⟨rfl, hrest⟩ := List.cons.inj heq
              obtain ⟨hfirst, hearlier⟩ := List.forall_mem_cons.mp hearlier
              exact .inr ⟨hfirst, before, blank, after, hrest, hblank, hearlier⟩
        · rintro (hblank | ⟨hfirst, before, blank, after, rfl, hblank, hearlier⟩)
          · exact ⟨[], line, rest, rfl, hblank, fun _ h => absurd h List.not_mem_nil⟩
          · exact ⟨line :: before, blank, after, rfl, hblank,
              List.forall_mem_cons.mpr ⟨hfirst, hearlier⟩⟩
      rw [hsplit, readLines, blank_iff]
      by_cases hskip : Skipped line
      · rw [if_pos hskip, ih]
        exact ⟨fun h => .inr ⟨fun hrefused => hrefused.1 hskip, h⟩,
          fun h => (h.resolve_left fun hblank => hblank.1 hskip).2⟩
      · rw [if_neg hskip]
        cases hwords : wordsOf line with
        | nil => exact iff_of_true rfl (.inl ⟨hskip, rfl⟩)
        | cons key more =>
            have hrefused : (r.assign env key more.head?).2 = false ↔ Refused env line :=
              assign_refused_iff r hskip hwords
            dsimp only
            rcases hassign : r.assign env key more.head? with ⟨next, ok⟩
            rw [hassign] at hrefused
            cases ok with
            | false =>
                refine iff_of_false (fun h => by cases h) ?_
                rintro (⟨-, hnil⟩ | ⟨hnot, -⟩)
                · cases hnil
                · exact hnot (hrefused.mp rfl)
            | true =>
                dsimp only
                rw [ih]
                exact ⟨fun h => .inr ⟨fun hr => Bool.noConfusion (hrefused.mpr hr), h⟩,
                  fun h => (h.resolve_left fun hblank => List.cons_ne_nil _ _ hblank.2).2⟩

/-- A configuration file makes the function go wrong exactly when a line that it reads has
characters, but no words: an empty line is enough. -/
theorem h5RestSetConnectionInformation_undefined_iff (env : Environment) (c : Connection) :
    h5RestSetConnectionInformation env c = .undefined ↔
      c.baseUrl = none ∧ env.hsdsEndpoint = none ∧ ∃ file, configFile env = some file ∧
        ∃ before line after, fgetsAll lineRoom file = before ++ line :: after ∧ Blank line ∧
          ∀ earlier ∈ before, ¬ Refused env earlier := by
  rw [h5RestSetConnectionInformation]
  cases hbase : c.baseUrl with
  | some url => exact iff_of_false (fun h => by cases h) fun h => by cases h.1
  | none =>
      rw [if_neg (by decide)]
      cases hendpoint : env.hsdsEndpoint with
      | some url => exact iff_of_false (fun h => by cases h) fun h => by cases h.2.1
      | none =>
          cases hfile : configFile env with
          | none =>
              refine iff_of_false (fun h => by cases h) ?_
              rintro ⟨-, -, file, hsome, -⟩
              cases hsome
          | some file =>
              have hlines := readLines_undefined_iff env ⟨c, .zero⟩ (fgetsAll lineRoom file)
              have hbind : (readLines env ⟨c, .zero⟩ (fgetsAll lineRoom file)).bind (fun found =>
                  .ok (if found.2 then found.1.finish env else (found.1.connection, false))) =
                  .undefined ↔ readLines env ⟨c, .zero⟩ (fgetsAll lineRoom file) = .undefined := by
                cases readLines env ⟨c, .zero⟩ (fgetsAll lineRoom file) with
                | undefined => exact iff_of_true rfl rfl
                | fail => exact iff_of_false (fun h => by cases h) fun h => by cases h
                | ok found => exact iff_of_false (fun h => by cases h) fun h => by cases h
              refine hbind.trans (hlines.trans ⟨fun h => ⟨rfl, rfl, file, rfl, h⟩, ?_⟩)
              rintro ⟨-, -, other, hsome, h⟩
              exact Option.some.inj hsome ▸ h

/-! ## One call after the other -/

/-- Some calls, each in the environment it finds, and whether they succeed. -/
def run (c : Connection) : List Environment → Outcome (Connection × List Bool)
  | [] => .ok (c, [])
  | env :: rest =>
      (h5RestSetConnectionInformation env c).bind fun (c, ok) =>
        (run c rest).bind fun (c, oks) => .ok (c, ok :: oks)

section Run

variable {env : Environment} {c after : Connection} {ok : Bool}

@[simp]
theorem setUsername_baseUrl (name : Option Text) :
    (setUsername env c name).1.baseUrl = c.baseUrl := by
  rw [setUsername]
  split
  · rfl
  · split <;> rfl

@[simp]
theorem setPassword_baseUrl (word : Option Text) :
    (setPassword env c word).1.baseUrl = c.baseUrl := by
  rw [setPassword]
  split
  · rfl
  · split <;> rfl

/-- With an endpoint in the environment, a success leaves it in `base_URL`. -/
theorem fromEnvironment_isSome {url : Text} (hok : (fromEnvironment env c url).2 = true) :
    (fromEnvironment env c url).1.baseUrl.isSome = true := by
  have hset : (setBaseUrl env c (endpointUrl url)).2 = true →
      (setBaseUrl env c (endpointUrl url)).1.baseUrl.isSome = true := by
    rw [setBaseUrl]
    split
    · exact fun _ => rfl
    · exact fun h => Bool.noConfusion h
  rw [fromEnvironment] at hok ⊢
  rcases hbase : setBaseUrl env c (endpointUrl url) with ⟨named, done⟩
  rw [hbase] at hset
  simp only [hbase] at hok ⊢
  cases done with
  | false => exact Bool.noConfusion hok
  | true =>
      simp only [not_true_eq_false, if_false] at hok ⊢
      split
      · split
        · rw [setUsername_baseUrl]
          exact hset rfl
        · rw [setPassword_baseUrl, setUsername_baseUrl]
          exact hset rfl
      · exact hset rfl

/-- A call that finds an endpoint has nothing to do, and one that succeeds leaves an endpoint. -/
theorem call_eq (hcall : h5RestSetConnectionInformation env c = .ok (after, ok)) :
    (c.baseUrl ≠ none → after = c ∧ ok = true) ∧ (ok = true → after.baseUrl ≠ none) := by
  rw [h5RestSetConnectionInformation] at hcall
  have hsome {x : Connection} : x.baseUrl.isSome = true → x.baseUrl ≠ none := fun h hnone => by
    rw [hnone] at h
    cases h
  cases hbase : c.baseUrl with
  | some url =>
      rw [hbase, if_pos Option.isSome_some] at hcall
      cases hcall
      exact ⟨fun _ => ⟨rfl, rfl⟩, fun _ => hsome (by rw [hbase]; rfl)⟩
  | none =>
      refine ⟨fun hne => absurd rfl hne, fun hok => hsome ?_⟩
      subst hok
      rw [hbase, if_neg (by decide)] at hcall
      cases hendpoint : env.hsdsEndpoint with
      | some url =>
          rw [hendpoint] at hcall
          have hpair : fromEnvironment env c url = (after, true) := Outcome.ok.inj hcall
          have hok : (fromEnvironment env c url).2 = true := by rw [hpair]
          have hset := fromEnvironment_isSome hok
          rwa [hpair] at hset
      | none =>
          rw [hendpoint] at hcall
          cases hfile : configFile env with
          | none =>
              rw [hfile] at hcall
              cases hcall
          | some file =>
              rw [hfile] at hcall
              obtain ⟨⟨r, fine⟩, -, hend⟩ := Outcome.bind_eq_ok_iff.mp hcall
              have hend := Outcome.ok.inj hend
              cases fine with
              | false => cases hend
              | true =>
                  rw [if_pos rfl, Reading.finish] at hend
                  split at hend
                  · cases hend
                  · obtain ⟨rfl, hisSome⟩ := Prod.mk.inj hend
                    exact hisSome

theorem run_cons {env : Environment} {rest : List Environment} {results : List Bool}
    (hrun : run c (env :: rest) = .ok (after, results)) :
    ∃ mid ok oks, h5RestSetConnectionInformation env c = .ok (mid, ok) ∧
      run mid rest = .ok (after, oks) ∧ results = ok :: oks := by
  obtain ⟨⟨mid, ok⟩, hcall, hmore⟩ := Outcome.bind_eq_ok_iff.mp hrun
  obtain ⟨⟨last, oks⟩, hrest, hend⟩ := Outcome.bind_eq_ok_iff.mp hmore
  obtain ⟨rfl, rfl⟩ := Prod.mk.inj (Outcome.ok.inj hend)
  exact ⟨mid, ok, oks, hcall, hrest, rfl⟩

/-- Once there is an endpoint, every call succeeds and changes nothing. -/
theorem run_of_baseUrl {envs : List Environment} {results : List Bool} (hbase : c.baseUrl ≠ none)
    (hrun : run c envs = .ok (after, results)) :
    after = c ∧ results = List.replicate envs.length true := by
  induction envs generalizing c results with
  | nil =>
      obtain ⟨rfl, rfl⟩ := Prod.mk.inj (Outcome.ok.inj hrun)
      exact ⟨rfl, rfl⟩
  | cons env rest ih =>
      obtain ⟨mid, ok, oks, hcall, hrest, rfl⟩ := run_cons hrun
      obtain ⟨rfl, rfl⟩ := (call_eq hcall).1 hbase
      obtain ⟨hsame, rfl⟩ := ih hbase hrest
      exact ⟨hsame, rfl⟩

/-- In every run of calls, all calls fail up to one that finds an endpoint; whether this one succeeds
or fails, what it has set stays and every later call succeeds, in whatever environment. -/
theorem run_results {envs : List Environment} {results : List Bool} (hfirst : c.baseUrl = none)
    (hrun : run c envs = .ok (after, results)) :
    after.baseUrl = none ∧ results = List.replicate envs.length false ∨
      ∃ before env later mid ok, envs = before ++ env :: later ∧ mid.baseUrl = none ∧
        h5RestSetConnectionInformation env mid = .ok (after, ok) ∧ after.baseUrl ≠ none ∧
        results = List.replicate before.length false ++ ok :: List.replicate later.length true := by
  induction envs generalizing c results with
  | nil =>
      obtain ⟨rfl, rfl⟩ := Prod.mk.inj (Outcome.ok.inj hrun)
      exact .inl ⟨hfirst, rfl⟩
  | cons env rest ih =>
      obtain ⟨mid, ok, oks, hcall, hrest, rfl⟩ := run_cons hrun
      by_cases hmid : mid.baseUrl = none
      · have hfalse : ok = false := Bool.eq_false_iff.mpr fun htrue => (call_eq hcall).2 htrue hmid
        subst hfalse
        rcases ih hmid hrest with ⟨hnone, rfl⟩ | ⟨before, found, later, last, done, rfl, hlast,
          hfound, hsome, rfl⟩
        · exact .inl ⟨hnone, rfl⟩
        · exact .inr ⟨env :: before, found, later, last, done, rfl, hlast, hfound, hsome, rfl⟩
      · obtain ⟨rfl, rfl⟩ := run_of_baseUrl hmid hrest
        exact .inr ⟨[], env, rest, c, ok, rfl, hfirst, hcall, hmid, rfl⟩

end Run

/-! ## A user with a file -/

/-- Nothing is set but the home directory, with a file in it; nobody is authenticated. -/
def homeWith (file : Text) : Environment where
  hsdsEndpoint := none
  hsdsUsername := none
  hsdsPassword := none
  hsdsAdClientId := none
  hsdsAdTenantId := none
  hsdsAdResourceId := none
  hsdsAdClientSecret := none
  home := some ['h']
  fopen _ := some file
  malloc _ := true
  setUsername _ := true
  setPassword _ := true
  authenticate _ := false

/-- An endpoint that is given twice. -/
def twoEndpoints : List Entry :=
  [.comment ['!'], .setting [] .endpoint [' ', '='] ['u'] [],
    .setting [' '] .endpoint ['='] ['v'] [' ', 'w']]

theorem willing_homeWith (file : Text) : (homeWith file).Willing :=
  ⟨fun _ => rfl, fun _ => rfl, fun _ => rfl⟩

theorem configFile_homeWith (file : Text) : configFile (homeWith file) = some file := rfl

theorem wellFormed_twoEndpoints : ∀ e ∈ twoEndpoints, e.WellFormed := by
  have hlength : Key.endpoint.text.length = 11 := by
    unfold Key.text lit
    rfl
  have hroom : lineRoom = 1023 := rfl
  simp only [twoEndpoints, List.forall_mem_cons, Entry.WellFormed, Entry.line, Separates,
    List.length_append, List.length_cons, List.length_nil, hlength, hroom, List.not_mem_nil,
    false_implies, implies_true, and_true]
  decide

theorem h5RestSetConnectionInformation_render_twoEndpoints :
    h5RestSetConnectionInformation (homeWith (render twoEndpoints)) ⟨none, none, none⟩ =
      .ok (⟨some ['v'], none, none⟩, true) :=
  h5RestSetConnectionInformation_render (willing_homeWith _) wellFormed_twoEndpoints rfl
    (configFile_homeWith _) rfl

/-- An endpoint whose user cannot be authenticated. -/
def withEndpoint : Environment := { homeWith [] with hsdsEndpoint := some ['u'] }

theorem run_results_withEndpoint :
    run ⟨none, none, none⟩ [withEndpoint, homeWith []] =
        .ok (⟨some ['u'], none, none⟩, [false, true]) ∧
      ∃ before env later mid ok, [withEndpoint, homeWith []] = before ++ env :: later ∧
        mid.baseUrl = none ∧
        h5RestSetConnectionInformation env mid = .ok (⟨some ['u'], none, none⟩, ok) ∧
        [false, true] =
          List.replicate before.length false ++ ok :: List.replicate later.length true := by
  have hprefix : ¬ lit "http+unix" <+: ['u'] := by
    unfold lit
    decide
  have hurl : endpointUrl ['u'] = ['u'] := if_neg hprefix
  have hrun : run ⟨none, none, none⟩ [withEndpoint, homeWith []] =
      .ok (⟨some ['u'], none, none⟩, [false, true]) := by
    have hcall : h5RestSetConnectionInformation withEndpoint ⟨none, none, none⟩ =
        .ok (fromEnvironment withEndpoint ⟨none, none, none⟩ ['u']) := rfl
    have hfound : fromEnvironment withEndpoint ⟨none, none, none⟩ ['u'] =
        (⟨some ['u'], none, none⟩, false) := by
      rw [fromEnvironment, hurl]
      rfl
    rw [run, hcall, hfound]
    rfl
  refine ⟨hrun, ?_⟩
  rcases run_results rfl hrun with ⟨hnone, -⟩ | ⟨before, env, later, mid, ok, h⟩
  · cases hnone
  · exact ⟨before, env, later, mid, ok, h.1, h.2.1, h.2.2.1, h.2.2.2.2⟩

end XHDF5.Client.ConfigFile
