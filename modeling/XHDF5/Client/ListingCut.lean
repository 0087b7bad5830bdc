/-
# Sections cut out of a listing

`RV_build_link_table`, `RV_build_attr_table` and `RV_build_object_table` parse the answer of the
server, and then look for the text of each entry in the answer: the key of the list is searched,
and then one opening brace after the other, with the brace that matches. The character behind an
entry is overwritten with NUL, so that the entry can be parsed on its own.

The key is searched in the whole text, where the parser takes a member of the outermost object. The
texts stay with the parsed entries just when no brace is opened between the first occurrence of the
key and the list. How the parser reads an escaped key is a parameter. The other calls of a turn are
not followed: when one of them fails, the loop makes fewer turns.
-/

import XHDF5.Client.SectionScan

namespace XHDF5.Client.ListingCut

open XHDF5.Math SectionScan

/-! ## The code -/

/-- `strstr` in a buffer: where the needle stands. When there is none, the callers fail. -/
def strstrIn (b : Buffer Char) (ptr : Nat) (needle : Text) : Outcome Nat :=
  (b.stringFrom ptr).bind fun text =>
    match strstr needle text with
    | none => .fail
    | some found => .ok (ptr + (text.length - found.length))

/-- The section of an entry, as it is handed to the callback. -/
structure Section where
  start : Nat
  text : Text
deriving DecidableEq

/-- The loop over the entries, as many turns as it makes. -/
def cutLoop : Nat → Nat → Buffer Char → Outcome (List Section)
  | 0, _, _ => .ok []
  | turns + 1, sectionStart, b =>
      (strstrIn b sectionStart ['{']).bind fun sectionStart =>
        (findJsonSectionEndIn b sectionStart).bind fun sectionEnd =>
          (b.store sectionEnd [nul]).bind fun b =>
            (b.stringFrom sectionStart).bind fun text =>
              (cutLoop turns (sectionEnd + 1) b).bind fun sections =>
                .ok (⟨sectionStart, text⟩ :: sections)

/-- A list with no entries needs no sections. -/
def cutSections (key : Text) (numEntries turns : Nat) (b : Buffer Char) : Outcome (List Section) :=
  if numEntries = 0 then .ok []
  else (strstrIn b 0 (quoted key)).bind fun sectionStart => cutLoop turns sectionStart b

/-- `visit_buffer`: a copy of the answer, since the requests for subgroups change the original. -/
def visitBuffer (b : Buffer Char) : Outcome (Buffer Char) :=
  (b.stringFrom 0).bind fun text =>
    .ok ⟨Memory.write (fun _ => nul) 0 (text ++ [nul]), text.length + 1⟩

/-- `HTTP_buffer`. -/
def httpBuffer (isRecursive : Bool) (b : Buffer Char) : Outcome (Buffer Char) :=
  if isRecursive = true then visitBuffer b else .ok b

/-- The sections of `RV_build_link_table`. -/
def rvBuildLinkTable (isRecursive : Bool) (numLinks turns : Nat) (b : Buffer Char) :
    Outcome (List Section) :=
  (httpBuffer isRecursive b).bind fun b => cutSections (lit "links") numLinks turns b

/-- The sections of `RV_build_attr_table`. -/
def rvBuildAttrTable (numAttributes turns : Nat) (b : Buffer Char) : Outcome (List Section) :=
  cutSections (lit "attributes") numAttributes turns b

/-- The sections of `RV_build_object_table`. -/
def rvBuildObjectTable (isRecursive : Bool) (numLinks turns : Nat) (b : Buffer Char) :
    Outcome (List Section) :=
  (httpBuffer isRecursive b).bind fun b => cutSections (lit "links") numLinks turns b

/-- The three functions. -/
inductive Table
  | link (isRecursive : Bool)
  | attr
  | object (isRecursive : Bool)

/-- The key of the list. -/
def Table.key : Table → Text
  | .link _ => lit "links"
  | .attr => lit "attributes"
  | .object _ => lit "links"

@[inherit_doc Table]
def Table.build : Table → Nat → Nat → Buffer Char → Outcome (List Section)
  | .link isRecursive => rvBuildLinkTable isRecursive
  | .attr => rvBuildAttrTable
  | .object isRecursive => rvBuildObjectTable isRecursive

/-! ## Listings -/

/-- The members in front of the list, each with the comma behind it. None of them has the key. -/
inductive Leading (unescape : Text → Text) (key : Text) : Text → Prop
  | nil : Leading unescape key []
  | cons {before name colon gap x after members : Text} (hbefore : JsonBlank before)
      (hname : JsonString name) (hkey : unescape name ≠ key) (hcolon : JsonBlank colon)
      (hgap : JsonBlank gap) (hx : JsonValue x) (hafter : JsonBlank after)
      (hmembers : Leading unescape key members) :
      Leading unescape key
        (before ++ (quoted name ++ (colon ++ ':' :: (gap ++ (x ++ (after ++ ',' :: members))))))

/-- Objects, each with what stands behind it: a comma between blanks or, at the end, blanks. -/
def Entries : List (Text × Text) → Prop
  | [] => True
  | [(entry, gap)] => JsonValue entry ∧ entry.head? = some '{' ∧ JsonBlank gap
  | (entry, gap) :: entries => JsonValue entry ∧ entry.head? = some '{' ∧
      (∃ after before, gap = after ++ ',' :: before ∧ JsonBlank after ∧ JsonBlank before) ∧
        Entries entries

/-- The text of entries. -/
def entriesText (entries : List (Text × Text)) : Text := entries.flatMap fun e => e.1 ++ e.2

/-- An answer of the server: the JSON text of an object, where the first member with the key is a
list of objects. -/
structure Listing (unescape : Text → Text) (key : Text) where
  start : Text
  leading : Text
  before : Text
  name : Text
  colon : Text
  value : Text
  gap : Text
  entries : List (Text × Text)
  rest : Text
  blanks : JsonBlank start ∧ JsonBlank before ∧ JsonBlank colon ∧ JsonBlank value ∧ JsonBlank gap
  leads : Leading unescape key leading
  string : JsonString name
  named : unescape name = key
  objects : Entries entries

namespace Listing

variable {unescape : Text → Text} {key : Text} (l : Listing unescape key)

/-- The text in front of the entries. -/
def front : Text :=
  l.start ++ '{' :: (l.leading ++ (l.before ++ (quoted l.name ++ (l.colon ++ ':' ::
    (l.value ++ '[' :: l.gap)))))

/-- The whole text. -/
def text : Text := l.front ++ (entriesText l.entries ++ ']' :: l.rest)

/-- The text is JSON, and a string of C. -/
def Valid : Prop := JsonText l.text ∧ nul ∉ l.text

end Listing

/-- Where the entries stand, with their texts. -/
def places : Nat → List (Text × Text) → List Section
  | _, [] => []
  | start, (entry, gap) :: entries =>
      ⟨start, entry⟩ :: places (start + entry.length + gap.length) entries

/-- The sections are the entries of the parsed list: the first ones for as many turns as the loop
makes. -/
def Aligned {unescape : Text → Text} (table : Table) (l : Listing unescape table.key) : Prop :=
  ∀ b : Buffer Char, b.Reads 0 l.text → ∀ turns ≤ l.entries.length,
    table.build l.entries.length turns b = .ok ((places l.front.length l.entries).take turns)

/-! ## One turn -/

section Turn

variable {b : Buffer Char} {ptr : Nat} {gap mid entry more rest : Text} {c : Char}

theorem strstrIn_of_reads {text found needle : Text} (h : b.Reads ptr text)
    (hfound : strstr needle text = some found) :
    strstrIn b ptr needle = .ok (ptr + (text.length - found.length)) := by
  rw [strstrIn, h.stringFrom, Outcome.ok_bind, hfound]

theorem exists_of_strstrIn {text needle : Text} {place : Nat} (h : b.Reads ptr text)
    (hplace : strstrIn b ptr needle = .ok place) : ∃ found, strstr needle text = some found ∧
      place = ptr + (text.length - found.length) ∧ b.Reads place found := by
  rw [strstrIn, h.stringFrom, Outcome.ok_bind] at hplace
  cases hfound : strstr needle text with
  | none => rw [hfound] at hplace; cases hplace
  | some found =>
      rw [hfound] at hplace
      obtain rfl := Outcome.ok.inj hplace
      obtain ⟨pre, rfl⟩ := (strstr_eq_some hfound).2
      refine ⟨found, rfl, rfl, ?_⟩
      rw [List.length_append, Nat.add_sub_cancel]
      exact h.drop

/-- The first brace behind a text without braces. -/
theorem strstr_brace (hgap : '{' ∉ gap) :
    strstr ['{'] (gap ++ '{' :: more) = some ('{' :: more) := by
  rw [strstr_append hgap]
  exact @strstr_self ['{'] more (by decide)

theorem exists_brace {text : Text} (h : text.head? = some '{') : ∃ tail, text = '{' :: tail := by
  cases text with
  | nil => cases h
  | cons d tail => exact ⟨tail, congrArg (· :: tail) (Option.some.inj h)⟩

theorem strstrIn_brace (h : b.Reads ptr (gap ++ (entry ++ more))) (hgap : '{' ∉ gap)
    (hbrace : entry.head? = some '{') : strstrIn b ptr ['{'] = .ok (ptr + gap.length) := by
  obtain ⟨tail, rfl⟩ := exists_brace hbrace
  rw [List.cons_append] at h
  rw [strstrIn_of_reads h (strstr_brace hgap)]
  congr 2
  simp only [List.length_append, List.length_cons]
  omega

/-- The scan from the brace of an object passes the object. -/
theorem findJsonSectionEndIn_object (h : b.Reads ptr (entry ++ more)) (hentry : JsonValue entry)
    (hbrace : entry.head? = some '{') :
    findJsonSectionEndIn b ptr = .ok (ptr + entry.length) := by
  have hclose := hentry.closesAt hbrace more
  obtain ⟨tail, rfl⟩ := exists_brace hbrace
  rw [List.cons_append] at h hclose
  rw [findJsonSectionEndIn_eq h, findJsonSectionEnd_iff.mpr hclose, endIn, Outcome.ok_bind]
  congr 2
  simp only [List.length_append, List.length_cons]
  omega

/-- A turn cuts out the next entry and overwrites only the character behind it. -/
theorem cutLoop_succ (turns : Nat) (h : b.Reads ptr (gap ++ (entry ++ c :: more)))
    (hgap : '{' ∉ gap)
    (hentry : JsonValue entry) (hbrace : entry.head? = some '{') :
    ∃ b', b'.Reads (ptr + gap.length + entry.length + 1) more ∧
      cutLoop (turns + 1) ptr b =
        (cutLoop turns (ptr + gap.length + entry.length + 1) b').bind fun sections =>
          .ok (⟨ptr + gap.length, entry⟩ :: sections) := by
  have hsection : b.Reads (ptr + gap.length) (entry ++ c :: more) := h.drop
  have hbehind : b.Reads (ptr + gap.length + entry.length + 1) more :=
    @Buffer.Reads.drop more b _ [c] hsection.drop
  have hinside : b.Within (ptr + gap.length + entry.length) [nul].length :=
    .inr (Nat.le_of_lt (Nat.lt_of_le_of_lt (Nat.le_add_right _ _) hbehind.2.1))
  refine ⟨⟨b.bytes.write (ptr + gap.length + entry.length) [nul], b.size⟩,
    hbehind.write_of_le (Nat.le_refl _), ?_⟩
  rw [cutLoop, strstrIn_brace h hgap hbrace, Outcome.ok_bind,
    findJsonSectionEndIn_object hsection hentry hbrace, Outcome.ok_bind,
    Buffer.store_of_within hinside, Outcome.ok_bind, hsection.cut.stringFrom, Outcome.ok_bind]

end Turn

/-! ## All turns -/

theorem not_mem_blank {gap : Text} (h : JsonBlank gap) : '{' ∉ gap := fun hmem => by
  rcases h _ hmem with h | h | h | h <;> revert h <;> decide

/-- As long as no brace stands before the next entry, every turn cuts out its entry. -/
theorem cutLoop_eq {b : Buffer Char} {ptr : Nat} {gap rest : Text} {entries : List (Text × Text)}
    (hentries : Entries entries) (hgap : '{' ∉ gap)
    (h : b.Reads ptr (gap ++ (entriesText entries ++ ']' :: rest))) {turns : Nat}
    (hturns : turns ≤ entries.length) :
    cutLoop turns ptr b = .ok ((places (ptr + gap.length) entries).take turns) := by
  induction entries generalizing b ptr gap turns with
  | nil =>
      obtain rfl := Nat.le_zero.mp hturns
      rfl
  | cons first entries ih =>
      obtain ⟨entry, behind⟩ := first
      cases turns with
      | zero => rfl
      | succ turns =>
          have htext : entriesText ((entry, behind) :: entries) ++ ']' :: rest =
              entry ++ (behind ++ (entriesText entries ++ ']' :: rest)) := by
            rw [entriesText, List.flatMap_cons, List.append_assoc, List.append_assoc]
            rfl
          rw [htext] at h
          cases entries with
          | nil =>
              obtain ⟨hentry, hbrace, -⟩ := hentries
              obtain rfl : turns = 0 := Nat.le_zero.mp (Nat.le_of_succ_le_succ hturns)
              have hne : behind ++ (entriesText [] ++ ']' :: rest) ≠ [] := by simp
              obtain ⟨c, more, hmore⟩ := List.exists_cons_of_ne_nil hne
              rw [hmore] at h
              obtain ⟨b', -, hturn⟩ := cutLoop_succ 0 h hgap hentry hbrace
              rw [hturn]
              rfl
          | cons next entries =>
              obtain ⟨hentry, hbrace, ⟨after, before, rfl, hafter, hbefore⟩, hentries⟩ := hentries
              -- the character that is overwritten is a blank or the comma
              obtain ⟨c, gap', hbehind, hgap'⟩ : ∃ c gap', after ++ ',' :: before = c :: gap' ∧
                  '{' ∉ gap' := by
                cases after with
                | nil => exact ⟨',', before, rfl, not_mem_blank hbefore⟩
                | cons c after =>
                    refine ⟨c, after ++ ',' :: before, rfl, ?_⟩
                    have hafter := not_mem_blank hafter
                    have hbefore := not_mem_blank hbefore
                    simp_all
              rw [hbehind, List.cons_append] at h
              obtain ⟨b', hreads, hturn⟩ := cutLoop_succ turns h hgap hentry hbrace
              have hplace : ptr + gap.length + entry.length + 1 + gap'.length =
                  ptr + gap.length + entry.length + (c :: gap').length := by
                rw [List.length_cons]
                omega
              rw [hturn, ih hentries hgap' hreads (Nat.le_of_succ_le_succ hturns), Outcome.ok_bind,
                hbehind, hplace]
              rfl

/-! ## The copy -/

/-- A string in a buffer of its own. -/
theorem reads_write {text : Text} (h : nul ∉ text) :
    Buffer.Reads ⟨Memory.write (fun _ => nul) 0 (text ++ [nul]), text.length + 1⟩ 0 text := by
  refine ⟨h, ?_, ?_⟩
  · exact Nat.lt_of_le_of_lt (Nat.le_of_eq (Nat.zero_add _)) (Nat.lt_succ_self _)
  · have hself := @Memory.read_write_self Char (fun _ => nul) 0 (text ++ [nul])
    rwa [List.length_append] at hself

theorem visitBuffer_of_reads {b : Buffer Char} {text : Text} (h : b.Reads 0 text) :
    ∃ b', visitBuffer b = .ok b' ∧ b'.Reads 0 text := by
  refine ⟨_, ?_, reads_write h.1⟩
  rw [visitBuffer, h.stringFrom, Outcome.ok_bind]

/-- The copy is cut like the original. -/
theorem httpBuffer_of_reads (isRecursive : Bool) {b : Buffer Char} {text : Text}
    (h : b.Reads 0 text) : ∃ b', httpBuffer isRecursive b = .ok b' ∧ b'.Reads 0 text := by
  cases isRecursive with
  | false => exact ⟨b, rfl, h⟩
  | true => exact visitBuffer_of_reads h

/-- All three functions cut a buffer with the same string. -/
theorem build_of_reads (table : Table) (numEntries turns : Nat) {b : Buffer Char} {text : Text}
    (h : b.Reads 0 text) : ∃ b', b'.Reads 0 text ∧
      table.build numEntries turns b = cutSections table.key numEntries turns b' := by
  cases table with
  | attr => exact ⟨b, h, rfl⟩
  | link isRecursive =>
      obtain ⟨b', hb', hreads⟩ := httpBuffer_of_reads isRecursive h
      refine ⟨b', hreads, ?_⟩
      rw [Table.build, rvBuildLinkTable, hb', Outcome.ok_bind]
      rfl
  | object isRecursive =>
      obtain ⟨b', hb', hreads⟩ := httpBuffer_of_reads isRecursive h
      refine ⟨b', hreads, ?_⟩
      rw [Table.build, rvBuildObjectTable, hb', Outcome.ok_bind]
      rfl

/-! ## The first entry -/

namespace Listing

variable {unescape : Text → Text} {key : Text} (l : Listing unescape key)

/-- The key stands in front of the list, and no brace is opened between its first occurrence and the
entries. -/
def Found : Prop := ∃ mid, strstr (quoted key) l.front = some mid ∧ '{' ∉ mid

end Listing

theorem Entries.exists_first {entry gap : Text} {entries : List (Text × Text)}
    (h : Entries ((entry, gap) :: entries)) : ∃ tail, entry = '{' :: tail := by
  cases entries with
  | nil => exact exists_brace h.2.1
  | cons next entries => exact exists_brace h.2.1

/-- A search for a brace in front of another one does not come to the second one. -/
theorem lt_of_brace {mid more found : Text} (hmid : '{' ∈ mid)
    (h : strstr ['{'] (mid ++ more) = some found) : more.length < found.length := by
  obtain ⟨pre, tail, rfl, hpre⟩ := List.eq_append_cons_of_mem hmid
  rw [List.append_assoc, List.cons_append, strstr_brace hpre] at h
  obtain rfl := Option.some.inj h
  rw [List.length_cons, List.length_append]
  omega

theorem brace_not_mem_key (table : Table) : '{' ∉ quoted table.key := by
  have hlinks : '{' ∉ quoted (lit "links") := by unfold lit; decide
  cases table with
  | link | object => exact hlinks
  | attr => unfold Table.key lit; decide

theorem Entries.text_cons (entry gap : Text) (entries : List (Text × Text)) (rest : Text) :
    entriesText ((entry, gap) :: entries) ++ rest =
      entry ++ (gap ++ (entriesText entries ++ rest)) := by
  rw [entriesText, List.flatMap_cons, List.append_assoc, List.append_assoc]
  rfl

/-- Where the key is found in front of the list, all entries are cut out. -/
theorem aligned_of_found {unescape : Text → Text} {table : Table}
    {l : Listing unescape table.key} (h : l.entries = [] ∨ l.Found) : Aligned table l := by
  intro b hb turns hturns
  obtain ⟨b, hreads, hbuild⟩ := build_of_reads table l.entries.length turns hb
  rw [hbuild, cutSections]
  by_cases hnone : l.entries = []
  · rw [hnone, List.length_nil, if_pos rfl, places, List.take_nil]
  · obtain ⟨mid, hmid, hbrace⟩ := h.resolve_left hnone
    have hfound : strstr (quoted table.key) l.text =
        some (mid ++ (entriesText l.entries ++ ']' :: l.rest)) := strstr_append_right hmid
    obtain ⟨pre, hpre⟩ := (strstr_eq_some hmid).2
    have hsplit : l.text = pre ++ (mid ++ (entriesText l.entries ++ ']' :: l.rest)) := by
      rw [← List.append_assoc, hpre]
      rfl
    have hplace : 0 + (l.text.length - (mid ++ (entriesText l.entries ++ ']' :: l.rest)).length) =
        0 + pre.length := by
      rw [hsplit, List.length_append, Nat.add_sub_cancel]
    rw [if_neg (mt List.eq_nil_of_length_eq_zero hnone), strstrIn_of_reads hreads hfound,
      Outcome.ok_bind, hplace]
    rw [hsplit] at hreads
    rw [cutLoop_eq l.objects hbrace hreads.drop hturns, ← hpre, List.length_append, Nat.zero_add]

/-- The first section begins at the first brace behind the key. -/
theorem start_of_cutLoop {b : Buffer Char} {ptr turns : Nat} {first : Section}
    {sections : List Section} (h : cutLoop (turns + 1) ptr b = .ok (first :: sections)) :
    strstrIn b ptr ['{'] = .ok first.start := by
  rw [cutLoop] at h
  obtain ⟨start, hstart, h⟩ := Outcome.bind_eq_ok_iff.mp h
  obtain ⟨_, -, h⟩ := Outcome.bind_eq_ok_iff.mp h
  obtain ⟨_, -, h⟩ := Outcome.bind_eq_ok_iff.mp h
  obtain ⟨text, -, h⟩ := Outcome.bind_eq_ok_iff.mp h
  obtain ⟨_, -, h⟩ := Outcome.bind_eq_ok_iff.mp h
  obtain ⟨rfl, -⟩ := List.cons.inj (Outcome.ok.inj h)
  exact hstart

/-- The first section is the first entry only where the key is found in front of the list. -/
theorem found_of_aligned {unescape : Text → Text} {table : Table}
    {l : Listing unescape table.key} (hvalid : l.Valid) (h : Aligned table l) :
    l.entries = [] ∨ l.Found := by
  cases hentries : l.entries with
  | nil => exact .inl rfl
  | cons first entries =>
      refine .inr ?_
      obtain ⟨entry, gap⟩ := first
      obtain ⟨tail, rfl⟩ := (hentries ▸ l.objects : Entries _).exists_first
      have hb := reads_write hvalid.2
      have hcut := h _ hb 1 (by rw [hentries]; exact Nat.le_add_left _ _)
      obtain ⟨b, hreads, hbuild⟩ := build_of_reads table l.entries.length 1 hb
      have hsome : l.entries.length ≠ 0 := by
        rw [hentries]
        exact Nat.succ_ne_zero _
      rw [hbuild, cutSections, if_neg hsome, hentries] at hcut
      obtain ⟨keyPlace, hkey, hcut⟩ := Outcome.bind_eq_ok_iff.mp hcut
      have hfirst := start_of_cutLoop hcut
      obtain ⟨found, hfound, hkeyPlace, hbehind⟩ := exists_of_strstrIn hreads hkey
      obtain ⟨brace, hbrace, hplace, -⟩ := exists_of_strstrIn hbehind hfirst
      have hfoundLength := (strstr_eq_some hfound).2.length_le
      have hbraceLength := (strstr_eq_some hbrace).2.length_le
      -- the text from the first entry on
      obtain ⟨more, htext⟩ : ∃ more, l.text = l.front ++ '{' :: more := by
        refine ⟨tail ++ (gap ++ (entriesText entries ++ ']' :: l.rest)), ?_⟩
        rw [Listing.text, hentries, Entries.text_cons]
        rfl
      have hlength : l.text.length = l.front.length + ('{' :: more).length := by
        rw [htext, List.length_append]
      dsimp only at hplace
      rw [htext] at hfound
      cases hmid : strstr (quoted table.key) l.front with
      | none =>
          rw [strstr_append_of_none (brace_not_mem_key table) hmid] at hfound
          obtain ⟨⟨behind, hprefixed⟩, hsuffix⟩ := strstr_eq_some hfound
          rcases List.suffix_cons_iff.mp hsuffix with heq | hsuffix
          · rw [← hprefixed] at heq
            exact absurd (List.cons.inj heq).1 (by decide)
          · have hshort := hsuffix.length_le
            rw [List.length_cons] at hlength
            omega
      | some mid =>
          rw [strstr_append_right hmid] at hfound
          obtain rfl := Option.some.inj hfound
          refine ⟨mid, hmid, fun hmem => ?_⟩
          have hearly := lt_of_brace hmem hbrace
          omega

/-- The texts stay with the entries of the parsed list just when there are no entries, or the key in
quotes stands in front of the list with no brace between its first occurrence and the entries. -/
theorem aligned_iff {unescape : Text → Text} {table : Table} {l : Listing unescape table.key}
    (hvalid : l.Valid) : Aligned table l ↔ l.entries = [] ∨ l.Found :=
  ⟨found_of_aligned hvalid, aligned_of_found⟩

/-- The key as a list of characters. -/
theorem links_eq : lit "links" = ['l', 'i', 'n', 'k', 's'] := by
  unfold lit
  rfl

theorem strstr_link (text : Text) :
    strstr (quoted (Table.link false).key) text =
      strstr (quoted ['l', 'i', 'n', 'k', 's']) text :=
  congrArg (fun key => strstr (quoted key) text) links_eq

/-- `{"links":[{}]}`, and the same with other members in front. -/
def smallListing (leading : Text) (h : Leading id (lit "links") leading) :
    Listing id (Table.link false).key where
  start := []
  leading := leading
  before := []
  name := ['l', 'i', 'n', 'k', 's']
  colon := []
  value := []
  gap := []
  entries := [(['{', '}'], [])]
  rest := ['}']
  blanks := ⟨jsonBlank_nil, jsonBlank_nil, jsonBlank_nil, jsonBlank_nil, jsonBlank_nil⟩
  leads := h
  string := jsonString_of_plain (by decide)
  named := links_eq.symm
  objects := ⟨.emptyObject jsonBlank_nil, rfl, jsonBlank_nil⟩

/-- The value of the member `links`. -/
def smallLinks : Text × Json := (['l', 'i', 'n', 'k', 's'], .array [] [.object [] [] []])

theorem aligned_smallListing : Aligned (.link false) (smallListing [] .nil) := by
  have hvalid : (smallListing [] .nil).Valid := by
    refine ⟨@Json.Plain.jsonText (.object [] [] [smallLinks]) ?_, by decide⟩
    simp only [Json.Plain, Json.PlainItems, Json.PlainMembers, smallLinks]
    decide
  refine (aligned_iff hvalid).mpr
    (.inr ⟨quoted ['l', 'i', 'n', 'k', 's'] ++ [':', '['], ?_, by decide⟩)
  exact (strstr_link _).trans (by decide)

/-- The member in front in `{"a":{"links":{"b":1}},"links":[{}]}`. -/
def nestedKey : Text × Json :=
  (['a'], .object [] [] [(['l', 'i', 'n', 'k', 's'], .object [] [] [(['b'], .number 1)])])

theorem leading_nestedKey :
    Leading id (lit "links") (quoted ['a'] ++ ':' :: (nestedKey.2.render ++ [','])) :=
  @Leading.cons id (lit "links") [] ['a'] [] [] nestedKey.2.render [] [] jsonBlank_nil
    (jsonString_of_plain (by decide)) (by rw [links_eq]; decide) jsonBlank_nil jsonBlank_nil
    (Json.Plain.jsonValue _ (by
      simp only [Json.Plain, Json.PlainMembers, nestedKey]
      decide)) jsonBlank_nil .nil

/-- The key of a nested member is taken for the list's. -/
theorem not_aligned_nestedKey : ¬ Aligned (.link false) (smallListing _ leading_nestedKey) := by
  have hvalid : (smallListing _ leading_nestedKey).Valid := by
    refine ⟨@Json.Plain.jsonText (.object [] [] [nestedKey, smallLinks]) ?_, by decide⟩
    simp only [Json.Plain, Json.PlainItems, Json.PlainMembers, nestedKey, smallLinks]
    decide
  intro h
  rcases found_of_aligned hvalid h with hnone | ⟨mid, hmid, hbrace⟩
  · cases hnone
  · rw [strstr_link] at hmid
    have hfound : (strstr (quoted ['l', 'i', 'n', 'k', 's'])
        (smallListing _ leading_nestedKey).front).any ('{' ∈ ·) = true := by decide
    rw [hmid] at hfound
    exact hbrace (of_decide_eq_true hfound)

end XHDF5.Client.ListingCut
