/-
# The end of a section

`FIND_JSON_SECTION_END` reads a text in memory from an opening brace on, until its count of open
braces is zero. It stops at the brace that matches, for every text; when there is none it stops with
an error at the terminator.
-/

import XHDF5.Client.Datatype
import XHDF5.Math.Braces
import XHDF5.Math.CString

namespace XHDF5.Client.SectionScan

open XHDF5.Math

/-! ## The code -/

/-- A character of a buffer. -/
def charIn (b : Buffer Char) (ptr : Nat) : Outcome Char :=
  if ptr < b.size then .ok (b.bytes ptr) else .undefined

/-- The loop of `FIND_JSON_SECTION_END`, with a bound on its rounds. -/
def scanLoop (b : Buffer Char) : Nat → Bool → Nat → Nat → Outcome Nat
  | _, _, 0, advancementPtr => .ok advancementPtr
  | 0, _, _ + 1, _ => .undefined
  | fuel + 1, suspendProcessing, depth + 1, advancementPtr =>
      (charIn b advancementPtr).bind fun currentSymbol =>
        if currentSymbol = nul then .fail
        else if currentSymbol = '\\' then
          (charIn b (advancementPtr + 1)).bind fun next =>
            if next = '\\' ∨ next = '"' then
              scanLoop b fuel suspendProcessing (depth + 1) (advancementPtr + 2)
            else scanLoop b fuel suspendProcessing (depth + 1) (advancementPtr + 1)
        else if currentSymbol = '"' then
          scanLoop b fuel (!suspendProcessing) (depth + 1) (advancementPtr + 1)
        else if currentSymbol = '{' ∧ suspendProcessing = false then
          scanLoop b fuel suspendProcessing (depth + 2) (advancementPtr + 1)
        else if currentSymbol = '}' ∧ suspendProcessing = false then
          scanLoop b fuel suspendProcessing depth (advancementPtr + 1)
        else scanLoop b fuel suspendProcessing (depth + 1) (advancementPtr + 1)

/-- `FIND_JSON_SECTION_END`: `end_ptr`. -/
def findJsonSectionEndIn (b : Buffer Char) (startPtr : Nat) : Outcome Nat :=
  scanLoop b b.size false 1 (startPtr + 1)

/-! ## The text in memory -/

/-- A string that fills its buffer. -/
def Holds (b : Buffer Char) (text : Text) : Prop :=
  nul ∉ text ∧ b.size = text.length + 1 ∧ b.StartsWith (text ++ [nul])

theorem Holds.reads {b : Buffer Char} {text : Text} (h : Holds b text) : b.Reads 0 text := by
  obtain ⟨hnul, hsize, hstart⟩ := h
  refine ⟨hnul, by omega, ?_⟩
  rwa [Buffer.StartsWith, List.length_append] at hstart

theorem charIn_of_reads {b : Buffer Char} {ptr : Nat} {text : Text} (h : b.Reads ptr text) :
    charIn b ptr = .ok (text.headD nul) := by
  rw [charIn, if_pos (Nat.lt_of_le_of_lt (Nat.le_add_right _ _) h.2.1), h.head]

/-- What the search for the end of the text finds, as a position. -/
def endIn (text : Text) : Option Text → Outcome Nat
  | some rest => .ok (text.length - rest.length)
  | none => .fail

/-- The same place, counted from one character before. -/
theorem endIn_cons {text : Text} {found : Option Text} (ptr : Nat) (c : Char)
    (h : ∀ {rest}, found = some rest → rest <:+ text) :
    ((endIn text found).bind fun passed => .ok (ptr + 1 + passed)) =
      (endIn (c :: text) found).bind fun passed => .ok (ptr + passed) := by
  cases found with
  | none => rfl
  | some rest =>
      have hlength := (h rfl).length_le
      rw [endIn, endIn, Outcome.ok_bind, Outcome.ok_bind, List.length_cons]
      congr 1
      omega

/-- A backslash in front of no other one and of no quote is a character like any other. -/
theorem sectionEnd_backslash {suspended : Bool} {depth : Nat} {rest : Text}
    (hnext : ∀ c ∈ rest.head?, c ≠ '\\' ∧ c ≠ '"') :
    sectionEnd suspended true (depth + 1) rest = sectionEnd suspended false (depth + 1) rest := by
  cases rest with
  | nil => rfl
  | cons c rest =>
      obtain ⟨hbackslash, hquote⟩ := hnext c rfl
      rw [sectionEnd, sectionEnd]
      simp [hbackslash, hquote]

/-- The loop in memory is the scan of the string there. -/
theorem scanLoop_eq {b : Buffer Char} {ptr : Nat} {text : Text} (h : b.Reads ptr text) (fuel : Nat)
    (suspended : Bool) (depth : Nat) (hfuel : text.length < fuel) :
    scanLoop b fuel suspended depth ptr =
      (endIn text (sectionEnd suspended false depth text)).bind fun passed => .ok (ptr + passed) :=
        by
  induction fuel generalizing suspended depth ptr text with
  | zero => omega
  | succ fuel ih =>
      cases depth with
      | zero => rw [scanLoop, sectionEnd, endIn, Nat.sub_self, Outcome.ok_bind, Nat.add_zero]
      | succ depth =>
          rw [scanLoop, charIn_of_reads h, Outcome.ok_bind]
          cases text with
          | nil => rfl
          | cons c text =>
              have hc : c ≠ nul := fun hc => h.1 (by simp [hc])
              have hrest : b.Reads (ptr + 1) text := @Buffer.Reads.drop text b ptr [c] h
              have hnext (suspended : Bool) (depth : Nat) :
                  scanLoop b fuel suspended depth (ptr + 1) =
                    (endIn (c :: text) (sectionEnd suspended false depth text)).bind
                      fun passed => .ok (ptr + passed) := by
                rw [ih hrest suspended depth (Nat.lt_of_succ_lt_succ hfuel)]
                exact endIn_cons ptr c sectionEnd_suffix
              rw [List.headD_cons, if_neg hc, sectionEnd]
              simp only [Bool.false_eq_true, false_and, if_false, hnext]
              by_cases hbackslash : c = '\\'
              · rw [if_pos hbackslash, if_pos hbackslash, charIn_of_reads hrest, Outcome.ok_bind]
                by_cases hskip : text.headD nul = '\\' ∨ text.headD nul = '"'
                · rw [if_pos hskip]
                  cases text with
                  | nil => exact absurd hskip (by decide)
                  | cons d text =>
                      have hlater : b.Reads (ptr + 2) text := @Buffer.Reads.drop text b ptr [c, d] h
                      rw [ih hlater suspended (depth + 1)
                        (by simp only [List.length_cons] at hfuel; omega), sectionEnd,
                        if_pos ⟨rfl, hskip⟩, ← endIn_cons ptr c fun h =>
                          (sectionEnd_suffix h).trans (List.suffix_cons _ _)]
                      exact endIn_cons (ptr + 1) d sectionEnd_suffix
                · have hplain : ∀ d ∈ text.head?, d ≠ '\\' ∧ d ≠ '"' := by
                    cases text with
                    | nil => exact nofun
                    | cons d text =>
                        rintro _ ⟨rfl⟩
                        exact not_or.mp hskip
                  rw [if_neg hskip, sectionEnd_backslash hplain]
              · simp only [hbackslash, if_false]
                split_ifs <;> rfl

/-- The scan from the place of an opening brace on. -/
theorem findJsonSectionEndIn_eq {b : Buffer Char} {ptr : Nat} {c : Char} {text : Text}
    (h : b.Reads ptr (c :: text)) :
    findJsonSectionEndIn b ptr =
      (endIn (c :: text) (findJsonSectionEnd (c :: text))).bind fun passed => .ok (ptr + passed) :=
        by
  have hrest : b.Reads (ptr + 1) text := @Buffer.Reads.drop text b ptr [c] h
  have hfuel : text.length < b.size := Nat.lt_of_le_of_lt (Nat.le_add_left _ _) hrest.2.1
  rw [findJsonSectionEndIn, scanLoop_eq hrest b.size false 1 hfuel]
  exact endIn_cons ptr c sectionEnd_suffix

/-! ## The brace that matches -/

/-- In a string the character behind a backslash is passed over. -/
theorem sectionEnd_escaped (depth : Nat) (c : Char) (text : Text) :
    sectionEnd true true (depth + 1) (c :: text) = sectionEnd true false (depth + 1) text := by
  rw [sectionEnd]
  by_cases hc : c = '\\' ∨ c = '"'
  · simp [hc]
  · simp [not_or.mp hc]

theorem sectionEnd_stringBody {body : Text} (h : StringBody body) (depth : Nat) (rest : Text) :
    sectionEnd true false (depth + 1) (body ++ '"' :: rest) =
      sectionEnd false false (depth + 1) rest := by
  induction h with
  | nil =>
      rw [List.nil_append, sectionEnd]
      simp
  | @char c body hc _ ih =>
      rw [List.cons_append, sectionEnd]
      simp [hc, ih]
  | @escape c body _ ih =>
      rw [List.cons_append, List.cons_append, sectionEnd]
      simp [sectionEnd_escaped, ih]

/-- Behind a balanced text the brace counts. -/
theorem sectionEnd_balanced {inner : Text} (h : Balanced inner) (depth : Nat) (rest : Text) :
    sectionEnd false false (depth + 1) (inner ++ '}' :: rest) =
      sectionEnd false false depth rest := by
  induction h generalizing depth rest with
  | nil =>
      rw [List.nil_append, sectionEnd]
      simp
  | @char c inner hc _ ih =>
      rw [List.cons_append, sectionEnd]
      simp [hc, ih]
  | @escape c inner hc _ ih =>
      rw [List.cons_append, List.cons_append, sectionEnd]
      simp only [Bool.false_eq_true, false_and, if_false, if_true]
      rw [sectionEnd, if_pos ⟨rfl, hc⟩, ih]
  | @backslash inner hnext _ ih =>
      have hhead : ∀ c ∈ (inner ++ '}' :: rest).head?, c ≠ '\\' ∧ c ≠ '"' := by
        cases inner with
        | nil =>
            rintro c ⟨rfl⟩
            decide
        | cons d inner => exact hnext
      rw [List.cons_append, sectionEnd]
      simp only [Bool.false_eq_true, false_and, if_false, if_true]
      rw [sectionEnd_backslash hhead, ih]
  | @string body inner hbody _ ih =>
      rw [List.cons_append, List.append_assoc, List.cons_append, sectionEnd]
      simp [sectionEnd_stringBody hbody, ih]
  | @braces first inner _ _ ihfirst ihinner =>
      rw [List.cons_append, List.append_assoc, List.cons_append, sectionEnd]
      simp [ihfirst, ihinner]

/-- A scan in a string that comes to an end has passed the end of the string. -/
theorem exists_stringBody {text rest : Text} {escaped : Bool} {depth : Nat}
    (h : sectionEnd true escaped (depth + 1) text = some rest) :
    ∃ body more, text = body ++ '"' :: more ∧
      StringBody (if escaped then '\\' :: body else body) ∧
        sectionEnd false false (depth + 1) more = some rest := by
  induction text generalizing escaped with
  | nil => cases h
  | cons c text ih =>
      cases escaped with
      | true =>
          rw [sectionEnd_escaped] at h
          obtain ⟨body, more, rfl, hbody, hmore⟩ := ih h
          exact ⟨c :: body, more, rfl, .escape hbody, hmore⟩
      | false =>
          rw [sectionEnd] at h
          by_cases hbackslash : c = '\\'
          · subst hbackslash
            obtain ⟨body, more, rfl, hbody, hmore⟩ := @ih true (by simpa using h)
            exact ⟨'\\' :: body, more, rfl, hbody, hmore⟩
          · by_cases hquote : c = '"'
            · subst hquote
              exact ⟨[], text, rfl, .nil, by simpa using h⟩
            · obtain ⟨body, more, rfl, hbody, hmore⟩ :=
                @ih false (by simpa [hbackslash, hquote] using h)
              exact ⟨c :: body, more, rfl, .char ⟨hquote, hbackslash⟩ hbody, hmore⟩

/-- A scan that comes to an end has passed a balanced text and the brace behind it. -/
theorem exists_balanced {text rest : Text} {depth : Nat}
    (h : sectionEnd false false (depth + 1) text = some rest) :
    ∃ inner more, text = inner ++ '}' :: more ∧ Balanced inner ∧
      sectionEnd false false depth more = some rest := by
  induction hlen : text.length using Nat.strongRecOn generalizing text depth with
  | ind len ih =>
      cases text with
      | nil => cases h
      | cons c text =>
          have hless : text.length < len := by rw [← hlen]; exact Nat.lt_succ_self _
          rw [sectionEnd] at h
          by_cases hbackslash : c = '\\'
          · subst hbackslash
            have h : sectionEnd false true (depth + 1) text = some rest := by simpa using h
            by_cases hskip : ∀ d ∈ text.head?, d ≠ '\\' ∧ d ≠ '"'
            · rw [sectionEnd_backslash hskip] at h
              obtain ⟨inner, more, rfl, hinner, hmore⟩ := ih _ hless h rfl
              refine ⟨'\\' :: inner, more, rfl, .backslash ?_ hinner, hmore⟩
              cases inner with
              | nil => exact nofun
              | cons d inner => exact hskip
            · cases text with
              | nil => exact absurd nofun hskip
              | cons d text =>
                  have hd : d = '\\' ∨ d = '"' := by
                    by_contra hplain
                    exact hskip (by rintro _ ⟨rfl⟩; exact not_or.mp hplain)
                  rw [sectionEnd, if_pos ⟨rfl, hd⟩] at h
                  obtain ⟨inner, more, rfl, hinner, hmore⟩ :=
                    ih _ ((Nat.lt_succ_self _).trans hless) h rfl
                  exact ⟨'\\' :: d :: inner, more, rfl, .escape hd hinner, hmore⟩
          · by_cases hquote : c = '"'
            · subst hquote
              obtain ⟨body, tail, rfl, hbody, htail⟩ :=
                @exists_stringBody text rest false depth (by simpa using h)
              have hshort : tail.length < len := by
                simp only [List.length_append, List.length_cons] at hless
                omega
              obtain ⟨inner, more, rfl, hinner, hmore⟩ := ih _ hshort htail rfl
              exact ⟨'"' :: (body ++ '"' :: inner), more, by simp, .string hbody hinner, hmore⟩
            · by_cases hopen : c = '{'
              · subst hopen
                obtain ⟨first, tail, rfl, hfirst, htail⟩ :=
                  @ih _ hless text (depth + 1) (by simpa using h) rfl
                have hshort : tail.length < len := by
                  simp only [List.length_append, List.length_cons] at hless
                  omega
                obtain ⟨inner, more, rfl, hinner, hmore⟩ := ih _ hshort htail rfl
                exact ⟨'{' :: (first ++ '}' :: inner), more, by simp, .braces hfirst hinner, hmore⟩
              · by_cases hclose : c = '}'
                · subst hclose
                  exact ⟨[], text, rfl, .nil, by simpa using h⟩
                · obtain ⟨inner, more, rfl, hinner, hmore⟩ := @ih _ hless text depth
                    (by simpa [hbackslash, hquote, hopen, hclose] using h) rfl
                  exact ⟨c :: inner, more, rfl, .char ⟨hquote, hbackslash, hopen, hclose⟩ hinner,
                    hmore⟩

/-- The scan stops where the brace in front is closed. -/
theorem findJsonSectionEnd_iff {text rest : Text} :
    findJsonSectionEnd ('{' :: text) = some rest ↔ ClosesAt ('{' :: text) rest := by
  rw [findJsonSectionEnd, List.tail_cons]
  constructor
  · intro h
    obtain ⟨inner, more, rfl, hinner, hmore⟩ := exists_balanced h
    obtain rfl : more = rest := Option.some.inj (by rwa [sectionEnd] at hmore)
    exact ⟨inner, hinner, rfl⟩
  · rintro ⟨inner, hinner, htext⟩
    rw [(List.cons.inj htext).2, sectionEnd_balanced hinner, sectionEnd]

/-- In memory that ends with the terminator: the position behind the brace that matches, and an
error when none does. The braces of a JSON object, wherever it stands, are its first and its last
character. -/
theorem findJsonSectionEndIn_spec {b : Buffer Char} {pre text : Text}
    (h : Holds b (pre ++ '{' :: text)) :
    (∀ inner rest, Balanced inner → text = inner ++ '}' :: rest →
        findJsonSectionEndIn b pre.length = .ok (pre.length + 1 + inner.length + 1)) ∧
      ((¬ ∃ rest, ClosesAt ('{' :: text) rest) → findJsonSectionEndIn b pre.length = .fail) ∧
      ∀ object rest, JsonValue object → '{' :: text = object ++ rest →
        findJsonSectionEndIn b pre.length = .ok (pre.length + object.length) := by
  have hscan := findJsonSectionEndIn_eq h.reads.drop
  rw [Nat.zero_add] at hscan
  have hfound {rest : Text} (hrest : ClosesAt ('{' :: text) rest) :
      findJsonSectionEndIn b pre.length =
        .ok (pre.length + (('{' :: text).length - rest.length)) := by
    rw [hscan, findJsonSectionEnd_iff.mpr hrest]
    rfl
  refine ⟨fun inner rest hinner htext => ?_, fun hnone => ?_, fun object rest hobject htext => ?_⟩
  · rw [hfound ⟨inner, hinner, by rw [htext]⟩, htext]
    simp only [List.length_append, List.length_cons]
    congr 1
    omega
  · rw [hscan]
    cases hend : findJsonSectionEnd ('{' :: text) with
    | none => rfl
    | some rest => exact absurd ⟨rest, findJsonSectionEnd_iff.mp hend⟩ hnone
  · have hbrace : object.head? = some '{' := by
      cases object with
      | nil => exact absurd rfl hobject.ne_nil
      | cons c object => rw [List.head?_cons, (List.cons.inj htext).1]
    have hclose := hobject.closesAt hbrace rest
    rw [← htext] at hclose
    rw [hfound hclose, htext]
    simp only [List.length_append]
    congr 1
    omega

/-- The text of an object with an escaped backslash and a brace in the name of its member. -/
def escapedExample : Text :=
  ['[', '{', '"', '\\', '\\', '}', '"', ':', '{', '}', '}', ']']

theorem findJsonSectionEndIn_escaped :
    findJsonSectionEndIn ⟨Memory.write (fun _ => nul) 0 escapedExample, 13⟩ 1 = .ok 11 := by
  have hinner : Balanced ['"', '\\', '\\', '}', '"', ':', '{', '}'] :=
    @Balanced.string ['\\', '\\', '}'] [':', '{', '}'] (.escape (.char (by decide) .nil))
      (.char (by decide) (@Balanced.braces [] [] .nil .nil))
  have hholds : Holds ⟨Memory.write (fun _ => nul) 0 escapedExample, 13⟩
      (['['] ++ '{' :: escapedExample.drop 2) := by
    unfold Holds Buffer.StartsWith
    decide
  exact (findJsonSectionEndIn_spec hholds).1 _ [']'] hinner rfl

end XHDF5.Client.SectionScan
