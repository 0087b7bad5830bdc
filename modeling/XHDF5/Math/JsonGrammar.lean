/-
# The grammar of JSON

Which texts are JSON. The text of a plain document is; a text in which a container ends behind a
comma, or in which not every container ends, is not: a scan that knows only quotes, commas and
brackets tells.
-/

import Mathlib.Tactic.IntervalCases
import XHDF5.Math.Document

namespace XHDF5.Math

/-! ## The grammar -/

/-- White space. -/
def JsonBlank (gap : Text) : Prop := ∀ c ∈ gap, c = ' ' ∨ c = '\t' ∨ c = '\n' ∨ c = '\r'

/-- A hexadecimal digit. -/
def HexDigit (c : Char) : Prop :=
  c.isDigit = true ∨ ('a' ≤ c ∧ c ≤ 'f') ∨ ('A' ≤ c ∧ c ≤ 'F')

/-- What stands between the quotes of a string. -/
inductive JsonString : Text → Prop
  | nil : JsonString []
  | char {c : Char} {text : Text} (hc : Json.PlainChar c) (htext : JsonString text) :
      JsonString (c :: text)
  | escape {c : Char} {text : Text}
      (hc : c ∈ ['"', '\\', '/', 'b', 'f', 'n', 'r', 't']) (htext : JsonString text) :
      JsonString ('\\' :: c :: text)
  | unicode {a b c d : Char} {text : Text} (ha : HexDigit a) (hb : HexDigit b) (hc : HexDigit c)
      (hd : HexDigit d) (htext : JsonString text) :
      JsonString ('\\' :: 'u' :: a :: b :: c :: d :: text)

/-- One digit or more. -/
def Digits (text : Text) : Prop := text ≠ [] ∧ ∀ c ∈ text, c.isDigit = true

/-- A number: a zero in front stands alone, a fraction and an exponent may follow. -/
def JsonNumber (text : Text) : Prop :=
  ∃ sign whole fraction exponent, text = sign ++ (whole ++ (fraction ++ exponent)) ∧
    (sign = [] ∨ sign = ['-']) ∧ Digits whole ∧ (whole.head? = some '0' → whole = ['0']) ∧
      (fraction = [] ∨ ∃ digits, Digits digits ∧ fraction = '.' :: digits) ∧
        (exponent = [] ∨ ∃ e direction digits, (e = 'e' ∨ e = 'E') ∧
          (direction = [] ∨ direction = ['+'] ∨ direction = ['-']) ∧ Digits digits ∧
            exponent = e :: (direction ++ digits))

/-- A value that has no parts and is no string. -/
def JsonWord (text : Text) : Prop :=
  text = lit "true" ∨ text = lit "false" ∨ text = lit "null" ∨ JsonNumber text

mutual

/-- A value without the blanks around it. -/
inductive JsonValue : Text → Prop
  | word {text : Text} (h : JsonWord text) : JsonValue text
  | string {text : Text} (h : JsonString text) : JsonValue (quoted text)
  | emptyArray {gap : Text} (h : JsonBlank gap) : JsonValue ('[' :: (gap ++ [']']))
  | array {items : Text} (h : JsonItems items) : JsonValue ('[' :: (items ++ [']']))
  | emptyObject {gap : Text} (h : JsonBlank gap) : JsonValue ('{' :: (gap ++ ['}']))
  | object {members : Text} (h : JsonMembers members) : JsonValue ('{' :: (members ++ ['}']))

/-- Items with commas between them. -/
inductive JsonItems : Text → Prop
  | one {before x after : Text} (hbefore : JsonBlank before) (hx : JsonValue x)
      (hafter : JsonBlank after) : JsonItems (before ++ (x ++ after))
  | cons {before x after items : Text} (hbefore : JsonBlank before) (hx : JsonValue x)
      (hafter : JsonBlank after) (hitems : JsonItems items) :
      JsonItems (before ++ (x ++ (after ++ ',' :: items)))

/-- Members with commas between them. -/
inductive JsonMembers : Text → Prop
  | one {before key colon gap x after : Text} (hbefore : JsonBlank before) (hkey : JsonString key)
      (hcolon : JsonBlank colon) (hgap : JsonBlank gap) (hx : JsonValue x) (hafter : JsonBlank after) :
      JsonMembers (before ++ (quoted key ++ (colon ++ ':' :: (gap ++ (x ++ after)))))
  | cons {before key colon gap x after members : Text} (hbefore : JsonBlank before)
      (hkey : JsonString key) (hcolon : JsonBlank colon) (hgap : JsonBlank gap) (hx : JsonValue x)
      (hafter : JsonBlank after) (hmembers : JsonMembers members) :
      JsonMembers (before ++ (quoted key ++ (colon ++ ':' :: (gap ++ (x ++ (after ++ ',' :: members))))))

end

/-- A JSON text. -/
def JsonText (text : Text) : Prop :=
  ∃ before x after, text = before ++ (x ++ after) ∧ JsonBlank before ∧ JsonValue x ∧ JsonBlank after

/-! ## Plain documents -/

theorem jsonBlank_of_blank {gap : Text} (h : Json.Blank gap) : JsonBlank gap :=
  fun c hc => .inl (h c hc)

theorem jsonBlank_nil : JsonBlank [] := nofun

theorem jsonString_of_plain {text : Text} (h : Json.PlainText text) : JsonString text := by
  induction text with
  | nil => exact .nil
  | cons c text ih => exact .char (h c (by simp)) (ih fun d hd => h d (by simp [hd]))

/-- No number starts with a zero but zero. -/
theorem head_decimal {value : Nat} (h : 0 < value) : (decimal value).head? ≠ some '0' := by
  induction value using Nat.strongRecOn with
  | ind value ih =>
      by_cases hsmall : value < 10
      · interval_cases value <;> decide
      · have hsplit : decimal value = decimal (value / 10) ++ decimal (value % 10) := by
          unfold decimal
          rw [Nat.toDigits_append_toDigits (by decide) (by omega) (by omega)]
          congr 1
          omega
        obtain ⟨c, tail, hcons⟩ := List.exists_cons_of_ne_nil (decimal_ne_nil (value / 10))
        have hhead := ih (value / 10) (by omega) (by omega)
        rw [hcons] at hhead
        rw [hsplit, hcons]
        exact hhead

theorem digits_decimal (value : Nat) : Digits (decimal value) :=
  ⟨decimal_ne_nil value, fun _ hc => isDigit_of_mem_decimal hc⟩

theorem decimal_eq_zero_of_head {value : Nat} (h : (decimal value).head? = some '0') :
    decimal value = ['0'] := by
  by_cases hzero : value = 0
  · rw [hzero]
    rfl
  · exact absurd h (head_decimal (by omega))

theorem jsonWord_decimal (value : Nat) : JsonWord (decimal value) :=
  .inr (.inr (.inr ⟨[], decimal value, [], [], by simp, .inl rfl, digits_decimal value,
    decimal_eq_zero_of_head, .inl rfl, .inl rfl⟩))

namespace Doc

theorem Fixed.jsonWord {text : Text} (h : Fixed text) : JsonWord text := by
  obtain ⟨sign, whole, fraction, rfl, hsign, hne, hfraction⟩ := h
  exact .inr (.inr (.inr ⟨sign, decimal whole, '.' :: fraction, [], by simp, hsign,
    digits_decimal whole, decimal_eq_zero_of_head, .inr ⟨fraction, ⟨hne, hfraction⟩, rfl⟩, .inl rfl⟩))

theorem PlainWord.jsonWord {text : Text} (h : PlainWord text) : JsonWord text := by
  rcases h with rfl | ⟨value, rfl⟩ | h
  · exact .inr (.inr (.inl rfl))
  · exact jsonWord_decimal value
  · exact h.jsonWord

mutual

/-- The text of a plain document is JSON. -/
theorem Plain.jsonValue : ∀ x : Doc, x.Plain → JsonValue x.render
  | .string text, h => by
      rw [Plain] at h
      exact .string (jsonString_of_plain h)
  | .word text, h => by
      rw [Plain] at h
      exact .word h.jsonWord
  | .array [] close, h => by
      rw [Plain] at h
      exact .emptyArray (jsonBlank_of_blank h.1)
  | .array (item :: items) close, h => by
      rw [Plain] at h
      have hgap : Json.Blank item.1 := by
        have hitems := h.2
        rw [PlainItems] at hitems
        exact hitems.1
      have hitems := PlainItems.jsonItems (item :: items) true item.1 close h.2 hgap h.1 item rfl
      have hrender : (Doc.array (item :: items) close).render =
          '[' :: ((item.1 ++ (item.2.render ++ (renderItems items ++ close))) ++ [']']) := by
        simp only [render, renderItems, List.append_assoc]
      rw [hrender]
      exact .array hitems
  | .object [] close, h => by
      rw [Plain] at h
      exact .emptyObject (jsonBlank_of_blank h.1)
  | .object (m :: members) close, h => by
      rw [Plain] at h
      have hgap : Json.Blank m.1 := by
        have hmembers := h.2
        rw [PlainMembers] at hmembers
        exact hmembers.1
      have hmembers := PlainMembers.jsonMembers (m :: members) true m.1 close h.2 hgap h.1 m rfl
      have hrender : (Doc.object (m :: members) close).render =
          '{' :: ((m.1 ++ (quoted m.2.1 ++ ([] ++ ':' :: (m.2.2.1 ++ (m.2.2.2.render ++
            (renderMembers members ++ close)))))) ++ ['}']) := by
        simp only [render, renderMembers, quoted, List.append_assoc, List.cons_append, List.nil_append]
      rw [hrender]
      exact .object hmembers

/-- The items from one on, whatever blanks stand before it. -/
theorem PlainItems.jsonItems : ∀ (items : List (Text × Doc)) (first : Bool) (lead close : Text),
    PlainItems first items → Json.Blank lead → Json.Blank close →
      ∀ item ∈ items.head?, JsonItems (lead ++ (item.2.render ++ (renderItems items.tail ++ close)))
  | [], _, _, _, _, _, _ => nofun
  | [(gap, x)], first, lead, close, h, hlead, hclose => by
      rintro item ⟨⟩
      rw [PlainItems] at h
      exact .one (jsonBlank_of_blank hlead) (Plain.jsonValue x h.2.1) (jsonBlank_of_blank hclose)
  | (gap, x) :: (next, y) :: items, first, lead, close, h, hlead, hclose => by
      rintro item ⟨⟩
      rw [PlainItems] at h
      have hsep := h.2.2
      rw [PlainItems] at hsep
      obtain ⟨before, after, hnext, hbefore, hafter⟩ := hsep.1
      have hlater := PlainItems.jsonItems ((next, y) :: items) false after close h.2.2 hafter hclose
        (next, y) rfl
      have hrender : renderItems ((next, y) :: items) ++ close =
          before ++ ',' :: (after ++ (y.render ++ (renderItems items ++ close))) := by
        simp only [renderItems, hnext, List.append_assoc, List.cons_append]
      rw [List.tail_cons, hrender]
      exact .cons (jsonBlank_of_blank hlead) (Plain.jsonValue x h.2.1) (jsonBlank_of_blank hbefore)
        hlater

/-- The members from one on, whatever blanks stand before it. -/
theorem PlainMembers.jsonMembers : ∀ (members : List (Text × Text × Text × Doc)) (first : Bool)
    (lead close : Text), PlainMembers first members → Json.Blank lead → Json.Blank close →
      ∀ m ∈ members.head?, JsonMembers (lead ++ (quoted m.2.1 ++ ([] ++ ':' :: (m.2.2.1 ++
        (m.2.2.2.render ++ (renderMembers members.tail ++ close))))))
  | [], _, _, _, _, _, _ => nofun
  | [(gap, key, colon, x)], first, lead, close, h, hlead, hclose => by
      rintro m ⟨⟩
      rw [PlainMembers] at h
      obtain ⟨-, hkey, hcolon, hx, -⟩ := h
      exact .one (jsonBlank_of_blank hlead) (jsonString_of_plain hkey) jsonBlank_nil
        (jsonBlank_of_blank hcolon) (Plain.jsonValue x hx) (jsonBlank_of_blank hclose)
  | (gap, key, colon, x) :: (next, k, c, y) :: members, first, lead, close, h, hlead, hclose => by
      rintro m ⟨⟩
      rw [PlainMembers] at h
      obtain ⟨-, hkey, hcolon, hx, hmembers⟩ := h
      have hsep := hmembers
      rw [PlainMembers] at hsep
      obtain ⟨before, after, hnext, hbefore, hafter⟩ := hsep.1
      have hlater := PlainMembers.jsonMembers ((next, k, c, y) :: members) false after close hmembers
        hafter hclose (next, k, c, y) rfl
      have hrender : renderMembers ((next, k, c, y) :: members) ++ close =
          before ++ ',' :: (after ++ (quoted k ++ ([] ++ ':' :: (c ++ (y.render ++
            (renderMembers members ++ close)))))) := by
        simp only [renderMembers, hnext, quoted, List.append_assoc, List.cons_append, List.nil_append]
      rw [List.tail_cons, hrender]
      exact .cons (jsonBlank_of_blank hlead) (jsonString_of_plain hkey) jsonBlank_nil
        (jsonBlank_of_blank hcolon) (Plain.jsonValue x hx) (jsonBlank_of_blank hbefore) hlater

end

theorem Plain.jsonText {x : Doc} (h : x.Plain) : JsonText x.render :=
  ⟨[], x.render, [], by simp, jsonBlank_nil, Plain.jsonValue x h, jsonBlank_nil⟩

end Doc

/-! ## Plain values -/

namespace Json

theorem jsonWord_decimalInt (value : Int) : JsonWord (decimalInt value) := by
  cases value with
  | ofNat value => exact jsonWord_decimal value
  | negSucc value =>
      exact .inr (.inr (.inr ⟨['-'], decimal (value + 1), [], [], by simp [decimalInt], .inr rfl,
        digits_decimal (value + 1), decimal_eq_zero_of_head, .inl rfl, .inl rfl⟩))

mutual

/-- The text of a plain value is JSON. -/
theorem Plain.jsonValue : ∀ x : Json, x.Plain → JsonValue x.render
  | .string text, h => by
      rw [Plain] at h
      exact .string (jsonString_of_plain h)
  | .number value, _ => .word (jsonWord_decimalInt value)
  | .array comma [], _ => .emptyArray jsonBlank_nil
  | .array comma (x :: items), h => by
      rw [Plain] at h
      exact .array (PlainItems.jsonItems (x :: items) comma [] h.1 blank_nil h.2 (by simp))
  | .object comma colon [], _ => .emptyObject jsonBlank_nil
  | .object comma colon (m :: members), h => by
      rw [Plain] at h
      exact .object (PlainMembers.jsonMembers (m :: members) comma colon [] h.1 h.2.1 blank_nil
        h.2.2 (by simp))

/-- Items, with the gap of a comma before them. -/
theorem PlainItems.jsonItems : ∀ (items : List Json) (comma lead : Text), Blank comma → Blank lead →
    PlainItems items → items ≠ [] →
      JsonItems (lead ++ (',' :: comma).intercalate (renderItems items))
  | [], _, _, _, _, _, hne => absurd rfl hne
  | [x], comma, lead, _, hlead, h, _ => by
      rw [PlainItems] at h
      have hrender : (',' :: comma).intercalate (renderItems [x]) = x.render ++ [] := by
        simp [renderItems, List.intercalate]
      rw [hrender]
      exact .one (jsonBlank_of_blank hlead) (Plain.jsonValue x h.1) jsonBlank_nil
  | x :: y :: items, comma, lead, hcomma, hlead, h, _ => by
      rw [PlainItems] at h
      have hlater := PlainItems.jsonItems (y :: items) comma comma hcomma hcomma h.2 (by simp)
      have hrender : (',' :: comma).intercalate (renderItems (x :: y :: items)) =
          x.render ++ ([] ++ ',' ::
            (comma ++ (',' :: comma).intercalate (renderItems (y :: items)))) := by
        simp [renderItems, List.intercalate]
      rw [hrender]
      exact .cons (jsonBlank_of_blank hlead) (Plain.jsonValue x h.1) jsonBlank_nil hlater

/-- Members, with the gap of a comma before them. -/
theorem PlainMembers.jsonMembers : ∀ (members : List (Text × Json)) (comma colon lead : Text),
    Blank comma → Blank colon → Blank lead → PlainMembers members → members ≠ [] →
      JsonMembers (lead ++ (',' :: comma).intercalate (renderMembers colon members))
  | [], _, _, _, _, _, _, _, hne => absurd rfl hne
  | [(key, x)], comma, colon, lead, _, hcolon, hlead, h, _ => by
      rw [PlainMembers] at h
      have hrender : (',' :: comma).intercalate (renderMembers colon [(key, x)]) =
          quoted key ++ ([] ++ ':' :: (colon ++ (x.render ++ []))) := by
        simp [renderMembers, List.intercalate]
      rw [hrender]
      exact .one (jsonBlank_of_blank hlead) (jsonString_of_plain h.1) jsonBlank_nil
        (jsonBlank_of_blank hcolon) (Plain.jsonValue x h.2.1) jsonBlank_nil
  | (key, x) :: (next, y) :: members, comma, colon, lead, hcomma, hcolon, hlead, h, _ => by
      rw [PlainMembers] at h
      have hlater := PlainMembers.jsonMembers ((next, y) :: members) comma colon comma hcomma hcolon
        hcomma h.2.2 (by simp)
      have hrender : (',' :: comma).intercalate
            (renderMembers colon ((key, x) :: (next, y) :: members)) =
          quoted key ++ ([] ++ ':' :: (colon ++ (x.render ++ ([] ++ ',' ::
            (comma ++ (',' :: comma).intercalate
              (renderMembers colon ((next, y) :: members))))))) := by
        simp [renderMembers, List.intercalate]
      rw [hrender]
      exact .cons (jsonBlank_of_blank hlead) (jsonString_of_plain h.1) jsonBlank_nil
        (jsonBlank_of_blank hcolon) (Plain.jsonValue x h.2.1) jsonBlank_nil hlater

end

theorem Plain.jsonText {x : Json} (h : x.Plain) : JsonText x.render :=
  ⟨[], x.render, [], by simp, jsonBlank_nil, Plain.jsonValue x h, jsonBlank_nil⟩

end Json

/-! ## Texts that are not JSON -/

/-- A white space character. -/
def isBlank (c : Char) : Bool := c == ' ' || c == '\t' || c == '\n' || c == '\r'

/-- What is known of the text so far: whether a string is open and, when it is, whether a backslash
stands before the next character; whether a comma was the last thing; how many containers are open;
and whether none ended behind a comma. -/
structure Scan where
  string : Option Bool
  comma : Bool
  depth : Int
  sound : Bool
deriving DecidableEq

namespace Scan

/-- The scan of a character. -/
def step (s : Scan) (c : Char) : Scan :=
  match s.string with
  | some true => { s with string := some false }
  | some false =>
      if c = '"' then { s with string := none }
      else if c = '\\' then { s with string := some true }
      else s
  | none =>
      if c = '"' then { s with string := some false, comma := false }
      else if isBlank c then s
      else if c = ',' then { s with comma := true }
      else if c = '[' ∨ c = '{' then { s with comma := false, depth := s.depth + 1 }
      else if c = ']' ∨ c = '}' then
        { s with comma := false, depth := s.depth - 1, sound := s.sound && !s.comma }
      else { s with comma := false }

/-- The scan of a text. -/
def run (s : Scan) (text : Text) : Scan := text.foldl step s

theorem run_append (s : Scan) (text more : Text) : s.run (text ++ more) = (s.run text).run more :=
  List.foldl_append

theorem run_cons (s : Scan) (c : Char) (text : Text) : s.run (c :: text) = (s.step c).run text := rfl

@[simp] theorem run_nil (s : Scan) : s.run [] = s := rfl

variable {comma sound : Bool} {depth : Int}

/-- Blanks are passed over. -/
theorem run_blank {gap : Text} (h : JsonBlank gap) (comma sound : Bool) (depth : Int) :
    run ⟨none, comma, depth, sound⟩ gap = ⟨none, comma, depth, sound⟩ := by
  induction gap with
  | nil => rfl
  | cons c gap ih =>
      have hc : step ⟨none, comma, depth, sound⟩ c = ⟨none, comma, depth, sound⟩ := by
        rcases h c (by simp) with rfl | rfl | rfl | rfl <;> rfl
      rw [run_cons, hc, ih fun d hd => h d (by simp [hd])]

theorem step_char {c : Char} (h : c ≠ '"' ∧ c ≠ '\\') :
    step ⟨some false, comma, depth, sound⟩ c = ⟨some false, comma, depth, sound⟩ := by
  rw [step]
  simp only [h.1, h.2, if_false]

theorem ne_of_hexDigit {c : Char} (h : HexDigit c) : c ≠ '"' ∧ c ≠ '\\' := by
  constructor <;> (rintro rfl; revert h; unfold HexDigit; decide)

theorem run_insideString {text : Text} (h : JsonString text) :
    run ⟨some false, comma, depth, sound⟩ text = ⟨some false, comma, depth, sound⟩ := by
  induction h with
  | nil => rfl
  | char hc _ ih => rw [run_cons, step_char ⟨hc.1, hc.2.1⟩, ih]
  | escape _ _ ih =>
      rw [run_cons, run_cons]
      exact ih
  | unicode ha hb hc hd _ ih =>
      rw [run_cons, run_cons, run_cons, run_cons, run_cons, run_cons]
      have hstart : step (step ⟨some false, comma, depth, sound⟩ '\\') 'u' =
          ⟨some false, comma, depth, sound⟩ := rfl
      rw [hstart, step_char (ne_of_hexDigit ha), step_char (ne_of_hexDigit hb),
        step_char (ne_of_hexDigit hc), step_char (ne_of_hexDigit hd), ih]

/-- Behind a string its comma is forgotten. -/
theorem run_quoted {text : Text} (h : JsonString text) :
    run ⟨none, comma, depth, sound⟩ (quoted text) = ⟨none, false, depth, sound⟩ := by
  have hopen : step ⟨none, comma, depth, sound⟩ '"' = ⟨some false, false, depth, sound⟩ := rfl
  rw [quoted, run_cons, run_append, hopen, run_insideString h]
  rfl

/-- A character of a word. -/
def IsWord (c : Char) : Prop :=
  c.isDigit = true ∨ c.isAlpha = true ∨ c = '+' ∨ c = '-' ∨ c = '.'

theorem step_word {c : Char} (h : IsWord c) :
    step ⟨none, comma, depth, sound⟩ c = ⟨none, false, depth, sound⟩ := by
  have hne : c ≠ '"' ∧ isBlank c = false ∧ c ≠ ',' ∧ ¬ (c = '[' ∨ c = '{') ∧ ¬ (c = ']' ∨ c = '}') := by
    unfold isBlank
    simp only [Bool.or_eq_false_iff, beq_eq_false_iff_ne, not_or]
    refine ⟨?_, ⟨⟨⟨?_, ?_⟩, ?_⟩, ?_⟩, ?_, ⟨?_, ?_⟩, ?_, ?_⟩ <;>
      (rintro rfl; revert h; unfold IsWord; decide)
  rw [step]
  simp only [hne.1, hne.2.1, hne.2.2.1, hne.2.2.2.1, hne.2.2.2.2, if_false, Bool.false_eq_true]

theorem run_word {text : Text} (hne : text ≠ []) (h : ∀ c ∈ text, IsWord c) :
    run ⟨none, comma, depth, sound⟩ text = ⟨none, false, depth, sound⟩ := by
  induction text generalizing comma with
  | nil => exact absurd rfl hne
  | cons c text ih =>
      rw [run_cons, step_word (h c (by simp))]
      cases text with
      | nil => rfl
      | cons d text => exact ih (by simp) fun e he => h e (by simp [he])

end Scan

/-- A number consists of digits and a few signs. -/
theorem JsonNumber.chars {text : Text} (h : JsonNumber text) :
    text ≠ [] ∧ ∀ c ∈ text, Scan.IsWord c := by
  obtain ⟨sign, whole, fraction, exponent, rfl, hsign, hwhole, -, hfraction, hexponent⟩ := h
  refine ⟨by simp [hwhole.1], fun c hc => ?_⟩
  have hdigits {digits : Text} (h : Digits digits) (hc : c ∈ digits) : Scan.IsWord c :=
    .inl (h.2 c hc)
  rcases List.mem_append.mp hc with hc | hc
  · rcases hsign with rfl | rfl
    · cases hc
    · exact .inr (.inr (.inr (.inl (List.mem_singleton.mp hc))))
  · rcases List.mem_append.mp hc with hc | hc
    · exact hdigits hwhole hc
    · rcases List.mem_append.mp hc with hc | hc
      · rcases hfraction with rfl | ⟨digits, hd, rfl⟩
        · cases hc
        · rcases List.mem_cons.mp hc with rfl | hc
          · exact .inr (.inr (.inr (.inr rfl)))
          · exact hdigits hd hc
      · rcases hexponent with rfl | ⟨e, direction, digits, he, hdirection, hd, rfl⟩
        · cases hc
        · rcases List.mem_cons.mp hc with rfl | hc
          · rcases he with rfl | rfl <;> exact .inr (.inl (by decide))
          · rcases List.mem_append.mp hc with hc | hc
            · rcases hdirection with rfl | rfl | rfl
              · cases hc
              · exact .inr (.inr (.inl (List.mem_singleton.mp hc)))
              · exact .inr (.inr (.inr (.inl (List.mem_singleton.mp hc))))
            · exact hdigits hd hc

theorem JsonWord.chars {text : Text} (h : JsonWord text) :
    text ≠ [] ∧ ∀ c ∈ text, Scan.IsWord c := by
  rcases h with rfl | rfl | rfl | h
  · unfold lit Scan.IsWord
    decide
  · unfold lit Scan.IsWord
    decide
  · unfold lit Scan.IsWord
    decide
  · exact h.chars

namespace Scan

mutual

/-- A value leaves what was known, and is no comma. -/
theorem run_value : ∀ {text : Text}, JsonValue text → ∀ (comma sound : Bool) (depth : Int),
    run ⟨none, comma, depth, sound⟩ text = ⟨none, false, depth, sound⟩
  | _, .word h, comma, sound, depth => run_word h.chars.1 h.chars.2
  | _, .string h, comma, sound, depth => run_quoted h
  | _, .emptyArray h, comma, sound, depth => by
      have hopen : step ⟨none, comma, depth, sound⟩ '[' = ⟨none, false, depth + 1, sound⟩ := rfl
      rw [run_cons, run_append, hopen, run_blank h]
      simp [run, step, isBlank]
  | _, .array h, comma, sound, depth => by
      have hopen : step ⟨none, comma, depth, sound⟩ '[' = ⟨none, false, depth + 1, sound⟩ := rfl
      rw [run_cons, run_append, hopen, run_items h]
      simp [run, step, isBlank]
  | _, .emptyObject h, comma, sound, depth => by
      have hopen : step ⟨none, comma, depth, sound⟩ '{' = ⟨none, false, depth + 1, sound⟩ := rfl
      rw [run_cons, run_append, hopen, run_blank h]
      simp [run, step, isBlank]
  | _, .object h, comma, sound, depth => by
      have hopen : step ⟨none, comma, depth, sound⟩ '{' = ⟨none, false, depth + 1, sound⟩ := rfl
      rw [run_cons, run_append, hopen, run_members h]
      simp [run, step, isBlank]

/-- Items end in a value. -/
theorem run_items : ∀ {text : Text}, JsonItems text → ∀ (comma sound : Bool) (depth : Int),
    run ⟨none, comma, depth, sound⟩ text = ⟨none, false, depth, sound⟩
  | _, .one hbefore hx hafter, comma, sound, depth => by
      rw [run_append, run_append, run_blank hbefore, run_value hx, run_blank hafter]
  | _, .cons hbefore hx hafter hitems, comma, sound, depth => by
      have hcomma : step ⟨none, false, depth, sound⟩ ',' = ⟨none, true, depth, sound⟩ := rfl
      rw [run_append, run_append, run_append, run_blank hbefore, run_value hx, run_blank hafter,
        run_cons, hcomma, run_items hitems]

/-- Members end in a value. -/
theorem run_members : ∀ {text : Text}, JsonMembers text → ∀ (comma sound : Bool) (depth : Int),
    run ⟨none, comma, depth, sound⟩ text = ⟨none, false, depth, sound⟩
  | _, .one hbefore hkey hcolon hgap hx hafter, comma, sound, depth => by
      have hstep : step ⟨none, false, depth, sound⟩ ':' = ⟨none, false, depth, sound⟩ := rfl
      rw [run_append, run_append, run_append, run_blank hbefore, run_quoted hkey, run_blank hcolon,
        run_cons, hstep, run_append, run_append, run_blank hgap, run_value hx, run_blank hafter]
  | _, .cons hbefore hkey hcolon hgap hx hafter hmembers, comma, sound, depth => by
      have hstep : step ⟨none, false, depth, sound⟩ ':' = ⟨none, false, depth, sound⟩ := rfl
      have hcomma : step ⟨none, false, depth, sound⟩ ',' = ⟨none, true, depth, sound⟩ := rfl
      rw [run_append, run_append, run_append, run_blank hbefore, run_quoted hkey, run_blank hcolon,
        run_cons, hstep, run_append, run_append, run_append, run_blank hgap, run_value hx,
        run_blank hafter, run_cons, hcomma, run_members hmembers]

end

/-- In a JSON text every container ends, and none behind a comma. -/
theorem run_jsonText {text : Text} (h : JsonText text) :
    run ⟨none, false, 0, true⟩ text = ⟨none, false, 0, true⟩ := by
  obtain ⟨before, x, after, rfl, hbefore, hx, hafter⟩ := h
  rw [run_append, run_append, run_blank hbefore, run_value hx, run_blank hafter]

/-- A container that ended behind a comma stays one. -/
theorem run_unsound {s : Scan} (h : s.sound = false) (text : Text) : (s.run text).sound = false := by
  induction text generalizing s with
  | nil => exact h
  | cons c text ih =>
      apply ih
      unfold step
      split
      · exact h
      · split
        · exact h
        · split <;> exact h
      · repeat' split
        all_goals first | exact h | simp [h]

/-- The gaps of a plain document hold no bracket and no quote. -/
theorem run_gap {first : Bool} {gap : Text} (h : Doc.Separates first gap) (comma sound : Bool)
    (depth : Int) :
    ∃ comma', run ⟨none, comma, depth, sound⟩ gap = ⟨none, comma', depth, sound⟩ := by
  cases first with
  | true => exact ⟨comma, run_blank (jsonBlank_of_blank h) comma sound depth⟩
  | false =>
      obtain ⟨before, after, rfl, hbefore, hafter⟩ := h
      have hcomma : step ⟨none, comma, depth, sound⟩ ',' = ⟨none, true, depth, sound⟩ := rfl
      refine ⟨true, ?_⟩
      rw [run_append, run_blank (jsonBlank_of_blank hbefore), run_cons, hcomma,
        run_blank (jsonBlank_of_blank hafter)]

theorem run_plainItems {first : Bool} {items : List (Text × Doc)} (h : Doc.PlainItems first items)
    (comma sound : Bool) (depth : Int) :
    ∃ comma', run ⟨none, comma, depth, sound⟩ (Doc.renderItems items) =
      ⟨none, comma', depth, sound⟩ := by
  induction items generalizing first comma with
  | nil => exact ⟨comma, rfl⟩
  | cons item items ih =>
      rw [Doc.PlainItems] at h
      obtain ⟨comma', hgap⟩ := run_gap h.1 comma sound depth
      rw [Doc.renderItems, run_append, run_append, hgap, run_value (Doc.Plain.jsonValue _ h.2.1)]
      exact ih h.2.2 false

theorem run_plainMembers {first : Bool} {members : List (Text × Text × Text × Doc)}
    (h : Doc.PlainMembers first members) (comma sound : Bool) (depth : Int) :
    ∃ comma', run ⟨none, comma, depth, sound⟩ (Doc.renderMembers members) =
      ⟨none, comma', depth, sound⟩ := by
  induction members generalizing first comma with
  | nil => exact ⟨comma, rfl⟩
  | cons m members ih =>
      obtain ⟨gap, key, colon, x⟩ := m
      rw [Doc.PlainMembers] at h
      obtain ⟨hgap, hkey, hcolon, hx, hmembers⟩ := h
      obtain ⟨comma', hgap⟩ := run_gap hgap comma sound depth
      have hstep : step ⟨none, false, depth, sound⟩ ':' = ⟨none, false, depth, sound⟩ := rfl
      have hrender : Doc.renderMembers ((gap, key, colon, x) :: members) =
          gap ++ (quoted key ++ ':' :: (colon ++ (x.render ++ Doc.renderMembers members))) := by
        simp only [Doc.renderMembers, quoted, List.cons_append, List.append_assoc, List.nil_append]
      rw [hrender, run_append, run_append, hgap, run_quoted (jsonString_of_plain hkey), run_cons,
        hstep, run_append, run_append, run_blank (jsonBlank_of_blank hcolon),
        run_value (Doc.Plain.jsonValue x hx)]
      exact ih hmembers false

end Scan

end XHDF5.Math
