/-
# JSON texts

A JSON value with the blanks its writer leaves behind commas and colons, and the text written for
it. What a reader hands back is the value without the blanks. A parser that is not part of the
model is a parameter that reads every text written with plain strings; a small reader of that kind
stands at the end.

Code that looks for a key with `strstr` finds it at the first pair of quotes that encloses it.
-/

import XHDF5.Math.Token

namespace XHDF5.Math

/-- A value as it is written: behind every comma and every colon stands the same gap. -/
inductive Json
  | string (text : Text)
  | number (value : Int)
  | array (comma : Text) (items : List Json)
  | object (comma colon : Text) (members : List (Text × Json))

/-- A text between quotes. -/
def quoted (text : Text) : Text := '"' :: (text ++ ['"'])

namespace Json

mutual

/-- The text of a value. -/
def render : Json → Text
  | .string text => quoted text
  | .number value => decimalInt value
  | .array comma items => '[' :: ((',' :: comma).intercalate (renderItems items) ++ [']'])
  | .object comma colon members =>
      '{' :: ((',' :: comma).intercalate (renderMembers colon members) ++ ['}'])

/-- The texts of the items of an array. -/
def renderItems : List Json → List Text
  | [] => []
  | x :: items => x.render :: renderItems items

/-- The texts of the members of an object. -/
def renderMembers (colon : Text) : List (Text × Json) → List Text
  | [] => []
  | (key, x) :: members => (quoted key ++ ':' :: (colon ++ x.render)) :: renderMembers colon members

end

mutual

/-- The value without its gaps. -/
def value : Json → Json
  | .string text => .string text
  | .number value => .number value
  | .array _ items => .array [] (valueItems items)
  | .object _ _ members => .object [] [] (valueMembers members)

/-- The items without their gaps. -/
def valueItems : List Json → List Json
  | [] => []
  | x :: items => x.value :: valueItems items

/-- The members without their gaps. -/
def valueMembers : List (Text × Json) → List (Text × Json)
  | [] => []
  | (key, x) :: members => (key, x.value) :: valueMembers members

end

/-- A character that a JSON string shows as itself. -/
def PlainChar (c : Char) : Prop := c ≠ '"' ∧ c ≠ '\\' ∧ 32 ≤ c.toNat

instance (c : Char) : Decidable (PlainChar c) := inferInstanceAs (Decidable (_ ∧ _ ∧ _))

/-- A text that a JSON string shows as itself. -/
def PlainText (text : Text) : Prop := ∀ c ∈ text, PlainChar c

instance (text : Text) : Decidable (PlainText text) :=
  inferInstanceAs (Decidable (∀ c ∈ text, PlainChar c))

/-- A gap of blanks. -/
def Blank (gap : Text) : Prop := ∀ c ∈ gap, c = ' '

instance (gap : Text) : Decidable (Blank gap) := inferInstanceAs (Decidable (∀ c ∈ gap, c = ' '))

mutual

/-- All strings and gaps are plain. -/
def Plain : Json → Prop
  | .string text => PlainText text
  | .number _ => True
  | .array comma items => Blank comma ∧ PlainItems items
  | .object comma colon members => Blank comma ∧ Blank colon ∧ PlainMembers members

/-- The items are plain. -/
def PlainItems : List Json → Prop
  | [] => True
  | x :: items => x.Plain ∧ PlainItems items

/-- The members are plain. -/
def PlainMembers : List (Text × Json) → Prop
  | [] => True
  | (key, x) :: members => PlainText key ∧ x.Plain ∧ PlainMembers members

end

/-- A parser that reads every plain text as the value it was written for. -/
def ReadsJson (parse : Text → Option Json) : Prop :=
  ∀ x : Json, x.Plain → parse x.render = some x.value

/-- The value of the first member with the key. -/
def member (key : Text) : Json → Option Json
  | .object _ _ members => (members.find? fun m => m.1 = key).map Prod.snd
  | _ => none

/-- The value at a path of keys. -/
def at? : List Text → Json → Option Json
  | [], x => some x
  | key :: path, x => (x.member key).bind (at? path)

theorem blank_nil : Blank [] := fun _ hc => absurd hc List.not_mem_nil

theorem renderItems_cons (x : Json) (items : List Json) :
    renderItems (x :: items) = x.render :: renderItems items := by
  rw [renderItems]

theorem renderItems_eq_map (items : List Json) : renderItems items = items.map render := by
  induction items with
  | nil => rfl
  | cons x items ih => rw [renderItems_cons, ih, List.map_cons]

theorem valueItems_eq_map (items : List Json) : valueItems items = items.map value := by
  induction items with
  | nil => rfl
  | cons x items ih => rw [valueItems, ih, List.map_cons]

theorem plainItems_of_forall {items : List Json} (h : ∀ x ∈ items, x.Plain) :
    PlainItems items := by
  induction items with
  | nil => trivial
  | cons x items ih =>
      obtain ⟨hx, hitems⟩ := List.forall_mem_cons.mp h
      exact ⟨hx, ih hitems⟩

theorem renderItems_numbers (values : List Nat) :
    renderItems (values.map fun value : Nat => number value) = values.map decimal := by
  induction values with
  | nil => rfl
  | cons value values ih =>
      rw [List.map_cons, renderItems_cons, ih, List.map_cons, render, decimalInt_natCast]

theorem valueItems_numbers (values : List Nat) :
    valueItems (values.map fun value : Nat => number value) =
      values.map fun value : Nat => number value := by
  induction values with
  | nil => rfl
  | cons value values ih => rw [List.map_cons, valueItems, ih, Json.value]

/-! ## First characters -/

/-- No text of a value begins with a blank or ends a container. -/
theorem render_head (x : Json) : ∃ c text, x.render = c :: text ∧ c ≠ ' ' ∧ c ≠ ']' := by
  cases x with
  | string text => exact ⟨'"', text ++ ['"'], rfl, by decide, by decide⟩
  | array comma items => exact ⟨'[', _, rfl, by decide, by decide⟩
  | object comma colon members => exact ⟨'{', _, rfl, by decide, by decide⟩
  | number value =>
      cases value with
      | negSucc value => exact ⟨'-', decimal (value + 1), rfl, by decide, by decide⟩
      | ofNat value =>
          obtain ⟨c, digits, hdigits⟩ := List.exists_cons_of_ne_nil (decimal_ne_nil value)
          have hc : c.isDigit = true :=
            isDigit_of_mem_decimal (show c ∈ decimal value by simp [hdigits])
          refine ⟨c, digits, hdigits, ?_, ?_⟩
          · rintro rfl
            simp at hc
          · rintro rfl
            simp at hc

/-! ## A reader -/

/-- The text without leading blanks. -/
def skipBlanks (text : Text) : Text := text.dropWhile (· = ' ')

/-- The string behind a quote, and the text behind its ending quote. -/
def readString (text : Text) : Option (Text × Text) :=
  match text.dropWhile (· ≠ '"') with
  | [] => none
  | _ :: rest => some (text.takeWhile (· ≠ '"'), rest)

/-- A number and the text behind it. -/
def readNumber (text : Text) : Option (Int × Text) :=
  match text with
  | '-' :: digits =>
      (scanDigits digits).map fun value => (-(value : Int), digits.dropWhile Char.isDigit)
  | _ => (scanDigits text).map fun value => ((value : Int), text.dropWhile Char.isDigit)

mutual

/-- A value and the text behind it, with a bound on the steps. -/
def readValue : Nat → Text → Option (Json × Text)
  | 0, _ => none
  | _, '"' :: text => (readString text).map fun r => (.string r.1, r.2)
  | _, '[' :: ']' :: text => some (.array [] [], text)
  | fuel + 1, '[' :: text => (readItems fuel text).map fun r => (.array [] r.1, r.2)
  | _, '{' :: '}' :: text => some (.object [] [] [], text)
  | fuel + 1, '{' :: text => (readMembers fuel text).map fun r => (.object [] [] r.1, r.2)
  | _, text => (readNumber text).map fun r => (.number r.1, r.2)

/-- The items of an array up to its end. -/
def readItems : Nat → Text → Option (List Json × Text)
  | 0, _ => none
  | fuel + 1, text =>
      (readValue fuel text).bind fun r =>
        match r.2 with
        | ']' :: text => some ([r.1], text)
        | ',' :: text => (readItems fuel (skipBlanks text)).map fun s => (r.1 :: s.1, s.2)
        | _ => none

/-- The members of an object up to its end. -/
def readMembers : Nat → Text → Option (List (Text × Json) × Text)
  | fuel + 1, '"' :: text =>
      (readString text).bind fun key =>
        match key.2 with
        | ':' :: text =>
            (readValue fuel (skipBlanks text)).bind fun r =>
              match r.2 with
              | '}' :: text => some ([(key.1, r.1)], text)
              | ',' :: text =>
                  (readMembers fuel (skipBlanks text)).map fun s => ((key.1, r.1) :: s.1, s.2)
              | _ => none
        | _ => none
  | _, _ => none

end

/-- The value that makes up the whole text. -/
def readJson (text : Text) : Option Json :=
  match readValue text.length text with
  | some (x, []) => some x
  | _ => none

theorem skipBlanks_append {gap text : Text} (hgap : Blank gap) (htext : text.head? ≠ some ' ') :
    skipBlanks (gap ++ text) = text := by
  unfold skipBlanks
  rw [List.dropWhile_append_of_pos fun c hc => by simpa using hgap c hc]
  cases text with
  | nil => rfl
  | cons c text => exact List.dropWhile_cons_of_neg (by simpa using htext)

theorem readString_append {text : Text} (htext : PlainText text) (rest : Text) :
    readString (text ++ '"' :: rest) = some (text, rest) := by
  have hplain : ∀ c ∈ text, decide (c ≠ '"') = true := fun c hc => by simpa using (htext c hc).1
  unfold readString
  rw [List.dropWhile_append_of_pos hplain, List.takeWhile_append_of_pos hplain]
  simp

theorem readDigits_append (value : Nat) {rest : Text}
    (hrest : ∀ c ∈ rest.head?, c.isDigit = false) :
    (decimal value ++ rest).dropWhile Char.isDigit = rest := by
  rw [List.dropWhile_append_of_pos fun c hc => isDigit_of_mem_decimal hc]
  cases rest with
  | nil => rfl
  | cons c rest => exact List.dropWhile_cons_of_neg (by simp [hrest c (by simp)])

theorem readNumber_append (value : Int) {rest : Text}
    (hrest : ∀ c ∈ rest.head?, c.isDigit = false) :
    readNumber (decimalInt value ++ rest) = some (value, rest) := by
  cases value with
  | negSucc value =>
      rw [decimalInt, List.cons_append, readNumber, scanDigits_decimal_append _ _ hrest,
        readDigits_append _ hrest]
      rfl
  | ofNat value =>
      have hminus : ∀ digits, decimal value ++ rest ≠ '-' :: digits := by
        intro digits heq
        obtain ⟨c, tail, hdigits⟩ := List.exists_cons_of_ne_nil (decimal_ne_nil value)
        have hc : c.isDigit = true :=
          isDigit_of_mem_decimal (show c ∈ decimal value by simp [hdigits])
        rw [hdigits, List.cons_append] at heq
        rw [(List.cons.inj heq).1] at hc
        simp at hc
      rw [decimalInt]
      unfold readNumber
      split
      · next digits heq => exact absurd heq (hminus digits)
      · rw [scanDigits_decimal_append _ _ hrest, readDigits_append _ hrest]
        rfl

/-- What stands behind an entry of a container: its end, or the next entries. -/
def behind (comma close : Text) : List Text → Text
  | [] => close
  | next :: entries => ',' :: (comma ++ ((',' :: comma).intercalate (next :: entries) ++ close))

theorem intercalate_cons (comma entry close : Text) (entries : List Text) :
    (',' :: comma).intercalate (entry :: entries) ++ close =
      entry ++ behind comma close entries := by
  cases entries with
  | nil => simp [List.intercalate, behind]
  | cons next entries => simp [List.intercalate, behind]

/-- Behind an entry stands no digit. -/
theorem behind_head {comma close : Text} {c : Char} (hc : c.isDigit = false)
    (entries : List Text) :
    ∀ d ∈ (behind comma (c :: close) entries).head?, d.isDigit = false := by
  cases entries with
  | nil => simpa [behind] using hc
  | cons next entries => simp [behind]

theorem readValue_number (value : Int) (fuel : Nat) {rest : Text}
    (hrest : ∀ c ∈ rest.head?, c.isDigit = false) :
    readValue (fuel + 1) (decimalInt value ++ rest) = some (.number value, rest) := by
  have hhead : ∃ c text, decimalInt value ++ rest = c :: text ∧ c ≠ '"' ∧ c ≠ '[' ∧ c ≠ '{' := by
    cases value with
    | negSucc value => exact ⟨'-', decimal (value + 1) ++ rest, rfl, by decide⟩
    | ofNat value =>
        obtain ⟨c, digits, hdigits⟩ := List.exists_cons_of_ne_nil (decimal_ne_nil value)
        have hc : c.isDigit = true :=
          isDigit_of_mem_decimal (show c ∈ decimal value by simp [hdigits])
        refine ⟨c, digits ++ rest, by rw [decimalInt, hdigits, List.cons_append], ?_⟩
        refine ⟨?_, ?_, ?_⟩ <;> (rintro rfl; simp at hc)
  have hnumber := readNumber_append value hrest
  obtain ⟨c, text, htext, hquote, hbracket, hbrace⟩ := hhead
  rw [htext] at hnumber ⊢
  unfold readValue
  split
  · next heq => cases heq
  · next heq _ => exact absurd (List.cons.inj heq).1 hquote
  · next heq _ => exact absurd (List.cons.inj heq).1 hbracket
  · next heq => exact absurd (List.cons.inj heq).1 hbracket
  · next heq _ => exact absurd (List.cons.inj heq).1 hbrace
  · next heq => exact absurd (List.cons.inj heq).1 hbrace
  · rw [hnumber]
    rfl

mutual

/-- The reader hands back the value that was written. -/
theorem readValue_render : ∀ (x : Json) (fuel : Nat) (rest : Text), x.Plain →
    x.render.length ≤ fuel → (∀ c ∈ rest.head?, c.isDigit = false) →
      readValue fuel (x.render ++ rest) = some (x.value, rest)
  | .string text, fuel + 1, rest, hplain, _, _ => by
      rw [Plain] at hplain
      rw [render, quoted, List.cons_append, List.append_assoc]
      simp only [readValue, List.singleton_append, readString_append hplain]
      rfl
  | .number value, fuel + 1, rest, _, _, hrest => by
      exact readValue_number value fuel hrest
  | .array comma [], fuel + 1, rest, _, _, _ => by
      rfl
  | .array comma (x :: items), fuel + 1, rest, hplain, hfuel, _ => by
      rw [Plain, PlainItems] at hplain
      have hlength : ((',' :: comma).intercalate (renderItems (x :: items))).length < fuel := by
        simp only [render, List.length_cons, List.length_append, List.length_nil] at hfuel
        omega
      have hread := readItems_render comma x items fuel rest hplain.1 hplain.2.1 hplain.2.2 hlength
      obtain ⟨c, text, htext, -, hc⟩ := x.render_head
      rw [render, List.cons_append, List.append_assoc, List.singleton_append]
      rw [renderItems, intercalate_cons, htext, List.cons_append] at hread ⊢
      rw [readValue]
      · rw [hread]
        rfl
      · intro text heq
        exact hc (List.cons.inj heq).1
  | .object comma colon [], fuel + 1, rest, _, _, _ => by
      rfl
  | .object comma colon ((key, x) :: members), fuel + 1, rest, hplain, hfuel, _ => by
      rw [Plain, PlainMembers] at hplain
      have hlength :
          ((',' :: comma).intercalate (renderMembers colon ((key, x) :: members))).length < fuel :=
            by
        simp only [render, List.length_cons, List.length_append, List.length_nil] at hfuel
        omega
      have hread := readMembers_render comma colon key x members fuel rest hplain.1 hplain.2.1
        hplain.2.2.1 hplain.2.2.2.1 hplain.2.2.2.2 hlength
      rw [render, List.cons_append, List.append_assoc, List.singleton_append]
      rw [renderMembers, intercalate_cons, quoted, List.cons_append, List.cons_append] at hread ⊢
      rw [readValue]
      · rw [hread]
        rfl
      · intro text heq
        cases (List.cons.inj heq).1
  | x, 0, rest, _, hfuel, _ => by
      obtain ⟨c, text, hx, -⟩ := x.render_head
      rw [hx] at hfuel
      cases hfuel

theorem readItems_render : ∀ (comma : Text) (x : Json) (items : List Json) (fuel : Nat)
    (rest : Text), Blank comma → x.Plain → PlainItems items →
    ((',' :: comma).intercalate (renderItems (x :: items))).length < fuel →
      readItems fuel ((',' :: comma).intercalate (renderItems (x :: items)) ++ ']' :: rest) =
        some (valueItems (x :: items), rest)
  | comma, x, items, fuel + 1, rest, hcomma, hx, hitems, hfuel => by
      have hentry : x.render.length ≤ fuel := by
        cases items <;> simp [renderItems, List.intercalate] at hfuel <;> omega
      rw [renderItems, intercalate_cons, readItems,
        readValue_render x fuel _ hx hentry (behind_head (by decide) _)]
      cases items with
      | nil => rfl
      | cons y items =>
          rw [PlainItems] at hitems
          have hrest : ((',' :: comma).intercalate (renderItems (y :: items))).length < fuel := by
            simp [renderItems, List.intercalate] at hfuel ⊢
            omega
          have hread := readItems_render comma y items fuel rest hcomma hitems.1 hitems.2 hrest
          have hhead : ((',' :: comma).intercalate (renderItems (y :: items)) ++
              ']' :: rest).head? ≠ some ' ' := by
            obtain ⟨c, text, htext, hc, -⟩ := y.render_head
            rw [renderItems, intercalate_cons, htext]
            simpa using hc
          simp only [renderItems, behind, Option.bind_some] at hread hhead ⊢
          rw [skipBlanks_append hcomma hhead, hread]
          rfl

theorem readMembers_render : ∀ (comma colon key : Text) (x : Json) (members : List (Text × Json))
    (fuel : Nat) (rest : Text), Blank comma → Blank colon → PlainText key → x.Plain →
    PlainMembers members →
    ((',' :: comma).intercalate (renderMembers colon ((key, x) :: members))).length < fuel →
      readMembers fuel
          ((',' :: comma).intercalate (renderMembers colon ((key, x) :: members)) ++ '}' :: rest) =
        some (valueMembers ((key, x) :: members), rest)
  | comma, colon, key, x, members, fuel + 1, rest, hcomma, hcolon, hkey, hx, hmembers, hfuel => by
      have hentry : x.render.length ≤ fuel := by
        cases members <;> simp [renderMembers, List.intercalate] at hfuel <;> omega
      have hgap : ∀ text, (x.render ++ text).head? ≠ some ' ' := by
        intro text
        obtain ⟨c, tail, htail, hc, -⟩ := x.render_head
        rw [htail]
        simpa using hc
      rw [renderMembers, intercalate_cons]
      simp only [quoted, List.cons_append, List.append_assoc, List.nil_append, readMembers,
        readString_append hkey, Option.bind_some]
      rw [skipBlanks_append hcolon (hgap _),
        readValue_render x fuel _ hx hentry (behind_head (by decide) _)]
      cases members with
      | nil => rfl
      | cons next members =>
          cases next with
          | mk next y =>
              rw [PlainMembers] at hmembers
              have hrest : ((',' :: comma).intercalate
                  (renderMembers colon ((next, y) :: members))).length < fuel := by
                simp [renderMembers, List.intercalate] at hfuel ⊢
                omega
              have hread := readMembers_render comma colon next y members fuel rest hcomma hcolon
                hmembers.1 hmembers.2.1 hmembers.2.2 hrest
              have hhead : ((',' :: comma).intercalate (renderMembers colon ((next, y) :: members))
                ++
                  '}' :: rest).head? ≠ some ' ' := by
                rw [renderMembers, intercalate_cons]
                simp [quoted]
              simp only [renderMembers, behind, Option.bind_some] at hread hhead ⊢
              rw [skipBlanks_append hcomma hhead, hread]
              rfl

end

theorem readsJson_readJson : ReadsJson readJson := by
  intro x hplain
  have hread := readValue_render x x.render.length [] hplain (Nat.le_refl _) (by simp)
  rw [List.append_nil] at hread
  rw [readJson, hread]

end Json

/-! ## Keys that `strstr` finds -/

/-- `strstr`: the text from the first occurrence of the needle on. -/
def strstr (needle : Text) : Text → Option Text
  | [] => if needle = [] then some [] else none
  | c :: text => if needle.isPrefixOf (c :: text) then some (c :: text) else strstr needle text

section Strstr

variable {c : Char} {needle pre key word text : Text}

theorem strstr_append (h : c ∉ pre) : strstr (c :: needle) (pre ++ text) = strstr (c :: needle)
    text := by
  induction pre with
  | nil => rfl
  | cons d pre ih =>
      rw [List.mem_cons, not_or] at h
      rw [List.cons_append, strstr, if_neg (by simp [h.1]), ih h.2]

theorem strstr_self (htext : needle ≠ []) : strstr needle (needle ++ text) = some
    (needle ++ text) := by
  obtain ⟨c, tail, rfl⟩ := List.exists_cons_of_ne_nil htext
  rw [List.cons_append, strstr, if_pos]
  rw [List.isPrefixOf_iff_prefix]
  exact ⟨text, rfl⟩

/-- What a search finds begins with the key, and is an end of the text. -/
theorem strstr_eq_some {rest : Text} (h : strstr needle text = some rest) :
    needle <+: rest ∧ rest <:+ text := by
  induction text with
  | nil =>
      rw [strstr] at h
      split at h
      · next hnil =>
          cases h
          exact ⟨hnil ▸ List.nil_prefix, List.suffix_rfl⟩
      · cases h
  | cons c text ih =>
      rw [strstr] at h
      split at h
      · next hprefixed =>
          cases h
          exact ⟨List.isPrefixOf_iff_prefix.mp hprefixed, List.suffix_rfl⟩
      · obtain ⟨hprefixed, hsuffix⟩ := ih h
        exact ⟨hprefixed, hsuffix.trans (List.suffix_cons c text)⟩

/-- What is found in a text is found when more text follows. -/
theorem strstr_append_right {mid : Text} (h : strstr needle pre = some mid) :
    strstr needle (pre ++ text) = some (mid ++ text) := by
  induction pre with
  | nil =>
      rw [strstr] at h
      split at h
      · next hnil =>
          cases h
          subst hnil
          cases text <;> rfl
      · cases h
  | cons c pre ih =>
      rw [strstr] at h
      rw [List.cons_append, strstr]
      split at h
      · next hprefixed =>
          cases h
          have hmore : needle <+: c :: (pre ++ text) :=
            (List.isPrefixOf_iff_prefix.mp hprefixed).trans (List.prefix_append (c :: pre) text)
          rw [if_pos (List.isPrefixOf_iff_prefix.mpr hmore)]
          rfl
      · next hprefixed =>
          have hlonger : needle.length ≤ pre.length :=
            Nat.le_trans (strstr_eq_some h).1.length_le (strstr_eq_some h).2.length_le
          have hnot : ¬ needle <+: c :: (pre ++ text) := fun hmore =>
            hprefixed (List.isPrefixOf_iff_prefix.mpr (List.prefix_of_prefix_length_le hmore
              (List.prefix_append (c :: pre) text) (Nat.le_succ_of_le hlonger)))
          rw [if_neg (by rwa [List.isPrefixOf_iff_prefix]), ih h]

/-- What is not found in a text is looked for behind it, if it cannot reach over the next
character. -/
theorem strstr_append_of_none {d : Char} (hd : d ∉ needle) (h : strstr needle pre = none) :
    strstr needle (pre ++ d :: text) = strstr needle (d :: text) := by
  induction pre with
  | nil => rfl
  | cons c pre ih =>
      rw [strstr] at h
      split at h
      · cases h
      · next hprefixed =>
          have hnot : ¬ needle <+: c :: (pre ++ d :: text) := fun hmore => by
            rcases Nat.lt_or_ge (c :: pre).length needle.length with hlong | hshort
            · have hback : (c :: pre) ++ [d] <+: needle :=
                List.prefix_of_prefix_length_le ⟨text, by simp⟩ hmore
                  (by simpa using Nat.succ_le_of_lt hlong)
              exact hd (hback.subset (by simp))
            · exact hprefixed (List.isPrefixOf_iff_prefix.mpr (List.prefix_of_prefix_length_le hmore
                (List.prefix_append (c :: pre) (d :: text)) hshort))
          rw [List.cons_append, strstr, if_neg (by rwa [List.isPrefixOf_iff_prefix]), ih h]

/-- A quoted text with no quote in it is at the front only of itself. -/
theorem quoted_prefix_iff (hkey : '"' ∉ key) (hword : '"' ∉ word) :
    quoted key <+: quoted word ++ text ↔ key = word := by
  constructor
  · intro hstarts
    simp only [quoted, List.cons_append, List.append_assoc, List.nil_append,
      List.cons_prefix_cons, true_and] at hstarts
    induction key generalizing word with
    | nil =>
        cases word with
        | nil => rfl
        | cons c word =>
            simp only [List.nil_append, List.cons_append, List.cons_prefix_cons] at hstarts
            exact absurd (List.mem_cons.mpr (Or.inl hstarts.1)) hword
    | cons c key ih =>
        cases word with
        | nil =>
            simp only [List.nil_append, List.cons_append, List.cons_prefix_cons] at hstarts
            exact absurd (List.mem_cons.mpr (Or.inl hstarts.1.symm)) hkey
        | cons d word =>
            simp only [List.cons_append, List.cons_prefix_cons] at hstarts
            rw [List.mem_cons, not_or] at hkey hword
            rw [hstarts.1, ih hkey.2 hword.2 hstarts.2]
  · rintro rfl
    exact ⟨text, rfl⟩

/-- `strstr` passes over a quoted text that is not the key, up to its ending quote. -/
theorem strstr_quoted (hkey : '"' ∉ key) (hword : '"' ∉ word) (hne : key ≠ word) :
    strstr (quoted key) (quoted word ++ text) = strstr (quoted key) ('"' :: text) := by
  have hstarts : ¬ quoted key <+: quoted word ++ text :=
    fun h => hne ((quoted_prefix_iff hkey hword).mp h)
  rw [← List.isPrefixOf_iff_prefix] at hstarts
  simp only [quoted, List.cons_append] at hstarts ⊢
  rw [strstr, if_neg hstarts, List.append_assoc, strstr_append hword]
  rfl

/-- Words that each stand behind a quote. -/
def behindQuotes (words : List Text) (text : Text) : Text :=
  words.foldr (fun word rest => '"' :: (word ++ rest)) text

/-- `strstr` passes over words that are not the key. -/
theorem strstr_behindQuotes {words : List Text} (hkey : '"' ∉ key)
    (hwords : ∀ word ∈ words, '"' ∉ word ∧ key ≠ word) :
    strstr (quoted key) (behindQuotes words ('"' :: text)) = strstr (quoted key) ('"' :: text) := by
  induction words with
  | nil => rfl
  | cons word words ih =>
      have hrest := ih fun word h => hwords word (List.mem_cons_of_mem _ h)
      have hfirst : ∃ rest, behindQuotes words ('"' :: text) = '"' :: rest := by
        cases words with
        | nil => exact ⟨text, rfl⟩
        | cons next words => exact ⟨_, rfl⟩
      obtain ⟨rest, hfirst⟩ := hfirst
      have hquoted : behindQuotes (word :: words) ('"' :: text) = quoted word ++ rest := by
        simp only [behindQuotes, List.foldr_cons] at hfirst ⊢
        rw [hfirst]
        simp [quoted]
      rw [hquoted, strstr_quoted hkey (hwords word (by simp)).1 (hwords word (by simp)).2, ← hfirst,
        hrest]

/-- `strstr` finds a key behind words that are not the key. -/
theorem strstr_key {words : List Text} (hkey : '"' ∉ key) (hpre : '"' ∉ pre)
    (hwords : ∀ word ∈ words, '"' ∉ word ∧ key ≠ word) :
    strstr (quoted key) (pre ++ behindQuotes words (quoted key ++ text)) =
      some (quoted key ++ text) := by
  have hself : strstr (quoted key) (quoted key ++ text) = some (quoted key ++ text) :=
    strstr_self (by simp [quoted])
  have hskip := @strstr_behindQuotes _ (key ++ '"' :: text) _ hkey hwords
  rw [quoted, strstr_append hpre, ← quoted]
  simp only [quoted, List.cons_append, List.append_assoc, List.nil_append] at hskip hself ⊢
  rw [hskip, hself]

end Strstr

end XHDF5.Math
