/-
# Documents

A document is a JSON value together with what is written between its parts. What a parser hands back
is the value without the gaps. A parser that is not part of the model is a parameter that reads every
plain document; a small reader of that kind stands at the end.
-/

import XHDF5.Math.Json

namespace XHDF5.Math

/-- A value as it is written. Every item and every key has a gap in front of it, every value of a
member one behind the colon, and the end of a container one before it. -/
inductive Doc
  | string (text : Text)
  | word (text : Text)
  | array (items : List (Text × Doc)) (close : Text)
  | object (members : List (Text × Text × Text × Doc)) (close : Text)

namespace Doc

mutual

/-- The text of a document. -/
def render : Doc → Text
  | .string text => '"' :: (text ++ ['"'])
  | .word text => text
  | .array items close => '[' :: (renderItems items ++ (close ++ [']']))
  | .object members close => '{' :: (renderMembers members ++ (close ++ ['}']))

/-- The text of items. -/
def renderItems : List (Text × Doc) → Text
  | [] => []
  | (gap, x) :: items => gap ++ (x.render ++ renderItems items)

/-- The text of members. -/
def renderMembers : List (Text × Text × Text × Doc) → Text
  | [] => []
  | (gap, key, colon, x) :: members =>
      gap ++ ('"' :: (key ++ '"' :: ':' :: (colon ++ (x.render ++ renderMembers members))))

end

mutual

/-- The document without its gaps. -/
def bare : Doc → Doc
  | .string text => .string text
  | .word text => .word text
  | .array items _ => .array (bareItems items) []
  | .object members _ => .object (bareMembers members) []

/-- The items without their gaps. -/
def bareItems : List (Text × Doc) → List (Text × Doc)
  | [] => []
  | (_, x) :: items => ([], x.bare) :: bareItems items

/-- The members without their gaps. -/
def bareMembers : List (Text × Text × Text × Doc) → List (Text × Text × Text × Doc)
  | [] => []
  | (_, key, _, x) :: members => ([], key, [], x.bare) :: bareMembers members

end

/-- A number with a fraction, as `%f` prints it. -/
def Fixed (text : Text) : Prop :=
  ∃ (sign : Text) (whole : Nat) (fraction : Text), text = sign ++ (decimal whole ++ '.' :: fraction) ∧
    (sign = [] ∨ sign = ['-']) ∧ fraction ≠ [] ∧ ∀ c ∈ fraction, c.isDigit = true

/-- `null`, a whole number, or a number with a fraction. -/
def PlainWord (text : Text) : Prop :=
  text = lit "null" ∨ (∃ value : Nat, text = decimal value) ∨ Fixed text

/-- Blanks stand before the first part of a container, blanks and one comma before each other one. -/
def Separates (first : Bool) (gap : Text) : Prop :=
  if first then Json.Blank gap
  else ∃ before after, gap = before ++ ',' :: after ∧ Json.Blank before ∧ Json.Blank after

mutual

/-- Strings and words are plain, and commas separate the parts of the containers. -/
def Plain : Doc → Prop
  | .string text => Json.PlainText text
  | .word text => PlainWord text
  | .array items close => Json.Blank close ∧ PlainItems true items
  | .object members close => Json.Blank close ∧ PlainMembers true members

/-- The items of an array are plain. -/
def PlainItems : Bool → List (Text × Doc) → Prop
  | _, [] => True
  | first, (gap, x) :: items => Separates first gap ∧ x.Plain ∧ PlainItems false items

/-- The members of an object are plain. -/
def PlainMembers : Bool → List (Text × Text × Text × Doc) → Prop
  | _, [] => True
  | first, (gap, key, colon, x) :: members =>
      Separates first gap ∧ Json.PlainText key ∧ Json.Blank colon ∧ x.Plain ∧ PlainMembers false members

end

/-- A parser that reads every plain document as its value. -/
def ReadsDocuments (parse : Text → Option Doc) : Prop :=
  ∀ x : Doc, x.Plain → parse x.render = some x.bare

/-! ## Lookups -/

/-- The text of a string. -/
def string? : Doc → Option Text
  | .string text => some text
  | _ => none

/-- The items of an array. -/
def items? : Doc → Option (List Doc)
  | .array items _ => some (items.map Prod.snd)
  | _ => none

/-- The value itself, when it is an object. -/
def object? : Doc → Option Doc
  | .object members close => some (.object members close)
  | _ => none

/-- The value of the first member with the key. -/
def member (key : Text) : Doc → Option Doc
  | .object members _ => (members.find? fun m => m.2.1 = key).map fun m => m.2.2.2
  | _ => none

/-- Items with commas between them, the first one behind a gap. -/
def listed (lead : Text) : List Doc → List (Text × Doc)
  | [] => []
  | x :: items => (lead, x) :: items.map fun y => ([','], y)

theorem map_listed {α : Type*} (f : Doc → α) (lead : Text) (items : List Doc) :
    (listed lead items).map (fun item => f item.2) = items.map f := by
  cases items with
  | nil => rfl
  | cons x items => simp [listed, Function.comp_def]

theorem renderItems_listed (lead : Text) (x : Doc) (items : List Doc) :
    renderItems (listed lead (x :: items)) =
      lead ++ [','].intercalate ((x :: items).map render) := by
  rw [listed, renderItems, List.map_cons]
  congr 1
  induction items generalizing x with
  | nil => simp [renderItems, List.intercalate]
  | cons y items ih =>
      rw [List.map_cons, renderItems, ih y]
      simp [List.intercalate]

theorem plainItems_commas {items : List Doc} (h : ∀ x ∈ items, x.Plain) :
    PlainItems false (items.map fun y => ([','], y)) := by
  induction items with
  | nil => trivial
  | cons x items ih =>
      rw [List.map_cons, PlainItems]
      exact ⟨⟨[], [], rfl, Json.blank_nil, Json.blank_nil⟩, h x (by simp),
        ih fun y hy => h y (by simp [hy])⟩

theorem plainItems_listed {lead : Text} {items : List Doc} (hlead : Json.Blank lead)
    (h : ∀ x ∈ items, x.Plain) : PlainItems true (listed lead items) := by
  cases items with
  | nil => trivial
  | cons x items =>
      rw [listed, PlainItems]
      exact ⟨hlead, h x (by simp), plainItems_commas fun y hy => h y (by simp [hy])⟩

theorem bareItems_eq (items : List (Text × Doc)) :
    bareItems items = items.map fun item => ([], item.2.bare) := by
  induction items with
  | nil => rfl
  | cons item items ih => rw [bareItems, ih, List.map_cons]

theorem bareMembers_eq (members : List (Text × Text × Text × Doc)) :
    bareMembers members = members.map fun m => ([], m.2.1, [], m.2.2.2.bare) := by
  induction members with
  | nil => rfl
  | cons m members ih => rw [bareMembers, ih, List.map_cons]

theorem renderMembers_append (members more : List (Text × Text × Text × Doc)) :
    renderMembers (members ++ more) = renderMembers members ++ renderMembers more := by
  induction members with
  | nil => rfl
  | cons m members ih =>
      obtain ⟨gap, key, colon, x⟩ := m
      rw [List.cons_append, renderMembers, renderMembers, ih]
      simp only [List.append_assoc, List.cons_append]

theorem plainMembers_append {first : Bool} {members more : List (Text × Text × Text × Doc)} :
    PlainMembers first (members ++ more) ↔
      PlainMembers first members ∧ PlainMembers (first && members.isEmpty) more := by
  induction members generalizing first with
  | nil => simp [PlainMembers]
  | cons m members ih =>
      obtain ⟨gap, key, colon, x⟩ := m
      rw [List.cons_append, PlainMembers, PlainMembers, ih]
      simp only [Bool.false_and, List.isEmpty_cons, Bool.and_false, and_assoc]

theorem items?_bare (items : List (Text × Doc)) (close : Text) :
    (Doc.array items close).bare.items? = some (items.map fun item => item.2.bare) := by
  rw [bare, bareItems_eq, items?, List.map_map]
  rfl

theorem object?_bare (members : List (Text × Text × Text × Doc)) (close : Text) :
    (Doc.object members close).bare.object? = some (Doc.object members close).bare := by
  rw [bare, object?]

/-- Gaps do not matter for a lookup. -/
theorem member_bare (key : Text) (x : Doc) : x.bare.member key = (x.member key).map bare := by
  cases x with
  | string text | word text | array items close => rfl
  | object members close =>
      rw [bare, bareMembers_eq, member, member, List.find?_map, Option.map_map, Option.map_map]
      rfl

/-! ## Values of documents -/

mutual

/-- The value of a document whose words are numbers; what follows the whole part of a number is not
in it. -/
def json? : Doc → Option Json
  | .string text => some (.string text)
  | .word text => (Json.readNumber text).map fun r => .number r.1
  | .array items _ => (jsonItems items).map (.array [])
  | .object members _ => (jsonMembers members).map (.object [] [])

/-- The values of items. -/
def jsonItems : List (Text × Doc) → Option (List Json)
  | [] => some []
  | (_, x) :: items => x.json?.bind fun j => (jsonItems items).map (j :: ·)

/-- The values of members. -/
def jsonMembers : List (Text × Text × Text × Doc) → Option (List (Text × Json))
  | [] => some []
  | (_, key, _, x) :: members => x.json?.bind fun j => (jsonMembers members).map ((key, j) :: ·)

end

mutual

theorem json?_bare : ∀ x : Doc, x.bare.json? = x.json?
  | .string _ => rfl
  | .word _ => rfl
  | .array items _ => by rw [bare, json?, json?, jsonItems_bareItems]
  | .object members _ => by rw [bare, json?, json?, jsonMembers_bareMembers]

theorem jsonItems_bareItems : ∀ items : List (Text × Doc), jsonItems (bareItems items) = jsonItems items
  | [] => rfl
  | (_, x) :: items => by rw [bareItems, jsonItems, jsonItems, json?_bare x, jsonItems_bareItems items]

theorem jsonMembers_bareMembers : ∀ members : List (Text × Text × Text × Doc),
    jsonMembers (bareMembers members) = jsonMembers members
  | [] => rfl
  | (_, key, _, x) :: members => by
      rw [bareMembers, jsonMembers, jsonMembers, json?_bare x, jsonMembers_bareMembers members]

end

theorem jsonItems_map {items : List (Text × Doc)} {values : List Json}
    (h : List.Forall₂ (fun item value => item.2.json? = some value) items values) :
    jsonItems items = some values := by
  induction h with
  | nil => rfl
  | @cons item value items values hitem _ ih => rw [jsonItems, hitem, Option.bind_some, ih]; rfl

theorem exists_jsonItems {items : List (Text × Doc)} (h : ∀ item ∈ items, ∃ j, item.2.json? = some j) :
    ∃ values, jsonItems items = some values := by
  induction items with
  | nil => exact ⟨[], rfl⟩
  | cons item items ih =>
      obtain ⟨j, hj⟩ := h item (by simp)
      obtain ⟨values, hvalues⟩ := ih fun other hother => h other (by simp [hother])
      exact ⟨j :: values, by rw [jsonItems, hj, Option.bind_some, hvalues]; rfl⟩

theorem exists_jsonMembers {members : List (Text × Text × Text × Doc)}
    (h : ∀ m ∈ members, ∃ j, m.2.2.2.json? = some j) :
    ∃ values, jsonMembers members = some values := by
  induction members with
  | nil => exact ⟨[], rfl⟩
  | cons m members ih =>
      obtain ⟨j, hj⟩ := h m (by simp)
      obtain ⟨values, hvalues⟩ := ih fun other hother => h other (by simp [hother])
      exact ⟨(m.2.1, j) :: values, by rw [jsonMembers, hj, Option.bind_some, hvalues]; rfl⟩

/-- The value of a member is a member of the value. -/
theorem member_json {x : Doc} {j : Json} (h : x.json? = some j) (key : Text) :
    j.member key = (x.member key).bind json? := by
  cases x with
  | string text =>
      cases Option.some.inj h
      rfl
  | word text =>
      obtain ⟨r, -, rfl⟩ := Option.map_eq_some_iff.mp h
      rfl
  | array items close =>
      obtain ⟨values, -, rfl⟩ := Option.map_eq_some_iff.mp h
      rfl
  | object members close =>
      obtain ⟨values, hvalues, rfl⟩ := Option.map_eq_some_iff.mp h
      rw [member, Json.member]
      clear h
      induction members generalizing values with
      | nil =>
          cases Option.some.inj hvalues
          rfl
      | cons m members ih =>
          obtain ⟨value, hvalue, hrest⟩ := Option.bind_eq_some_iff.mp hvalues
          obtain ⟨rest, hmembers, rfl⟩ := Option.map_eq_some_iff.mp hrest
          by_cases hkey : m.2.1 = key
          · rw [List.find?_cons_of_pos (by simpa using hkey), List.find?_cons_of_pos (by simpa using hkey)]
            exact hvalue.symm
          · rw [List.find?_cons_of_neg (by simpa using hkey), List.find?_cons_of_neg (by simpa using hkey)]
            exact ih rest hmembers

/-- The value at a key in a member. -/
theorem at_json {x y : Doc} {j k : Json} (hx : x.json? = some j) (hy : y.json? = some k)
    {outer : Text} (houter : x.member outer = some y) (key : Text) :
    j.at? [outer, key] = (y.member key).bind json? := by
  have hmember := member_json hx outer
  rw [houter, Option.bind_some, hy] at hmember
  rw [Json.at?, hmember, Option.bind_some, Json.at?, member_json hy key]
  cases (y.member key).bind json? <;> rfl

/-! ## A reader -/

/-- A character of a word. -/
def isWordChar (c : Char) : Bool :=
  !(c == ' ' || c == ',' || c == ']' || c == '}' || c == '[' || c == '{' || c == '"')

/-- The text behind blanks and commas. -/
def skipGap (text : Text) : Text := text.dropWhile fun c => c == ' ' || c == ','

mutual

/-- A value and the text behind it, with a bound on the steps. -/
def readDoc : Nat → Text → Option (Doc × Text)
  | 0, _ => none
  | _ + 1, '"' :: text => (Json.readString text).map fun r => (.string r.1, r.2)
  | fuel + 1, '[' :: text =>
      (readItems fuel (skipGap text)).map fun r => (.array r.1 [], r.2)
  | fuel + 1, '{' :: text =>
      (readMembers fuel (skipGap text)).map fun r => (.object r.1 [], r.2)
  | _ + 1, text => some (.word (text.takeWhile isWordChar), text.dropWhile isWordChar)

/-- The items up to the end of an array. -/
def readItems : Nat → Text → Option (List (Text × Doc) × Text)
  | 0, _ => none
  | _ + 1, ']' :: text => some ([], text)
  | fuel + 1, text =>
      (readDoc fuel text).bind fun r =>
        (readItems fuel (skipGap r.2)).map fun s => (([], r.1) :: s.1, s.2)

/-- The members up to the end of an object. -/
def readMembers : Nat → Text → Option (List (Text × Text × Text × Doc) × Text)
  | 0, _ => none
  | _ + 1, '}' :: text => some ([], text)
  | fuel + 1, '"' :: text =>
      (Json.readString text).bind fun key =>
        (readDoc fuel (Json.skipBlanks (key.2.drop 1))).bind fun r =>
          (readMembers fuel (skipGap r.2)).map fun s => (([], key.1, [], r.1) :: s.1, s.2)
  | _ + 1, _ => none

end

/-- The value that makes up the whole text. -/
def readDocument (text : Text) : Option Doc :=
  match readDoc text.length text with
  | some (x, []) => some x
  | _ => none

/-- A text that starts with no gap and with no end of a container. -/
def Starts (text : Text) : Prop :=
  ∃ c tail, text = c :: tail ∧ c ≠ ' ' ∧ c ≠ ',' ∧ c ≠ ']' ∧ c ≠ '}'

theorem isWordChar_digit {c : Char} (hdigit : c.isDigit = true) : isWordChar c = true := by
  unfold isWordChar
  simp only [Bool.not_eq_true', Bool.or_eq_false_iff, beq_eq_false_iff_ne]
  refine ⟨⟨⟨⟨⟨⟨?_, ?_⟩, ?_⟩, ?_⟩, ?_⟩, ?_⟩, ?_⟩ <;> (rintro rfl; simp at hdigit)

theorem isWordChar_decimal {value : Nat} {c : Char} (hc : c ∈ decimal value) :
    isWordChar c = true :=
  isWordChar_digit (isDigit_of_mem_decimal hc)

theorem Fixed.word {text : Text} (h : Fixed text) :
    text ≠ [] ∧ ∀ c ∈ text, isWordChar c = true := by
  obtain ⟨sign, whole, fraction, rfl, hsign, -, hfraction⟩ := h
  refine ⟨by simp, fun c hc => ?_⟩
  rcases List.mem_append.mp hc with hc | hc
  · rcases hsign with rfl | rfl
    · cases hc
    · rw [List.mem_singleton.mp hc]
      rfl
  · rcases List.mem_append.mp hc with hc | hc
    · exact isWordChar_decimal hc
    · rcases List.mem_cons.mp hc with rfl | hc
      · rfl
      · exact isWordChar_digit (hfraction c hc)

/-- A plain word consists of characters of words. -/
theorem PlainWord.word {text : Text} (h : PlainWord text) :
    text ≠ [] ∧ ∀ c ∈ text, isWordChar c = true := by
  rcases h with rfl | ⟨value, rfl⟩ | h
  · unfold lit
    decide
  · exact ⟨decimal_ne_nil value, fun c hc => isWordChar_decimal hc⟩
  · exact h.word

theorem starts_render {x : Doc} (h : x.Plain) (rest : Text) : Starts (x.render ++ rest) := by
  cases x with
  | string text => exact ⟨'"', _, rfl, by decide, by decide, by decide, by decide⟩
  | array items close => exact ⟨'[', _, rfl, by decide, by decide, by decide, by decide⟩
  | object members close => exact ⟨'{', _, rfl, by decide, by decide, by decide, by decide⟩
  | word text =>
      rw [Plain] at h
      obtain ⟨hne, hchars⟩ := h.word
      obtain ⟨c, tail, rfl⟩ := List.exists_cons_of_ne_nil hne
      have hc := hchars c (by simp)
      refine ⟨c, tail ++ rest, rfl, ?_⟩
      refine ⟨?_, ?_, ?_, ?_⟩ <;> (rintro rfl; exact absurd hc (by decide))

/-- A gap is passed over. -/
theorem skipGap_append {first : Bool} {gap text : Text} (hgap : Separates first gap)
    (htext : Starts text) : skipGap (gap ++ text) = text := by
  have hskip : ∀ c ∈ gap, (c == ' ' || c == ',') = true := by
    intro c hc
    cases first with
    | true => simp [hgap c hc]
    | false =>
        obtain ⟨before, after, rfl, hbefore, hafter⟩ := hgap
        rcases List.mem_append.mp hc with hc | hc
        · simp [hbefore c hc]
        · rcases List.mem_cons.mp hc with rfl | hc
          · rfl
          · simp [hafter c hc]
  obtain ⟨c, tail, rfl, hblank, hcomma, -, -⟩ := htext
  rw [skipGap, List.dropWhile_append_of_pos hskip, List.dropWhile_cons_of_neg]
  simpa using ⟨hblank, hcomma⟩

/-- The blanks before the end of a container are passed over. -/
theorem skipGap_close {close rest : Text} {c : Char} (hclose : Json.Blank close) (hblank : c ≠ ' ')
    (hcomma : c ≠ ',') : skipGap (close ++ c :: rest) = c :: rest := by
  rw [skipGap, List.dropWhile_append_of_pos fun d hd => by simp [hclose d hd],
    List.dropWhile_cons_of_neg]
  simpa using ⟨hblank, hcomma⟩

/-- No word goes on in the text. -/
def EndsWord (text : Text) : Prop := ∀ c ∈ text.head?, isWordChar c = false

theorem endsWord_blank {gap text : Text} (hgap : Json.Blank gap) (htext : EndsWord text) :
    EndsWord (gap ++ text) := by
  cases gap with
  | nil => exact htext
  | cons d gap =>
      intro c hc
      obtain rfl : d = c := by simpa using hc
      rw [hgap d (by simp)]
      rfl

theorem endsWord_separated {gap : Text} (hgap : Separates false gap) (text : Text) :
    EndsWord (gap ++ text) := by
  obtain ⟨before, after, rfl, hbefore, -⟩ := hgap
  rw [List.append_assoc]
  apply endsWord_blank hbefore
  intro c hc
  obtain rfl : ',' = c := by simpa using hc
  rfl

/-- Behind an item stands the gap of the next one or the end of the array. -/
theorem endsWord_items {items : List (Text × Doc)} {close rest : Text}
    (hitems : PlainItems false items) (hclose : Json.Blank close) :
    EndsWord (renderItems items ++ (close ++ ']' :: rest)) := by
  cases items with
  | nil =>
      apply endsWord_blank hclose
      intro c hc
      obtain rfl : ']' = c := by simpa using hc
      rfl
  | cons item items =>
      rw [PlainItems] at hitems
      rw [renderItems, List.append_assoc]
      exact endsWord_separated hitems.1 _

/-- Behind the value of a member stands the gap of the next one or the end of the object. -/
theorem endsWord_members {members : List (Text × Text × Text × Doc)} {close rest : Text}
    (hmembers : PlainMembers false members) (hclose : Json.Blank close) :
    EndsWord (renderMembers members ++ (close ++ '}' :: rest)) := by
  cases members with
  | nil =>
      apply endsWord_blank hclose
      intro c hc
      obtain rfl : '}' = c := by simpa using hc
      rfl
  | cons m members =>
      rw [PlainMembers] at hmembers
      rw [renderMembers, List.append_assoc]
      exact endsWord_separated hmembers.1 _

theorem readItems_cons {fuel : Nat} {text : Text} (h : Starts text) :
    readItems (fuel + 1) text = (readDoc fuel text).bind fun r =>
      (readItems fuel (skipGap r.2)).map fun s => (([], r.1) :: s.1, s.2) := by
  obtain ⟨c, tail, rfl, -, -, hclose, -⟩ := h
  rw [readItems]
  intro text heq
  exact hclose (List.cons.inj heq).1

theorem readDoc_word {fuel : Nat} {text rest : Text} (h : PlainWord text) (hrest : EndsWord rest) :
    readDoc (fuel + 1) (text ++ rest) = some (.word text, rest) := by
  obtain ⟨hne, hchars⟩ := h.word
  obtain ⟨c, tail, rfl⟩ := List.exists_cons_of_ne_nil hne
  have hc := hchars c (by simp)
  have htake : (c :: tail ++ rest).takeWhile isWordChar = c :: tail := by
    rw [List.takeWhile_append_of_pos hchars]
    cases rest with
    | nil => simp
    | cons d rest => simp [hrest d rfl]
  have hdrop : (c :: tail ++ rest).dropWhile isWordChar = rest := by
    rw [List.dropWhile_append_of_pos hchars]
    cases rest with
    | nil => rfl
    | cons d rest => exact List.dropWhile_cons_of_neg (by simp [hrest d rfl])
  rw [List.cons_append] at htake hdrop ⊢
  rw [readDoc, htake, hdrop]
  all_goals
    intro text heq
    rw [(List.cons.inj heq).1] at hc
    exact absurd hc (by decide)

theorem skipBlanks_render {colon rest : Text} {x : Doc} (hcolon : Json.Blank colon) (hx : x.Plain) :
    Json.skipBlanks (colon ++ (x.render ++ rest)) = x.render ++ rest := by
  apply Json.skipBlanks_append hcolon
  obtain ⟨c, tail, heq, hblank, -⟩ := starts_render hx rest
  rw [heq]
  simpa using hblank

mutual

/-- The reader hands back the value of the document. -/
theorem readDoc_render : ∀ (x : Doc) (fuel : Nat) (rest : Text), x.Plain → x.render.length ≤ fuel →
    EndsWord rest → readDoc fuel (x.render ++ rest) = some (x.bare, rest)
  | .string text, fuel + 1, rest, hplain, _, _ => by
      rw [Plain] at hplain
      rw [render, List.cons_append, List.append_assoc, List.singleton_append, readDoc,
        Json.readString_append hplain]
      rfl
  | .word text, fuel + 1, rest, hplain, _, hrest => by
      rw [Plain] at hplain
      exact readDoc_word hplain hrest
  | .array items close, fuel + 1, rest, hplain, hfuel, _ => by
      rw [Plain] at hplain
      have hlength : (renderItems items ++ close).length < fuel := by
        simp only [render, List.length_cons, List.length_append, List.length_nil] at hfuel ⊢
        omega
      have hitems := readItems_render true items close fuel rest hplain.2 hplain.1 hlength
      simp only [render, List.cons_append, List.append_assoc, List.nil_append]
      rw [readDoc, hitems]
      rfl
  | .object members close, fuel + 1, rest, hplain, hfuel, _ => by
      rw [Plain] at hplain
      have hlength : (renderMembers members ++ close).length < fuel := by
        simp only [render, List.length_cons, List.length_append, List.length_nil] at hfuel ⊢
        omega
      have hmembers := readMembers_render true members close fuel rest hplain.2 hplain.1 hlength
      simp only [render, List.cons_append, List.append_assoc, List.nil_append]
      rw [readDoc, hmembers]
      rfl
  | .word text, 0, _, hplain, hfuel, _ => by
      rw [Plain] at hplain
      exact absurd (List.eq_nil_of_length_eq_zero (Nat.le_zero.mp hfuel)) hplain.word.1
  | .string text, 0, _, _, hfuel, _ => absurd hfuel (Nat.not_succ_le_zero _)
  | .array items close, 0, _, _, hfuel, _ => absurd hfuel (Nat.not_succ_le_zero _)
  | .object members close, 0, _, _, hfuel, _ => absurd hfuel (Nat.not_succ_le_zero _)

theorem readItems_render : ∀ (first : Bool) (items : List (Text × Doc)) (close : Text) (fuel : Nat)
    (rest : Text), PlainItems first items → Json.Blank close →
      (renderItems items ++ close).length < fuel →
        readItems fuel (skipGap (renderItems items ++ (close ++ ']' :: rest))) =
          some (bareItems items, rest)
  | first, [], close, fuel + 1, rest, _, hclose, _ => by
      rw [renderItems, List.nil_append, skipGap_close hclose (by decide) (by decide), readItems]
      rfl
  | first, (gap, x) :: items, close, fuel + 1, rest, hitems, hclose, hfuel => by
      rw [PlainItems] at hitems
      obtain ⟨hgap, hx, hitems⟩ := hitems
      simp only [renderItems, List.length_append] at hfuel
      have hstarts := starts_render hx (renderItems items ++ (close ++ ']' :: rest))
      have hlength : (renderItems items ++ close).length < fuel := by
        have hpos : 0 < x.render.length := by
          obtain ⟨c, tail, heq, -⟩ := starts_render hx []
          rw [List.append_nil] at heq
          simp [heq]
        rw [List.length_append]
        omega
      rw [renderItems, List.append_assoc, List.append_assoc, skipGap_append hgap hstarts,
        readItems_cons hstarts,
        readDoc_render x fuel _ hx (by omega) (endsWord_items hitems hclose), Option.bind_some,
        readItems_render false items close fuel rest hitems hclose hlength]
      rfl
  | _, _, _, 0, _, _, _, hfuel => absurd hfuel (Nat.not_lt_zero _)

theorem readMembers_render : ∀ (first : Bool) (members : List (Text × Text × Text × Doc))
    (close : Text) (fuel : Nat) (rest : Text), PlainMembers first members → Json.Blank close →
      (renderMembers members ++ close).length < fuel →
        readMembers fuel (skipGap (renderMembers members ++ (close ++ '}' :: rest))) =
          some (bareMembers members, rest)
  | first, [], close, fuel + 1, rest, _, hclose, _ => by
      rw [renderMembers, List.nil_append, skipGap_close hclose (by decide) (by decide), readMembers]
      rfl
  | first, (gap, key, colon, x) :: members, close, fuel + 1, rest, hmembers, hclose, hfuel => by
      rw [PlainMembers] at hmembers
      obtain ⟨hgap, hkey, hcolon, hx, hmembers⟩ := hmembers
      simp only [renderMembers, List.length_append, List.length_cons] at hfuel
      have hlength : (renderMembers members ++ close).length < fuel := by
        rw [List.length_append]
        omega
      simp only [renderMembers, List.append_assoc, List.cons_append]
      rw [skipGap_append hgap ⟨'"', _, rfl, by decide, by decide, by decide, by decide⟩, readMembers,
        Json.readString_append hkey, Option.bind_some, List.drop_succ_cons, List.drop_zero,
        skipBlanks_render hcolon hx,
        readDoc_render x fuel _ hx (by omega) (endsWord_members hmembers hclose), Option.bind_some,
        readMembers_render false members close fuel rest hmembers hclose hlength]
      rfl
  | _, _, _, 0, _, _, _, hfuel => absurd hfuel (Nat.not_lt_zero _)

end

theorem readsDocuments_readDocument : ReadsDocuments readDocument := by
  intro x hx
  have hread := readDoc_render x x.render.length [] hx (Nat.le_refl _) nofun
  rw [List.append_nil] at hread
  rw [readDocument, hread]

/-! ## The search for a key -/

mutual

/-- No string and no key in the document is the given one. -/
def Silent (key : Text) : Doc → Prop
  | .string text => text ≠ key
  | .word _ => True
  | .array items _ => SilentItems key items
  | .object members _ => SilentMembers key members

/-- The same of items. -/
def SilentItems (key : Text) : List (Text × Doc) → Prop
  | [] => True
  | (_, x) :: items => x.Silent key ∧ SilentItems key items

/-- The same of members. -/
def SilentMembers (key : Text) : List (Text × Text × Text × Doc) → Prop
  | [] => True
  | (_, name, _, x) :: members => name ≠ key ∧ x.Silent key ∧ SilentMembers key members

end

/-- A key of letters. -/
structure Searchable (key : Text) : Prop where
  quote : '"' ∉ key
  head : ∃ c ∈ key.head?, isWordChar c = true ∧ c ≠ ':'

section Search

variable {key : Text}

theorem not_prefix_of_head {rest : Text} (h : rest.head? ≠ key.head?) (hne : key ≠ []) :
    ¬ key ++ ['"'] <+: rest := by
  obtain ⟨c, tail, rfl⟩ := List.exists_cons_of_ne_nil hne
  rintro ⟨more, rfl⟩
  exact h rfl

/-- The search passes over a character that is no quote. -/
theorem strstr_cons (key : Text) {c : Char} (h : c ≠ '"') (rest : Text) :
    strstr (quoted key) (c :: rest) = strstr (quoted key) rest :=
  @strstr_append _ _ [c] _ (by simpa using h.symm)

theorem strstr_gap (key : Text) {first : Bool} {gap : Text} (hgap : Separates first gap)
    (rest : Text) : strstr (quoted key) (gap ++ rest) = strstr (quoted key) rest := by
  apply strstr_append
  cases first with
  | true => exact fun h => absurd (hgap _ h) (by decide)
  | false =>
      obtain ⟨before, after, rfl, hbefore, hafter⟩ := hgap
      intro h
      rcases List.mem_append.mp h with h | h
      · exact absurd (hbefore _ h) (by decide)
      · rcases List.mem_cons.mp h with h | h
        · exact absurd h (by decide)
        · exact absurd (hafter _ h) (by decide)

theorem strstr_blank (key : Text) {gap : Text} (hgap : Json.Blank gap) (rest : Text) :
    strstr (quoted key) (gap ++ rest) = strstr (quoted key) rest :=
  strstr_append fun h => absurd (hgap _ h) (by decide)

theorem strstr_string (hkey : Searchable key) {text rest : Text} (htext : Json.PlainText text)
    (hne : text ≠ key) (hrest : rest.head? ≠ key.head?) :
    strstr (quoted key) (quoted text ++ rest) = strstr (quoted key) rest := by
  have hquote : '"' ∉ text := fun h => (htext _ h).1 rfl
  have hnil : key ≠ [] := by
    obtain ⟨c, hc, -⟩ := hkey.head
    rintro rfl
    cases hc
  have hprefixed : ¬ (quoted key).isPrefixOf ('"' :: rest) = true := by
    rw [List.isPrefixOf_iff_prefix, quoted, List.cons_prefix_cons]
    exact fun h => not_prefix_of_head hrest hnil h.2
  rw [strstr_quoted hkey.quote hquote hne.symm]
  simp only [quoted] at hprefixed ⊢
  rw [strstr, if_neg hprefixed]

theorem head_ne_of_endsWord (hkey : Searchable key) {rest : Text} (h : EndsWord rest) :
    rest.head? ≠ key.head? := by
  obtain ⟨c, hc, hword, -⟩ := hkey.head
  intro heq
  rw [h c (heq ▸ hc)] at hword
  cases hword

mutual

/-- The search passes over a plain document that is silent about the key. -/
theorem strstr_render (hkey : Searchable key) : ∀ (x : Doc) (rest : Text), x.Plain →
    x.Silent key → EndsWord rest → strstr (quoted key) (x.render ++ rest) = strstr (quoted key) rest
  | .string text, rest, hplain, hsilent, hrest => by
      rw [Plain] at hplain
      rw [Silent] at hsilent
      exact strstr_string hkey hplain hsilent (head_ne_of_endsWord hkey hrest)
  | .word text, rest, hplain, _, _ => by
      rw [Plain] at hplain
      exact strstr_append fun h => absurd (hplain.word.2 _ h) (by decide)
  | .array items close, rest, hplain, hsilent, _ => by
      rw [Plain] at hplain
      rw [Silent] at hsilent
      have hitems := strstr_renderItems hkey true items close rest hplain.2 hplain.1 hsilent
      rw [render, List.cons_append, List.append_assoc, List.append_assoc, List.singleton_append,
        strstr_cons key (by decide)]
      exact hitems
  | .object members close, rest, hplain, hsilent, _ => by
      rw [Plain] at hplain
      rw [Silent] at hsilent
      have hmembers := strstr_renderMembers hkey true members hplain.2 hsilent (close ++ '}' :: rest)
        (endsWord_blank hplain.1 (fun c hc => by cases hc; rfl))
      rw [render, List.cons_append, List.append_assoc, List.append_assoc, List.singleton_append,
        strstr_cons key (by decide), hmembers, strstr_blank key hplain.1, strstr_cons key (by decide)]

theorem strstr_renderItems (hkey : Searchable key) : ∀ (first : Bool) (items : List (Text × Doc))
    (close rest : Text), PlainItems first items → Json.Blank close → SilentItems key items →
      strstr (quoted key) (renderItems items ++ (close ++ ']' :: rest)) = strstr (quoted key) rest
  | first, [], close, rest, _, hclose, _ => by
      rw [renderItems, List.nil_append, strstr_blank key hclose, strstr_cons key (by decide)]
  | first, (gap, x) :: items, close, rest, hplain, hclose, hsilent => by
      rw [PlainItems] at hplain
      rw [SilentItems] at hsilent
      rw [renderItems, List.append_assoc, List.append_assoc, strstr_gap key hplain.1,
        strstr_render hkey x _ hplain.2.1 hsilent.1 (endsWord_items hplain.2.2 hclose),
        strstr_renderItems hkey false items close rest hplain.2.2 hclose hsilent.2]

theorem strstr_renderMembers (hkey : Searchable key) : ∀ (first : Bool)
    (members : List (Text × Text × Text × Doc)), PlainMembers first members →
      SilentMembers key members → ∀ rest, EndsWord rest →
        strstr (quoted key) (renderMembers members ++ rest) = strstr (quoted key) rest
  | _, [], _, _, rest, _ => rfl
  | first, (gap, name, colon, x) :: members, hplain, hsilent, rest, hrest => by
      rw [PlainMembers] at hplain
      rw [SilentMembers] at hsilent
      obtain ⟨hgap, hname, hcolon, hx, hmembers⟩ := hplain
      have hends : EndsWord (renderMembers members ++ rest) := by
        cases members with
        | nil => exact hrest
        | cons m members =>
            rw [PlainMembers] at hmembers
            rw [renderMembers, List.append_assoc]
            exact endsWord_separated hmembers.1 _
      have hcolonHead : (':' :: (colon ++ (x.render ++ (renderMembers members ++ rest)))).head? ≠
          key.head? := by
        obtain ⟨c, hc, -, hne⟩ := hkey.head
        rw [hc]
        exact fun h => hne (Option.some.inj h).symm
      have hrender : renderMembers ((gap, name, colon, x) :: members) ++ rest =
          gap ++ (quoted name ++ ':' :: (colon ++ (x.render ++ (renderMembers members ++ rest)))) := by
        simp only [renderMembers, quoted, List.append_assoc, List.cons_append, List.nil_append]
      rw [hrender, strstr_gap key hgap, strstr_string hkey hname hsilent.1 hcolonHead,
        strstr_cons key (by decide), strstr_blank key hcolon, strstr_render hkey x _ hx hsilent.2.1 hends,
        strstr_renderMembers hkey false members hmembers hsilent.2.2 rest hrest]

end

end Search

end Doc

end XHDF5.Math
