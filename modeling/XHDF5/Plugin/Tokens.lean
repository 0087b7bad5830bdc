/-
# Texts that the tokenizer takes apart

The tokenizer passes over the blanks and commas between the parts of a document wherever they stand.
The tokens of the document are laid out from the positions in its text. The tokenizer returns these
tokens, unless there are more of them than it has room for.
-/

import Mathlib.Data.List.Induction
import XHDF5.Math.Document
import XHDF5.Plugin.Jsmn

/-! ## Documents -/

namespace XHDF5.Math.Doc

open XHDF5.Plugin

mutual

/-- The tokens of a document whose text begins at the position. -/
def tokens (pos : Nat) : Doc → List JsmnTok
  | .string text => [⟨.string, pos + 1, some (pos + 1 + text.length), 0⟩]
  | .word text => [⟨.primitive, pos, some (pos + text.length), 0⟩]
  | .array items close =>
      ⟨.array, pos, some (pos + (Doc.array items close).render.length), items.length⟩ ::
        tokensItems (pos + 1) items
  | .object members close =>
      ⟨.object, pos, some (pos + (Doc.object members close).render.length), members.length⟩ ::
        tokensMembers (pos + 1) members

/-- The tokens of items. -/
def tokensItems (pos : Nat) : List (Text × Doc) → List JsmnTok
  | [] => []
  | (gap, x) :: items =>
      tokens (pos + gap.length) x ++ tokensItems (pos + gap.length + x.render.length) items

/-- The tokens of members. -/
def tokensMembers (pos : Nat) : List (Text × Text × Text × Doc) → List JsmnTok
  | [] => []
  | (gap, key, colon, x) :: members =>
      ⟨.string, pos + gap.length + 1, some (pos + gap.length + 1 + key.length), 1⟩ ::
        (tokens (pos + gap.length + key.length + 3 + colon.length) x ++
          tokensMembers (pos + gap.length + key.length + 3 + colon.length + x.render.length)
            members)

end

/-- Blanks and commas. -/
def Gap (gap : Text) : Prop := ∀ c ∈ gap, c = ' ' ∨ c = ','

instance (gap : Text) : Decidable (Gap gap) :=
  inferInstanceAs (Decidable (∀ c ∈ gap, c = ' ' ∨ c = ','))

/-- The tokenizer finds the ending quote of the text where it is. -/
def Quotable (text : Text) : Prop :=
  ∀ rest, scanString .plain 0 (text ++ '"' :: rest) = .ok (text.length, rest)

/-- A text that the tokenizer takes for one primitive. -/
def Word (text : Text) : Prop :=
  text ≠ [] ∧ ∀ c ∈ text, c ≠ '{' ∧ c ≠ '[' ∧ c ≠ '"' ∧ endsPrimitive c = false ∧
    badPrimitive c = false

instance (text : Text) : Decidable (Word text) := inferInstanceAs (Decidable (_ ∧ _))

mutual

/-- The document is one the tokenizer understands as it is meant. -/
def Regular : Doc → Prop
  | .string text => Quotable text
  | .word text => Word text
  | .array items close => Gap close ∧ RegularItems items
  | .object members close => Gap close ∧ RegularMembers members

/-- A comma or the end of the array follows every item. -/
def RegularItems : List (Text × Doc) → Prop
  | [] => True
  | (gap, x) :: items =>
      Gap gap ∧ x.Regular ∧ (∀ next ∈ items.head?, next.1 ≠ []) ∧ RegularItems items

/-- A comma stands before every member but the first. -/
def RegularMembers : List (Text × Text × Text × Doc) → Prop
  | [] => True
  | (gap, key, colon, x) :: members =>
      Gap gap ∧ Quotable key ∧ Json.Blank colon ∧ x.Regular ∧
        (∀ next ∈ members.head?, ',' ∈ next.1) ∧ RegularMembers members

end

end XHDF5.Math.Doc

namespace XHDF5.Plugin

open XHDF5.Math

/-! ## Single steps -/

section Steps

variable {numTokens : Nat} {rest : Text} {p : JsmnParser}

/-- The loop reads the text in front of the rest, with enough rounds left for the rest. -/
def ReadsTo (numTokens : Nat) (text rest : Text) (p : JsmnParser)
    (result : Except JsmnErr JsmnParser) : Prop :=
  ∀ rounds, (text ++ rest).length ≤ rounds → ∃ left, rest.length ≤ left ∧
    jsmnLoop numTokens rounds (text ++ rest) p = result.bind (jsmnLoop numTokens left rest)

theorem readsTo_nil : ReadsTo numTokens [] rest p (.ok p) :=
  fun rounds hrounds => ⟨rounds, hrounds, rfl⟩

theorem readsTo_bind {first second : Text} {result : Except JsmnErr JsmnParser}
    {next : JsmnParser → Except JsmnErr JsmnParser}
    (hfirst : ReadsTo numTokens first (second ++ rest) p result)
    (hsecond : ∀ q, result = .ok q → ReadsTo numTokens second rest q (next q)) :
    ReadsTo numTokens (first ++ second) rest p (result.bind next) := by
  intro rounds hrounds
  rw [List.append_assoc] at hrounds ⊢
  obtain ⟨left, hleft, heq⟩ := hfirst rounds hrounds
  rw [heq]
  cases result with
  | error e => exact ⟨rest.length, Nat.le_refl _, rfl⟩
  | ok q =>
      obtain ⟨final, hfinal, hq⟩ := hsecond q rfl left hleft
      exact ⟨final, hfinal, hq⟩

theorem readsTo_char {c : Char} {result : Except JsmnErr JsmnParser}
    (h : ∀ rounds text, jsmnLoop numTokens (rounds + 1) (c :: text) p =
      result.bind (jsmnLoop numTokens rounds text)) : ReadsTo numTokens [c] rest p result := by
  intro rounds hrounds
  cases rounds with
  | zero => cases hrounds
  | succ rounds =>
      refine ⟨rounds, ?_, h rounds rest⟩
      simpa using hrounds

theorem readsTo_blank : ReadsTo numTokens [' '] rest p (.ok { p with pos := p.pos + 1 }) := by
  apply readsTo_char
  intro rounds text
  rw [jsmnLoop]
  simp
  rfl

theorem readsTo_comma : ReadsTo numTokens [','] rest p (.ok (jsmnComma p)) := by
  apply readsTo_char
  intro rounds text
  rw [jsmnLoop]
  simp
  rfl

theorem readsTo_colon : ReadsTo numTokens [':'] rest p (.ok (jsmnColon p)) := by
  apply readsTo_char
  intro rounds text
  rw [jsmnLoop]
  simp
  rfl

theorem readsTo_openArray : ReadsTo numTokens ['['] rest p (jsmnOpen numTokens .array p) := by
  apply readsTo_char
  intro rounds text
  rw [jsmnLoop]
  simp

theorem readsTo_openObject : ReadsTo numTokens ['{'] rest p (jsmnOpen numTokens .object p) := by
  apply readsTo_char
  intro rounds text
  rw [jsmnLoop]
  simp

theorem readsTo_closeArray : ReadsTo numTokens [']'] rest p (jsmnClose .array p) := by
  apply readsTo_char
  intro rounds text
  rw [jsmnLoop]
  simp

theorem readsTo_closeObject : ReadsTo numTokens ['}'] rest p (jsmnClose .object p) := by
  apply readsTo_char
  intro rounds text
  rw [jsmnLoop]
  simp

theorem readsTo_string {text : Text} (htext : Doc.Quotable text) :
    ReadsTo numTokens ('"' :: (text ++ ['"'])) rest p
      (jsmnScalar numTokens .string (p.pos + 1) (p.pos + 1 + text.length)
        (p.pos + 1 + text.length + 1) p) := by
  intro rounds hrounds
  cases rounds with
  | zero => cases hrounds
  | succ rounds =>
      refine ⟨rounds, ?_, ?_⟩
      · simp at hrounds
        omega
      · rw [List.cons_append, List.append_assoc, List.singleton_append, jsmnLoop]
        simp only [htext rest]
        rfl

theorem readsTo_word {text : Text} (htext : Doc.Word text)
    (hrest : ∀ c ∈ rest.head?, endsPrimitive c = true) :
    ReadsTo numTokens text rest p
      (jsmnScalar numTokens .primitive p.pos (p.pos + text.length) (p.pos + text.length) p) := by
  intro rounds hrounds
  obtain ⟨c, tail, rfl⟩ := List.exists_cons_of_ne_nil htext.1
  cases rounds with
  | zero => cases hrounds
  | succ rounds =>
      refine ⟨rounds, ?_, ?_⟩
      · simp at hrounds
        omega
      · have hword : (c :: (tail ++ rest)).takeWhile (fun c => !endsPrimitive c) = c :: tail := by
          rw [← List.cons_append, List.takeWhile_append_of_pos]
          · cases rest with
            | nil => simp
            | cons d rest => simp [hrest d (by simp)]
          · intro d hd
            simp [(htext.2 d hd).2.2.2.1]
        have hbad : (c :: tail).any badPrimitive = false := by
          rw [List.any_eq_false]
          intro d hd
          simp [(htext.2 d hd).2.2.2.2]
        have hc := htext.2 c (by simp)
        have hends := hc.2.2.2.1
        simp only [endsPrimitive, Bool.or_eq_false_iff, beq_eq_false_iff_ne] at hends
        rw [List.cons_append, jsmnLoop]
        simp only [hword, hbad, hc, hends, if_false, or_self, Bool.false_eq_true]
        rw [← List.cons_append, List.drop_left]

end Steps
/-! ## Open tokens -/

/-- No token is open. -/
def AllClosed (tokens : List JsmnTok) : Prop := ∀ token ∈ tokens, token.isOpen = false

theorem lastOpen_append_singleton (tokens : List JsmnTok) (token : JsmnTok) :
    lastOpen (tokens ++ [token]) =
      if token.isOpen then some tokens.length else lastOpen tokens := by
  unfold lastOpen
  rw [List.reverse_append, List.reverse_singleton, List.singleton_append, List.findIdx?_cons]
  cases token.isOpen with
  | true => simp
  | false =>
      simp only [Bool.false_eq_true, if_false, Option.map_map, List.length_append,
        List.length_singleton]
      congr 1
      funext k
      simp only [Function.comp]
      omega

theorem lastOpen_append {tokens closed : List JsmnTok} (hclosed : AllClosed closed) :
    lastOpen (tokens ++ closed) = lastOpen tokens := by
  induction closed using List.reverseRecOn with
  | nil => rw [List.append_nil]
  | append_singleton closed token ih =>
      rw [← List.append_assoc, lastOpen_append_singleton, hclosed token (by simp),
        ih fun t ht => hclosed t (List.mem_append_left _ ht)]
      rfl

theorem lastOpen_open {tokens closed : List JsmnTok} {token : JsmnTok}
    (hopen : token.isOpen = true) (hclosed : AllClosed closed) :
    lastOpen (tokens ++ token :: closed) = some tokens.length := by
  rw [← List.singleton_append, ← List.append_assoc, lastOpen_append hclosed,
    lastOpen_append_singleton, hopen]
  rfl

end XHDF5.Plugin

namespace XHDF5.Math.Doc

open XHDF5.Plugin

mutual

theorem tokens_closed : ∀ (x : Doc) (pos : Nat), AllClosed (x.tokens pos)
  | .string text, pos => by
      intro token htoken
      rw [List.mem_singleton.mp htoken]
      rfl
  | .word text, pos => by
      intro token htoken
      rw [List.mem_singleton.mp htoken]
      rfl
  | .array items close, pos => by
      intro token htoken
      rcases List.mem_cons.mp htoken with rfl | htoken
      · rfl
      · exact tokensItems_closed items (pos + 1) token htoken
  | .object members close, pos => by
      intro token htoken
      rcases List.mem_cons.mp htoken with rfl | htoken
      · rfl
      · exact tokensMembers_closed members (pos + 1) token htoken

theorem tokensItems_closed : ∀ (items : List (Text × Doc)) (pos : Nat),
    AllClosed (tokensItems pos items)
  | [], pos => by
      intro token htoken
      cases htoken
  | (gap, x) :: items, pos => by
      intro token htoken
      rcases List.mem_append.mp htoken with htoken | htoken
      · exact tokens_closed x _ token htoken
      · exact tokensItems_closed items _ token htoken

theorem tokensMembers_closed : ∀ (members : List (Text × Text × Text × Doc)) (pos : Nat),
    AllClosed (tokensMembers pos members)
  | [], pos => by
      intro token htoken
      cases htoken
  | (gap, key, colon, x) :: members, pos => by
      intro token htoken
      rcases List.mem_cons.mp htoken with rfl | htoken
      · rfl
      · rcases List.mem_append.mp htoken with htoken | htoken
        · exact tokens_closed x _ token htoken
        · exact tokensMembers_closed members _ token htoken

end

end XHDF5.Math.Doc

namespace XHDF5.Plugin

open XHDF5.Math

section Super

variable {numTokens : Nat} {rest : Text} {p : JsmnParser}

/-- The container of a token. -/
def JsmnTok.isContainer (token : JsmnTok) : Prop := token.type = .array ∨ token.type = .object

/-- The last open token is `k`, and the parent is that token or one that holds a single value. -/
structure Within (k : Nat) (p : JsmnParser) : Prop where
  open_ : lastOpen p.tokens = some k
  container : ∀ token ∈ p.tokens[k]?, token.isContainer
  parent : ∃ s < p.tokens.length, p.toksuper = some s ∧
    (s = k ∨ ∀ token ∈ p.tokens[s]?, ¬ token.isContainer)

/-- A comma makes the last open token the parent. -/
theorem Within.comma {k : Nat} (h : Within k p) : (jsmnComma p).toksuper = some k ∧
    (jsmnComma p).tokens = p.tokens ∧ (jsmnComma p).pos = p.pos + 1 := by
  obtain ⟨s, hs, hsuper, hparent⟩ := h.parent
  have htoken : p.tokens[s]? = some p.tokens[s] := List.getElem?_eq_getElem hs
  unfold jsmnComma
  rw [hsuper, Option.bind_some, htoken]
  by_cases hcontainer : p.tokens[s].isContainer
  · have hk : s = k := by
      rcases hparent with hk | hnot
      · exact hk
      · exact absurd hcontainer (hnot _ htoken)
    simp only [show p.tokens[s].type = .array ∨ p.tokens[s].type = .object from hcontainer, if_true]
    exact ⟨congrArg some hk, trivial, trivial⟩
  · simp only [show ¬ (p.tokens[s].type = .array ∨ p.tokens[s].type = .object) from hcontainer,
      if_false, h.open_]
    exact ⟨rfl, trivial, trivial⟩

/-- A gap leaves the tokens; with a comma in it the last open token is the parent. -/
theorem readsTo_gap {k : Nat} {gap : Text} (hgap : Doc.Gap gap) (h : Within k p) :
    ∃ super, ReadsTo numTokens gap rest p (.ok ⟨p.pos + gap.length, p.tokens, super⟩) ∧
      Within k ⟨p.pos + gap.length, p.tokens, super⟩ ∧
        (',' ∈ gap ∨ p.toksuper = some k → super = some k) := by
  induction gap generalizing p with
  | nil =>
      exact ⟨p.toksuper, readsTo_nil, h, fun hsuper => hsuper.resolve_left List.not_mem_nil⟩
  | cons c gap ih =>
      have hlength (pos : Nat) : pos + 1 + gap.length = pos + (c :: gap).length := by
        rw [List.length_cons]
        omega
      rcases hgap c (by simp) with rfl | rfl
      · obtain ⟨super, hreads, hwithin, hsuper⟩ := ih (p := { p with pos := p.pos + 1 })
          (fun d hd => hgap d (List.mem_cons_of_mem _ hd)) ⟨h.open_, h.container, h.parent⟩
        simp only [hlength] at hreads hwithin
        refine ⟨super, ?_, hwithin, fun hcomma => hsuper (hcomma.imp_left fun hmem => ?_)⟩
        · have hchar : ReadsTo numTokens [' '] (gap ++ rest) p
              (.ok { p with pos := p.pos + 1 }) := readsTo_blank
          exact readsTo_bind hchar fun q hq => Except.ok.inj hq ▸ hreads
        · simpa using hmem
      · obtain ⟨hk, htokens, hpos⟩ := h.comma
        have hnext : Within k (jsmnComma p) := by
          have hlt : k < p.tokens.length := by
            obtain ⟨s, hs, hsuper, hparent⟩ := h.parent
            by_contra hge
            have hnone := h.open_
            unfold lastOpen at hnone
            cases hfind : p.tokens.reverse.findIdx? JsmnTok.isOpen with
            | none => simp [hfind] at hnone
            | some j =>
                simp [hfind] at hnone
                omega
          refine ⟨by rw [htokens]; exact h.open_, by rw [htokens]; exact h.container, k, ?_, hk,
            Or.inl rfl⟩
          rwa [htokens]
        obtain ⟨super, hreads, hwithin, hsuper⟩ := ih (p := jsmnComma p)
          (fun d hd => hgap d (List.mem_cons_of_mem _ hd)) hnext
        simp only [htokens, hpos, hlength] at hreads hwithin
        refine ⟨super, ?_, hwithin, fun _ => hsuper (Or.inr hk)⟩
        have hchar : ReadsTo numTokens [','] (gap ++ rest) p (.ok (jsmnComma p)) := readsTo_comma
        exact readsTo_bind hchar fun q hq => Except.ok.inj hq ▸ hreads

/-- Blanks leave the parent as well. -/
theorem readsTo_blanks {gap : Text} (hgap : Json.Blank gap) :
    ReadsTo numTokens gap rest p (.ok ⟨p.pos + gap.length, p.tokens, p.toksuper⟩) := by
  induction gap generalizing p with
  | nil => exact readsTo_nil
  | cons c gap ih =>
      have hc : c = ' ' := hgap c (by simp)
      have hlater := ih (p := { p with pos := p.pos + 1 }) fun d hd =>
        hgap d (List.mem_cons_of_mem _ hd)
      have hlength : p.pos + 1 + gap.length = p.pos + (c :: gap).length := by
        rw [List.length_cons]
        omega
      simp only [hlength] at hlater
      have hchar : ReadsTo numTokens [c] (gap ++ rest) p (.ok { p with pos := p.pos + 1 }) := by
        rw [hc]
        exact readsTo_blank
      exact readsTo_bind hchar fun q hq => Except.ok.inj hq ▸ hlater

end Super
/-! ## Whole documents -/

/-- The tokens with one more value below the parent. -/
def bump (super : Option Nat) (tokens : List JsmnTok) : List JsmnTok :=
  match super with
  | none => tokens
  | some k => tokens.modify k fun token => { token with size := token.size + 1 }

theorem jsmnCount_eq (p : JsmnParser) :
    jsmnCount p = { p with tokens := bump p.toksuper p.tokens } := by
  cases p with
  | mk pos tokens toksuper => cases toksuper <;> rfl

@[simp]
theorem length_bump (super : Option Nat) (tokens : List JsmnTok) :
    (bump super tokens).length = tokens.length := by
  cases super <;> simp [bump]

theorem modify_append {α : Type*} (f : α → α) {tokens : List α} {k : Nat} (h : k < tokens.length)
    (added : List α) : (tokens ++ added).modify k f = tokens.modify k f ++ added := by
  induction tokens generalizing k with
  | nil => cases h
  | cons token tokens ih =>
      cases k with
      | zero => rfl
      | succ k =>
          rw [List.cons_append, List.modify_succ_cons, ih (by simpa using h),
            List.modify_succ_cons, List.cons_append]

theorem modify_length {α : Type*} (f : α → α) (tokens closed : List α) (token : α) :
    (tokens ++ token :: closed).modify tokens.length f = tokens ++ f token :: closed := by
  induction tokens with
  | nil => rfl
  | cons first tokens ih =>
      rw [List.cons_append, List.length_cons, List.modify_succ_cons, ih, List.cons_append]

theorem bump_append {super : Option Nat} {tokens : List JsmnTok}
    (h : ∀ s ∈ super, s < tokens.length) (added : List JsmnTok) :
    bump super (tokens ++ added) = bump super tokens ++ added := by
  cases super with
  | none => rfl
  | some s => exact modify_append _ (h s rfl) added

theorem bump_cons (tokens closed : List JsmnTok) (token : JsmnTok) :
    bump (some tokens.length) (tokens ++ token :: closed) =
      tokens ++ { token with size := token.size + 1 } :: closed := by
  exact modify_length _ tokens closed token

/-- The result of reading when so many tokens are added. -/
def room (numTokens used added : Nat) (q : JsmnParser) : Except JsmnErr JsmnParser :=
  if used + added ≤ numTokens then .ok q else .error .nomem

theorem room_bind (numTokens used first second : Nat) (q r : JsmnParser) :
    (room numTokens used first q).bind (fun _ => room numTokens (used + first) second r) =
      room numTokens used (first + second) r := by
  unfold room
  by_cases hfirst : used + first ≤ numTokens
  · rw [if_pos hfirst, Nat.add_assoc]
    rfl
  · have hboth : ¬ used + (first + second) ≤ numTokens := by omega
    rw [if_neg hfirst, if_neg hboth]
    rfl

theorem readsTo_ok {numTokens : Nat} {first second rest : Text} {p q : JsmnParser}
    {result : Except JsmnErr JsmnParser}
    (hfirst : ReadsTo numTokens first (second ++ rest) p (.ok q))
    (hsecond : ReadsTo numTokens second rest q result) :
    ReadsTo numTokens (first ++ second) rest p result :=
  @readsTo_bind _ _ _ _ _ _ (fun _ => result) hfirst fun _ hq => Except.ok.inj hq ▸ hsecond

theorem room_zero {numTokens used : Nat} (h : used ≤ numTokens) (q : JsmnParser) :
    room numTokens used 0 q = .ok q := if_pos h

theorem room_eq_ok {numTokens used added : Nat} {q r : JsmnParser}
    (h : room numTokens used added q = .ok r) : r = q ∧ used + added ≤ numTokens := by
  unfold room at h
  split at h
  · next hroom => exact ⟨(Except.ok.inj h).symm, hroom⟩
  · cases h

/-- Two texts are read one behind the other while there is room. -/
theorem readsTo_room {numTokens used added more : Nat} {first second rest : Text}
    {p q r : JsmnParser}
    (hfirst : ReadsTo numTokens first (second ++ rest) p (room numTokens used added q))
    (hsecond : used + added ≤ numTokens →
      ReadsTo numTokens second rest q (room numTokens (used + added) more r)) :
    ReadsTo numTokens (first ++ second) rest p (room numTokens used (added + more) r) := by
  rw [← room_bind numTokens used added more q r]
  apply readsTo_bind hfirst
  intro s hs
  have hroom := room_eq_ok hs
  rw [hroom.1]
  exact hsecond hroom.2

/-- Which token is the last open one does not depend on the sizes. -/
theorem lastOpen_bump (super : Option Nat) (tokens : List JsmnTok) :
    lastOpen (bump super tokens) = lastOpen tokens := by
  have hopen (tokens : List JsmnTok) : tokens.reverse.findIdx? JsmnTok.isOpen =
      (tokens.map JsmnTok.isOpen).reverse.findIdx? id := by
    rw [← List.map_reverse, List.findIdx?_map]
    rfl
  have hmap : (bump super tokens).map JsmnTok.isOpen = tokens.map JsmnTok.isOpen := by
    cases super with
    | none => rfl
    | some k =>
        rw [bump]
        induction tokens generalizing k with
        | nil => cases k <;> rfl
        | cons token tokens ih =>
            cases k with
            | zero => rfl
            | succ k => rw [List.modify_succ_cons, List.map_cons, ih, List.map_cons]
  unfold lastOpen
  rw [hopen, hmap, ← hopen, length_bump]

section Documents

variable {numTokens : Nat} {rest : Text} {p : JsmnParser}

theorem jsmnScalar_eq (hsuper : ∀ s ∈ p.toksuper, s < p.tokens.length) (type : JsmnType)
    (start stop next : Nat) :
    jsmnScalar numTokens type start stop next p = room numTokens p.tokens.length 1
      ⟨next, bump p.toksuper p.tokens ++ [⟨type, start, some stop, 0⟩], p.toksuper⟩ := by
  unfold jsmnScalar jsmnAllocToken room
  by_cases h : numTokens ≤ p.tokens.length
  · rw [if_pos h, if_neg (by omega)]
    rfl
  · rw [if_neg h, if_pos (by omega), ← bump_append hsuper]
    simp only [Except.map, jsmnCount_eq]

theorem jsmnOpen_eq (type : JsmnType) :
    jsmnOpen numTokens type p = room numTokens p.tokens.length 1
      ⟨p.pos + 1, bump p.toksuper p.tokens ++ [⟨type, p.pos, none, 0⟩],
        some p.tokens.length⟩ := by
  unfold jsmnOpen jsmnAllocToken room
  rw [jsmnCount_eq, length_bump]
  by_cases h : numTokens ≤ p.tokens.length
  · rw [if_pos h, if_neg (by omega)]
    rfl
  · rw [if_neg h, if_pos (by omega)]
    simp [Except.map]

theorem jsmnClose_eq {tokens closed : List JsmnTok} {type : JsmnType} {start size : Nat}
    (htokens : p.tokens = tokens ++ ⟨type, start, none, size⟩ :: closed)
    (hclosed : AllClosed closed) :
    jsmnClose type p = .ok ⟨p.pos + 1,
      tokens ++ ⟨type, start, some (p.pos + 1), size⟩ :: closed, lastOpen tokens⟩ := by
  have hopen : lastOpen p.tokens = some tokens.length := by
    rw [htokens]
    exact lastOpen_open rfl hclosed
  have hmodify : p.tokens.modify tokens.length
      (fun token => { token with stop := some (p.pos + 1) }) =
      tokens ++ ⟨type, start, some (p.pos + 1), size⟩ :: closed := by
    rw [htokens]
    exact modify_length _ tokens closed _
  have hlast : lastOpen (tokens ++ ⟨type, start, some (p.pos + 1), size⟩ :: closed) =
      lastOpen tokens := by
    apply lastOpen_append
    intro token htoken
    rcases List.mem_cons.mp htoken with rfl | htoken
    · rfl
    · exact hclosed token htoken
  have htype : (p.tokens[tokens.length]?).map JsmnTok.type = some type := by
    rw [htokens]
    simp
  unfold jsmnClose
  rw [hopen]
  simp only [htype, hmodify, hlast, ne_eq, not_true_eq_false, if_false]

/-- The parent is the open token or a token that is no container. -/
theorem within_of {tokens closed : List JsmnTok} {token : JsmnTok} {s : Nat}
    (htokens : p.tokens = tokens ++ token :: closed) (hopen : token.isOpen = true)
    (hcontainer : token.isContainer) (hclosed : AllClosed closed) (hsuper : p.toksuper = some s)
    (hs : s = tokens.length ∨
      (s < p.tokens.length ∧ ∀ t ∈ p.tokens[s]?, ¬ t.isContainer)) :
    Within tokens.length p := by
  refine ⟨?_, ?_, s, ?_, hsuper, hs.imp_right And.right⟩
  · rw [htokens]
    exact lastOpen_open hopen hclosed
  · intro t ht
    rw [htokens] at ht
    simp at ht
    exact ht ▸ hcontainer
  · rcases hs with rfl | hs
    · rw [htokens]
      simp
    · exact hs.1

/-- A word is followed by the gap of the next item or by what stands behind the items. -/
theorem items_head {items : List (Text × Doc)} (hitems : Doc.RegularItems items)
    (hnext : ∀ next ∈ items.head?, next.1 ≠ [])
    (hrest : ∀ c ∈ rest.head?, endsPrimitive c = true) :
    ∀ c ∈ (Doc.renderItems items ++ rest).head?, endsPrimitive c = true := by
  cases items with
  | nil => exact hrest
  | cons next items =>
      cases next with
      | mk gap x =>
          obtain ⟨c, tail, rfl⟩ := List.exists_cons_of_ne_nil (hnext (gap, x) rfl)
          rw [Doc.RegularItems] at hitems
          intro d hd
          simp only [Doc.renderItems, List.cons_append, List.head?_cons, Option.mem_def,
            Option.some.injEq] at hd
          rcases hitems.1 c (by simp) with rfl | rfl <;> (rw [← hd]; decide)

/-- Behind the value of a member stands the gap of the next one or the end of the object. -/
theorem members_head {members : List (Text × Text × Text × Doc)}
    (hmembers : Doc.RegularMembers members) (hnext : ∀ next ∈ members.head?, ',' ∈ next.1)
    (hrest : ∀ c ∈ rest.head?, endsPrimitive c = true) :
    ∀ c ∈ (Doc.renderMembers members ++ rest).head?, endsPrimitive c = true := by
  cases members with
  | nil => exact hrest
  | cons next members =>
      cases next with
      | mk gap tail =>
          obtain ⟨c, others, rfl⟩ := List.exists_cons_of_ne_nil
            (List.ne_nil_of_mem (hnext (gap, tail) rfl))
          cases tail with
          | mk key tail =>
              cases tail with
              | mk colon x =>
                  rw [Doc.RegularMembers] at hmembers
                  intro d hd
                  simp only [Doc.renderMembers, List.cons_append, List.head?_cons, Option.mem_def,
                    Option.some.injEq] at hd
                  rcases hmembers.1 c (by simp) with rfl | rfl <;> (rw [← hd]; decide)

theorem gap_head {close : Text} {c : Char} (hclose : Doc.Gap close) (hc : endsPrimitive c = true) :
    ∀ d ∈ (close ++ c :: rest).head?, endsPrimitive d = true := by
  cases close with
  | nil =>
      intro d hd
      simp only [List.nil_append, List.head?_cons, Option.mem_def, Option.some.injEq] at hd
      exact hd ▸ hc
  | cons e close =>
      intro d hd
      simp only [List.cons_append, List.head?_cons, Option.mem_def, Option.some.injEq] at hd
      rcases hclose e (by simp) with rfl | rfl <;> (rw [← hd]; decide)

/-- What stands between the brackets is read below the token of the container. -/
theorem readsTo_container {type : JsmnType} {c d : Char} {inner close : Text}
    {added : List JsmnTok} {size : Nat}
    (hopen : ∀ rest, ReadsTo numTokens [c] rest p (jsmnOpen numTokens type p))
    (hclose : ∀ q, ReadsTo numTokens [d] rest q (jsmnClose type q))
    (hgap : Doc.Gap close) (hadded : AllClosed added)
    (hinner : p.tokens.length + 1 ≤ numTokens →
      ∃ super, Within p.tokens.length ⟨p.pos + 1 + inner.length,
          bump p.toksuper p.tokens ++ ⟨type, p.pos, none, size⟩ :: added, super⟩ ∧
        ReadsTo numTokens inner (close ++ d :: rest)
          ⟨p.pos + 1, bump p.toksuper p.tokens ++ [⟨type, p.pos, none, 0⟩],
            some p.tokens.length⟩
          (room numTokens (p.tokens.length + 1) added.length ⟨p.pos + 1 + inner.length,
            bump p.toksuper p.tokens ++ ⟨type, p.pos, none, size⟩ :: added, super⟩)) :
    ReadsTo numTokens (c :: (inner ++ (close ++ [d]))) rest p
      (room numTokens p.tokens.length (added.length + 1)
        ⟨p.pos + (c :: (inner ++ (close ++ [d]))).length, bump p.toksuper p.tokens ++
          ⟨type, p.pos, some (p.pos + (c :: (inner ++ (close ++ [d]))).length), size⟩ :: added,
          lastOpen p.tokens⟩) := by
  have hfirst := hopen (inner ++ (close ++ [d]) ++ rest)
  rw [jsmnOpen_eq] at hfirst
  rw [Nat.add_comm added.length 1]
  apply @readsTo_room _ _ _ _ [c] _ _ _ _ _ hfirst
  intro hroom
  obtain ⟨super, hwithin, hreads⟩ := hinner hroom
  obtain ⟨after, hafter, hstays, -⟩ := @readsTo_gap numTokens (d :: rest) _ _ _ hgap hwithin
  have hlast := hclose ⟨p.pos + 1 + inner.length + close.length,
    bump p.toksuper p.tokens ++ ⟨type, p.pos, none, size⟩ :: added, after⟩
  rw [jsmnClose_eq rfl hadded, lastOpen_bump] at hlast
  have hlength : p.pos + 1 + inner.length + close.length + 1 =
      p.pos + (c :: (inner ++ (close ++ [d]))).length := by
    simp only [List.length_cons, List.length_append, List.length_nil]
    omega
  rw [hlength] at hlast
  have hrest : close ++ d :: rest = close ++ [d] ++ rest := by simp
  rw [hrest] at hreads
  have hboth := @readsTo_room _ _ _ 0 _ _ _ _ _ _ hreads fun hmore => by
    rw [room_zero hmore]
    exact readsTo_ok hafter hlast
  exact hboth

theorem jsmnColon_append (pos : Nat) (tokens : List JsmnTok) (token : JsmnTok)
    (super : Option Nat) : jsmnColon ⟨pos, tokens ++ [token], super⟩ =
      ⟨pos + 1, tokens ++ [token], some tokens.length⟩ := by
  rw [jsmnColon, if_neg (by simp)]
  simp

/-- A key is added below the container and becomes the parent of its value. -/
theorem readsTo_key {type : JsmnType} {tokens closed : List JsmnTok} {start size : Nat}
    {gap key colon : Text}
    (hgap : Doc.Gap gap) (hkey : Doc.Quotable key) (hcolon : Json.Blank colon)
    (htokens : p.tokens = tokens ++ ⟨type, start, none, size⟩ :: closed)
    (hwithin : Within tokens.length p) (hcomma : p.toksuper = some tokens.length ∨ ',' ∈ gap) :
    ReadsTo numTokens (gap ++ ('"' :: (key ++ ['"']) ++ (':' :: colon))) rest p
      (room numTokens p.tokens.length 1 ⟨p.pos + gap.length + key.length + 3 + colon.length,
        tokens ++ ⟨type, start, none, size + 1⟩ :: closed ++
          [⟨.string, p.pos + gap.length + 1, some (p.pos + gap.length + 1 + key.length), 0⟩],
        some p.tokens.length⟩) := by
  obtain ⟨before, hbefore, -, hparent⟩ := @readsTo_gap numTokens
    ('"' :: (key ++ ['"']) ++ (':' :: colon) ++ rest) _ _ _ hgap hwithin
  rw [hparent hcomma.symm] at hbefore
  have hlt : tokens.length < p.tokens.length := by
    rw [htokens]
    simp
  have hbumped : bump (some tokens.length) p.tokens =
      tokens ++ ⟨type, start, none, size + 1⟩ :: closed := by
    rw [htokens, bump_cons]
  have hlen : (tokens ++ ⟨type, start, none, size + 1⟩ :: closed).length =
      p.tokens.length := by
    rw [htokens]
    simp
  have hread := @readsTo_string numTokens (':' :: colon ++ rest)
    ⟨p.pos + gap.length, p.tokens, some tokens.length⟩ _ hkey
  rw [jsmnScalar_eq fun s hs => Option.some.inj hs ▸ hlt] at hread
  simp only [hbumped] at hread
  apply readsTo_ok hbefore
  apply @readsTo_room _ _ _ 0 _ _ _ _ _ _ hread
  intro hroom
  rw [room_zero hroom]
  apply @readsTo_ok _ [':'] _ _ _ _ _ readsTo_colon
  rw [jsmnColon_append, hlen]
  have hblanks := @readsTo_blanks numTokens rest ⟨p.pos + gap.length + 1 + key.length + 1 + 1,
      tokens ++ ⟨type, start, none, size + 1⟩ :: closed ++
        [⟨.string, p.pos + gap.length + 1, some (p.pos + gap.length + 1 + key.length), 0⟩],
      some p.tokens.length⟩
    _ hcolon
  have hpos : p.pos + gap.length + 1 + key.length + 1 + 1 + colon.length =
      p.pos + gap.length + key.length + 3 + colon.length := by
    omega
  simpa only [hpos] using hblanks

mutual

/-- The tokenizer adds the tokens of a document, or runs out of room. -/
theorem readsTo_doc : ∀ (x : Doc) (rest : Text) (p : JsmnParser), x.Regular →
    (∀ c ∈ rest.head?, endsPrimitive c = true) → (∀ s ∈ p.toksuper, s < p.tokens.length) →
      ∃ super, (super = p.toksuper ∨ super = lastOpen p.tokens) ∧
        ReadsTo numTokens x.render rest p (room numTokens p.tokens.length (x.tokens p.pos).length
          ⟨p.pos + x.render.length, bump p.toksuper p.tokens ++ x.tokens p.pos, super⟩)
  | .string text, rest, p, hregular, _, hsuper => by
      rw [Doc.Regular] at hregular
      refine ⟨p.toksuper, Or.inl rfl, ?_⟩
      have hreads := @readsTo_string numTokens rest p _ hregular
      rw [jsmnScalar_eq hsuper] at hreads
      simp only [Doc.render, Doc.tokens, List.length_cons, List.length_append, List.length_nil]
      rwa [show p.pos + (text.length + (0 + 1) + 1) = p.pos + 1 + text.length + 1 by omega]
  | .word text, rest, p, hregular, hrest, hsuper => by
      rw [Doc.Regular] at hregular
      refine ⟨p.toksuper, Or.inl rfl, ?_⟩
      have hreads := @readsTo_word numTokens _ p _ hregular hrest
      rwa [jsmnScalar_eq hsuper] at hreads
  | .array items close, rest, p, hregular, _, hsuper => by
      rw [Doc.Regular] at hregular
      refine ⟨lastOpen p.tokens, Or.inr rfl, ?_⟩
      apply readsTo_container (fun _ => readsTo_openArray) (fun _ => readsTo_closeArray) hregular.1
        (Doc.tokensItems_closed items (p.pos + 1))
      intro hroom
      have hbump : (bump p.toksuper p.tokens).length = p.tokens.length := length_bump _ _
      have hclosed : AllClosed (Doc.tokensItems (p.pos + 1) items) :=
        Doc.tokensItems_closed items (p.pos + 1)
      have hreads := readsTo_items items (close ++ ']' :: rest)
        ⟨p.pos + 1, bump p.toksuper p.tokens ++ [⟨.array, p.pos, none, 0⟩],
          some p.tokens.length⟩ (bump p.toksuper p.tokens) [] p.pos 0 hregular.2
        (gap_head hregular.1 rfl) (by intro token htoken; cases htoken) rfl (by rw [hbump])
        (by simpa using hroom)
      simp only [List.length_append, hbump, List.length_singleton, Nat.zero_add,
        List.nil_append] at hreads
      refine ⟨some p.tokens.length, ?_, hreads⟩
      rw [← hbump]
      exact within_of rfl rfl (Or.inl rfl) hclosed rfl (Or.inl rfl)
  | .object members close, rest, p, hregular, _, hsuper => by
      rw [Doc.Regular] at hregular
      refine ⟨lastOpen p.tokens, Or.inr rfl, ?_⟩
      apply readsTo_container (fun _ => readsTo_openObject) (fun _ => readsTo_closeObject)
        hregular.1 (Doc.tokensMembers_closed members (p.pos + 1))
      intro hroom
      have hbump : (bump p.toksuper p.tokens).length = p.tokens.length := length_bump _ _
      have hnil : AllClosed [] := by
        intro token htoken
        cases htoken
      have hreads := readsTo_members members (close ++ '}' :: rest)
        ⟨p.pos + 1, bump p.toksuper p.tokens ++ [⟨.object, p.pos, none, 0⟩],
          some p.tokens.length⟩ .object (bump p.toksuper p.tokens) [] p.pos 0 (Or.inr rfl) hregular.2
        (gap_head hregular.1 rfl) hnil rfl
        (within_of rfl rfl (Or.inr rfl) hnil rfl (Or.inl hbump.symm)) (Or.inl (by rw [hbump]))
        (by simpa using hroom)
      simpa only [List.length_append, hbump, List.length_singleton, Nat.zero_add,
        List.nil_append] using hreads

/-- Items are added below the open array that is their parent. -/
theorem readsTo_items : ∀ (items : List (Text × Doc)) (rest : Text) (p : JsmnParser)
    (tokens closed : List JsmnTok) (start size : Nat), Doc.RegularItems items →
    (∀ c ∈ rest.head?, endsPrimitive c = true) → AllClosed closed →
    p.tokens = tokens ++ ⟨.array, start, none, size⟩ :: closed →
    p.toksuper = some tokens.length → p.tokens.length ≤ numTokens →
      ReadsTo numTokens (Doc.renderItems items) rest p
        (room numTokens p.tokens.length (Doc.tokensItems p.pos items).length
          ⟨p.pos + (Doc.renderItems items).length,
            tokens ++ ⟨.array, start, none, size + items.length⟩ ::
              (closed ++ Doc.tokensItems p.pos items), some tokens.length⟩)
  | [], rest, p, tokens, closed, start, size, _, _, _, htokens, hsuper, hfull => by
      rw [Doc.tokensItems, List.length_nil, room_zero hfull]
      have heq : p = ⟨p.pos + (Doc.renderItems []).length, tokens ++
          ⟨.array, start, none, size + ([] : List (Text × Doc)).length⟩ :: (closed ++ []),
            some tokens.length⟩ := by
        rw [List.append_nil, ← hsuper]
        simp [Doc.renderItems, ← htokens]
      rw [← heq]
      exact readsTo_nil
  | (gap, x) :: items, rest, p, tokens, closed, start, size, hregular, hrest, hclosed, htokens,
      hsuper, hfull => by
      rw [Doc.RegularItems] at hregular
      obtain ⟨hgap, hx, hnext, hitems⟩ := hregular
      have hwithin : Within tokens.length p :=
        within_of htokens rfl (Or.inl rfl) hclosed hsuper (Or.inl rfl)
      obtain ⟨before, hbefore, -, hparent⟩ := @readsTo_gap numTokens
        (x.render ++ Doc.renderItems items ++ rest) _ _ _ hgap hwithin
      rw [hparent (Or.inr hsuper)] at hbefore
      have hlt : tokens.length < p.tokens.length := by
        rw [htokens]
        simp
      obtain ⟨super, hsupers, hread⟩ := readsTo_doc x (Doc.renderItems items ++ rest)
        ⟨p.pos + gap.length, p.tokens, some tokens.length⟩ hx (items_head hitems hnext hrest)
        (fun s hs => Option.some.inj hs ▸ hlt)
      have hopen : super = some tokens.length := by
        rcases hsupers with hsupers | hsupers
        · exact hsupers
        · rw [hsupers]
          exact hwithin.open_
      have hadded : bump (some tokens.length) p.tokens ++ x.tokens (p.pos + gap.length) =
          tokens ++ ⟨.array, start, none, size + 1⟩ ::
            (closed ++ x.tokens (p.pos + gap.length)) := by
        rw [htokens, bump_cons, List.append_assoc, List.cons_append]
      rw [hadded, hopen] at hread
      have hsize : size + ((gap, x) :: items).length = size + 1 + items.length := by
        rw [List.length_cons]
        omega
      have hlength : p.pos + (Doc.renderItems ((gap, x) :: items)).length =
          p.pos + gap.length + x.render.length + (Doc.renderItems items).length := by
        simp only [Doc.renderItems, List.length_append]
        omega
      have hpos : tokens.length + ((closed ++ x.tokens (p.pos + gap.length)).length + 1) =
          p.tokens.length + (x.tokens (p.pos + gap.length)).length := by
        rw [htokens]
        simp only [List.length_append, List.length_cons]
        omega
      rw [Doc.tokensItems, List.length_append, Doc.renderItems, hsize, ← Doc.renderItems, hlength]
      apply readsTo_ok hbefore
      apply readsTo_room hread
      intro hroom
      have hclosed' : AllClosed (closed ++ x.tokens (p.pos + gap.length)) := by
        intro token htoken
        rcases List.mem_append.mp htoken with htoken | htoken
        · exact hclosed token htoken
        · exact Doc.tokens_closed x _ token htoken
      have hlater := readsTo_items items rest
        ⟨p.pos + gap.length + x.render.length, tokens ++ ⟨.array, start, none, size + 1⟩ ::
          (closed ++ x.tokens (p.pos + gap.length)), some tokens.length⟩
        tokens _ start (size + 1) hitems hrest hclosed' rfl rfl
        (by rw [List.length_append, List.length_cons, hpos]; exact hroom)
      rw [List.length_append, List.length_cons, hpos, List.append_assoc] at hlater
      exact hlater

/-- Members are added below the last open token. -/
theorem readsTo_members : ∀ (members : List (Text × Text × Text × Doc)) (rest : Text)
    (p : JsmnParser) (type : JsmnType) (tokens closed : List JsmnTok) (start size : Nat),
    type = .array ∨ type = .object → Doc.RegularMembers members → (∀ c ∈ rest.head?, endsPrimitive c = true) → AllClosed closed →
    p.tokens = tokens ++ ⟨type, start, none, size⟩ :: closed → Within tokens.length p →
    (p.toksuper = some tokens.length ∨ ∀ next ∈ members.head?, ',' ∈ next.1) →
    p.tokens.length ≤ numTokens →
      ∃ super, Within tokens.length ⟨p.pos + (Doc.renderMembers members).length,
            tokens ++ ⟨type, start, none, size + members.length⟩ ::
              (closed ++ Doc.tokensMembers p.pos members), super⟩ ∧
        ReadsTo numTokens (Doc.renderMembers members) rest p
          (room numTokens p.tokens.length (Doc.tokensMembers p.pos members).length
            ⟨p.pos + (Doc.renderMembers members).length,
              tokens ++ ⟨type, start, none, size + members.length⟩ ::
                (closed ++ Doc.tokensMembers p.pos members), super⟩)
  | [], rest, p, type, tokens, closed, start, size, _, _, _, _, htokens, hwithin, _, hfull => by
      have heq : (⟨p.pos + (Doc.renderMembers []).length, tokens ++ ⟨type, start, none,
          size + ([] : List (Text × Text × Text × Doc)).length⟩ :: (closed ++ []), p.toksuper⟩ :
            JsmnParser) = p := by
        rw [List.append_nil]
        simp [Doc.renderMembers, ← htokens]
      refine ⟨p.toksuper, ?_, ?_⟩
      · rw [Doc.tokensMembers, heq]
        exact hwithin
      · rw [Doc.tokensMembers, List.length_nil, room_zero hfull, heq]
        exact readsTo_nil
  | (gap, key, colon, x) :: members, rest, p, type, tokens, closed, start, size, htype, hregular,
      hrest, hclosed, htokens, hwithin, hcomma, hfull => by
      rw [Doc.RegularMembers] at hregular
      obtain ⟨hgap, hkey, hcolon, hx, hnext, hmembers⟩ := hregular
      let named : JsmnTok :=
        ⟨.string, p.pos + gap.length + 1, some (p.pos + gap.length + 1 + key.length), 0⟩
      let pos := p.pos + gap.length + key.length + 3 + colon.length
      have hreadKey := @readsTo_key numTokens (x.render ++ Doc.renderMembers members ++ rest) _ _ _
        _ _ _ _ _ _ hgap hkey hcolon htokens hwithin (hcomma.imp_right fun h => h _ rfl)
      have hlen : (tokens ++ ⟨type, start, none, size + 1⟩ :: closed).length =
          p.tokens.length := by
        rw [htokens]
        simp
      obtain ⟨super, hsupers, hread⟩ := readsTo_doc x (Doc.renderMembers members ++ rest)
        ⟨pos, tokens ++ ⟨type, start, none, size + 1⟩ :: closed ++ [named],
          some p.tokens.length⟩ hx (members_head hmembers hnext hrest)
        (fun s hs => by rw [← Option.some.inj hs, List.length_append, hlen]; simp)
      -- the value is counted by its key
      have hadded : bump (some p.tokens.length)
            (tokens ++ ⟨type, start, none, size + 1⟩ :: closed ++ [named]) ++ x.tokens pos =
          tokens ++ ⟨type, start, none, size + 1⟩ ::
            (closed ++ ({ named with size := 1 } :: x.tokens pos)) := by
        rw [← hlen, bump_cons]
        simp [named]
      have hcount : (tokens ++ ⟨type, start, none, size + 1⟩ :: closed ++ [named]).length =
          p.tokens.length + 1 := by
        rw [List.length_append, hlen, List.length_singleton]
      rw [hadded] at hread
      simp only [hcount] at hread
      have hclosed' : AllClosed (closed ++ ({ named with size := 1 } :: x.tokens pos)) := by
        intro token htoken
        rcases List.mem_append.mp htoken with htoken | htoken
        · exact hclosed token htoken
        · rcases List.mem_cons.mp htoken with rfl | htoken
          · rfl
          · exact Doc.tokens_closed x _ token htoken
      have hlast : lastOpen (tokens ++ ⟨type, start, none, size + 1⟩ :: closed ++ [named]) =
          some tokens.length := by
        rw [List.append_assoc, List.cons_append]
        apply lastOpen_open rfl
        intro token htoken
        rcases List.mem_append.mp htoken with htoken | htoken
        · exact hclosed token htoken
        · rw [List.mem_singleton.mp htoken]
          rfl
      let next : JsmnParser := ⟨pos + x.render.length, tokens ++ ⟨type, start, none, size + 1⟩ ::
        (closed ++ ({ named with size := 1 } :: x.tokens pos)), super⟩
      have hnamed : p.tokens.length < next.tokens.length ∧
          ∀ token ∈ next.tokens[p.tokens.length]?, ¬ token.isContainer := by
        have hsplit : next.tokens = (tokens ++ ⟨type, start, none, size + 1⟩ :: closed) ++
            ({ named with size := 1 } :: x.tokens pos) := by simp [next]
        rw [hsplit, ← hlen]
        refine ⟨by simp, fun token htoken => ?_⟩
        rw [List.getElem?_append_right (Nat.le_refl _), Nat.sub_self] at htoken
        rw [← Option.some.inj htoken]
        simp [JsmnTok.isContainer, named]
      have hwithin' : Within tokens.length next := by
        rcases hsupers with hsupers | hsupers
        · exact within_of rfl rfl htype hclosed' hsupers (Or.inr hnamed)
        · exact within_of rfl rfl htype hclosed' (hsupers.trans hlast) (Or.inl rfl)
      have hused : next.tokens.length = p.tokens.length + 1 + (x.tokens pos).length := by
        rw [htokens]
        simp only [next, List.length_append, List.length_cons]
        omega
      let last (final : Option Nat) : JsmnParser :=
        ⟨pos + x.render.length + (Doc.renderMembers members).length,
          tokens ++ ⟨type, start, none, size + 1 + members.length⟩ :: (closed ++
            ({ named with size := 1 } :: x.tokens pos) ++
              Doc.tokensMembers (pos + x.render.length) members), final⟩
      have hlater : ∃ final, Within tokens.length (last final) ∧
          (p.tokens.length + 1 + (x.tokens pos).length ≤ numTokens →
            ReadsTo numTokens (Doc.renderMembers members) rest next
              (room numTokens (p.tokens.length + 1 + (x.tokens pos).length)
                (Doc.tokensMembers (pos + x.render.length) members).length (last final))) := by
        by_cases hroom : p.tokens.length + 1 + (x.tokens pos).length ≤ numTokens
        · obtain ⟨final, hfinal, hreads⟩ := readsTo_members members rest next type tokens _ start
            (size + 1) htype hmembers hrest hclosed' rfl hwithin' (Or.inr hnext) (hused ▸ hroom)
          exact ⟨final, hfinal, fun _ => hused ▸ hreads⟩
        · refine ⟨some tokens.length, ?_, fun h => absurd h hroom⟩
          have hopen : (⟨type, start, none, size + 1 + members.length⟩ : JsmnTok).isContainer := htype
          apply within_of rfl rfl hopen _ rfl (Or.inl rfl)
          intro token htoken
          rcases List.mem_append.mp htoken with htoken | htoken
          · exact hclosed' token htoken
          · exact Doc.tokensMembers_closed members _ token htoken
      obtain ⟨final, hfinal, hreads⟩ := hlater
      have hreadBoth := readsTo_room hreadKey fun _ => readsTo_room hread hreads
      have htext : Doc.renderMembers ((gap, key, colon, x) :: members) =
          (gap ++ ('"' :: (key ++ ['"']) ++ (':' :: colon))) ++
            (x.render ++ Doc.renderMembers members) := by
        simp [Doc.renderMembers]
      have hlast' : last final = ⟨p.pos + (Doc.renderMembers ((gap, key, colon, x) ::
          members)).length, tokens ++ ⟨type, start, none,
            size + ((gap, key, colon, x) :: members).length⟩ ::
              (closed ++ Doc.tokensMembers p.pos ((gap, key, colon, x) :: members)), final⟩ := by
        have hlength : pos + x.render.length + (Doc.renderMembers members).length =
            p.pos + (Doc.renderMembers ((gap, key, colon, x) :: members)).length := by
          simp only [pos, Doc.renderMembers, List.length_append, List.length_cons]
          omega
        have hsize : size + 1 + members.length =
            size + ((gap, key, colon, x) :: members).length := by
          rw [List.length_cons]
          omega
        simp only [last, hlength, hsize, List.append_assoc, List.cons_append]
        rfl
      have hmore : (Doc.tokensMembers p.pos ((gap, key, colon, x) :: members)).length =
          1 + ((x.tokens pos).length +
            (Doc.tokensMembers (pos + x.render.length) members).length) := by
        simp only [Doc.tokensMembers, List.length_cons, List.length_append, pos]
        omega
      refine ⟨final, ?_, ?_⟩
      · rw [← hlast']
        exact hfinal
      · rw [← hlast', htext, hmore]
        exact hreadBoth

end

end Documents

/-- What the tokenizer returns for a text. -/
theorem jsmnParse_of_readsTo {numTokens : Nat} {text : Text}
    {result : Except JsmnErr JsmnParser} (h : ReadsTo numTokens text [] jsmnInit result) :
    jsmnParse numTokens text = result.bind fun p =>
      if p.tokens.any JsmnTok.isOpen then .error .part else .ok p.tokens := by
  have hnil (left : Nat) : jsmnLoop numTokens left [] = Except.ok := by
    funext p
    cases left <;> rfl
  obtain ⟨left, -, hloop⟩ := h text.length (by simp)
  rw [List.append_nil, hnil] at hloop
  rw [jsmnParse, hloop]
  cases result <;> rfl

/-- The tokenizer returns the tokens of a document if there is room for them. -/
theorem jsmnParse_render (numTokens : Nat) {x : Doc} (hx : x.Regular) :
    jsmnParse numTokens x.render =
      if (x.tokens 0).length ≤ numTokens then .ok (x.tokens 0) else .error .nomem := by
  obtain ⟨super, -, hreads⟩ := @readsTo_doc numTokens x [] jsmnInit hx (by intro c hc; cases hc)
    (by intro s hs; cases hs)
  rw [jsmnParse_of_readsTo hreads, room]
  have hclosed : (x.tokens 0).any JsmnTok.isOpen = false := by
    rw [List.any_eq_false]
    intro token htoken
    rw [x.tokens_closed 0 token htoken]
    exact Bool.false_ne_true
  simp only [jsmnInit, List.length_nil, Nat.zero_add, bump, List.nil_append]
  split
  · simp only [Except.bind, hclosed, Bool.false_eq_true, if_false]
  · rfl

end XHDF5.Plugin
