/-
# Matching braces

Which brace closes another one. Braces in a string do not count, and neither does a quote behind a
backslash that is not escaped itself. The brace that opens a JSON object is closed by the object's
last character.
-/

import XHDF5.Math.JsonGrammar

namespace XHDF5.Math

/-- What stands between two quotes: a backslash takes the character behind it along. -/
inductive StringBody : Text → Prop
  | nil : StringBody []
  | char {c : Char} {text : Text} (hc : c ≠ '"' ∧ c ≠ '\\') (htext : StringBody text) :
      StringBody (c :: text)
  | escape {c : Char} {text : Text} (htext : StringBody text) : StringBody ('\\' :: c :: text)

/-- What stands between a brace and the one that matches it. Outside of a string a backslash takes
only a quote or a backslash along. -/
inductive Balanced : Text → Prop
  | nil : Balanced []
  | char {c : Char} {text : Text} (hc : c ≠ '"' ∧ c ≠ '\\' ∧ c ≠ '{' ∧ c ≠ '}')
      (htext : Balanced text) : Balanced (c :: text)
  | escape {c : Char} {text : Text} (hc : c = '\\' ∨ c = '"') (htext : Balanced text) :
      Balanced ('\\' :: c :: text)
  | backslash {text : Text} (hnext : ∀ c ∈ text.head?, c ≠ '\\' ∧ c ≠ '"')
      (htext : Balanced text) : Balanced ('\\' :: text)
  | string {body text : Text} (hbody : StringBody body) (htext : Balanced text) :
      Balanced ('"' :: (body ++ '"' :: text))
  | braces {inner text : Text} (hinner : Balanced inner) (htext : Balanced text) :
      Balanced ('{' :: (inner ++ '}' :: text))

/-- The text behind the brace that matches the one in front. -/
def ClosesAt (text rest : Text) : Prop :=
  ∃ inner, Balanced inner ∧ text = '{' :: (inner ++ '}' :: rest)

/-! ## The braces of a JSON object -/

/-- A text that can stand before any balanced one. -/
def Joins (text : Text) : Prop := ∀ more, Balanced more → Balanced (text ++ more)

theorem Joins.append {first second : Text} (hfirst : Joins first) (hsecond : Joins second) :
    Joins (first ++ second) := fun more hmore => by
  rw [List.append_assoc]
  exact hfirst _ (hsecond more hmore)

theorem Joins.balanced {text : Text} (h : Joins text) : Balanced text := by
  rw [← List.append_nil text]
  exact h [] .nil

theorem joins_cons {c : Char} {text : Text} (hc : c ≠ '"' ∧ c ≠ '\\' ∧ c ≠ '{' ∧ c ≠ '}')
    (htext : Joins text) : Joins (c :: text) := fun more hmore => .char hc (htext more hmore)

theorem joins_nil : Joins [] := fun _ hmore => hmore

theorem joins_of_forall {text : Text} (h : ∀ c ∈ text, c ≠ '"' ∧ c ≠ '\\' ∧ c ≠ '{' ∧ c ≠ '}') :
    Joins text := by
  induction text with
  | nil => exact joins_nil
  | cons c text ih => exact joins_cons (h c (by simp)) (ih fun d hd => h d (by simp [hd]))

theorem joins_braces {inner : Text} (h : Balanced inner) : Joins ('{' :: (inner ++ ['}'])) := by
  intro more hmore
  rw [List.cons_append, List.append_assoc]
  exact .braces h hmore

theorem joins_blank {gap : Text} (h : JsonBlank gap) : Joins gap := by
  refine joins_of_forall fun c hc => ?_
  rcases h c hc with rfl | rfl | rfl | rfl <;> decide

theorem JsonString.stringBody {text : Text} (h : JsonString text) : StringBody text := by
  induction h with
  | nil => exact .nil
  | char hc _ ih => exact .char ⟨hc.1, hc.2.1⟩ ih
  | escape _ _ ih => exact .escape ih
  | unicode ha hb hc hd _ ih =>
      exact .escape (.char (Scan.ne_of_hexDigit ha) (.char (Scan.ne_of_hexDigit hb)
        (.char (Scan.ne_of_hexDigit hc) (.char (Scan.ne_of_hexDigit hd) ih))))

theorem joins_quoted {text : Text} (h : JsonString text) : Joins (quoted text) := by
  intro more hmore
  rw [quoted, List.cons_append, List.append_assoc]
  exact .string h.stringBody hmore

theorem joins_word {text : Text} (h : JsonWord text) : Joins text := by
  refine joins_of_forall fun c hc => ?_
  have hword := h.chars.2 c hc
  refine ⟨?_, ?_, ?_, ?_⟩ <;> (rintro rfl; revert hword; unfold Scan.IsWord; decide)

mutual

/-- The braces of a value are matched inside of it. -/
theorem joins_value {text : Text} : JsonValue text → Joins text
  | .word h => joins_word h
  | .string h => joins_quoted h
  | .emptyArray h =>
      joins_cons (by decide) ((joins_blank h).append (joins_cons (by decide) joins_nil))
  | .array h =>
      joins_cons (by decide) ((joins_items h).append (joins_cons (by decide) joins_nil))
  | .emptyObject h => joins_braces (joins_blank h).balanced
  | .object h => joins_braces (joins_members h).balanced

theorem joins_items {text : Text} : JsonItems text → Joins text
  | .one hbefore hx hafter =>
      (joins_blank hbefore).append ((joins_value hx).append (joins_blank hafter))
  | .cons hbefore hx hafter hitems =>
      (joins_blank hbefore).append ((joins_value hx).append ((joins_blank hafter).append
        (joins_cons (by decide) (joins_items hitems))))

theorem joins_members {text : Text} : JsonMembers text → Joins text
  | .one hbefore hkey hcolon hgap hx hafter =>
      (joins_blank hbefore).append ((joins_quoted hkey).append ((joins_blank hcolon).append
        (joins_cons (by decide) ((joins_blank hgap).append ((joins_value hx).append
          (joins_blank hafter))))))
  | .cons hbefore hkey hcolon hgap hx hafter hmembers =>
      (joins_blank hbefore).append ((joins_quoted hkey).append ((joins_blank hcolon).append
        (joins_cons (by decide) ((joins_blank hgap).append ((joins_value hx).append
          ((joins_blank hafter).append (joins_cons (by decide) (joins_members hmembers))))))))

end

theorem JsonValue.ne_nil {text : Text} (h : JsonValue text) : text ≠ [] := by
  cases h with
  | word h => exact h.chars.1
  | string | emptyArray | array | emptyObject | object => exact List.cons_ne_nil _ _

/-- A value that begins with a brace is an object, and that brace is closed by its last
character. -/
theorem JsonValue.closesAt {text : Text} (h : JsonValue text) (hbrace : text.head? = some '{')
    (rest : Text) : ClosesAt (text ++ rest) rest := by
  cases h with
  | word h =>
      have hword := h.chars.2 '{' (List.mem_of_mem_head? hbrace)
      exact absurd hword (by unfold Scan.IsWord; decide)
  | string => cases hbrace
  | emptyArray => cases hbrace
  | array => cases hbrace
  | @emptyObject gap h => exact ⟨gap, (joins_blank h).balanced, by simp⟩
  | @object members h => exact ⟨members, (joins_members h).balanced, by simp⟩

end XHDF5.Math
