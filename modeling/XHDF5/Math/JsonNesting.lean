/-
# Colons in JSON

In a JSON text a colon that is not in a string stands directly in an object. A scan that keeps the
open containers finds a colon that does not.
-/

import XHDF5.Math.JsonGrammar

namespace XHDF5.Math

/-- What is known of the text so far: whether a string is open and, when it is, whether a backslash
stands before the next character; the open containers from the innermost one on, `true` for an
object; and whether every colon stood in an object. -/
structure Nesting where
  string : Option Bool
  containers : List Bool
  sound : Bool
deriving DecidableEq

namespace Nesting

/-- The scan of a character. -/
def step (s : Nesting) (c : Char) : Nesting :=
  match s.string with
  | some true => { s with string := some false }
  | some false =>
      if c = '"' then { s with string := none }
      else if c = '\\' then { s with string := some true }
      else s
  | none =>
      if c = '"' then { s with string := some false }
      else if c = '[' then { s with containers := false :: s.containers }
      else if c = '{' then { s with containers := true :: s.containers }
      else if c = ']' ∨ c = '}' then { s with containers := s.containers.tail }
      else if c = ':' then { s with sound := s.sound && s.containers.head? == some true }
      else s

/-- The scan of a text. -/
def run (s : Nesting) (text : Text) : Nesting := text.foldl step s

theorem run_append (s : Nesting) (text more : Text) :
    s.run (text ++ more) = (s.run text).run more :=
  List.foldl_append

theorem run_cons (s : Nesting) (c : Char) (text : Text) :
    s.run (c :: text) = (s.step c).run text := rfl

@[simp] theorem run_nil (s : Nesting) : s.run [] = s := rfl

variable {containers : List Bool} {sound : Bool}

/-! ### Parts of a text -/

/-- A character outside of strings that opens and closes nothing, and is no colon. -/
def IsQuiet (c : Char) : Prop :=
  c ≠ '"' ∧ c ≠ '[' ∧ c ≠ '{' ∧ ¬ (c = ']' ∨ c = '}') ∧ c ≠ ':'

instance (c : Char) : Decidable (IsQuiet c) := inferInstanceAs (Decidable (_ ∧ _))

theorem run_quiet {text : Text} (h : ∀ c ∈ text, IsQuiet c) :
    run ⟨none, containers, sound⟩ text = ⟨none, containers, sound⟩ := by
  induction text with
  | nil => rfl
  | cons c text ih =>
      have hc : step ⟨none, containers, sound⟩ c = ⟨none, containers, sound⟩ := by
        obtain ⟨hquote, harray, hobject, hclose, hcolon⟩ := h c (by simp)
        rw [step]
        simp only [hquote, harray, hobject, hclose, hcolon, if_false]
      rw [run_cons, hc, ih fun d hd => h d (by simp [hd])]

theorem run_blank {gap : Text} (h : JsonBlank gap) :
    run ⟨none, containers, sound⟩ gap = ⟨none, containers, sound⟩ := by
  refine run_quiet fun c hc => ?_
  rcases h c hc with rfl | rfl | rfl | rfl <;> decide

theorem isQuiet_of_isWord {c : Char} (h : Scan.IsWord c) : IsQuiet c := by
  refine ⟨?_, ?_, ?_, not_or.mpr ⟨?_, ?_⟩, ?_⟩ <;>
    (rintro rfl; revert h; unfold Scan.IsWord; decide)

theorem run_word {text : Text} (h : ∀ c ∈ text, Scan.IsWord c) :
    run ⟨none, containers, sound⟩ text = ⟨none, containers, sound⟩ :=
  run_quiet fun c hc => isQuiet_of_isWord (h c hc)

theorem step_char {c : Char} (h : c ≠ '"' ∧ c ≠ '\\') :
    step ⟨some false, containers, sound⟩ c = ⟨some false, containers, sound⟩ := by
  rw [step]
  simp only [h.1, h.2, if_false]

theorem run_insideString {text : Text} (h : JsonString text) :
    run ⟨some false, containers, sound⟩ text = ⟨some false, containers, sound⟩ := by
  induction h with
  | nil => rfl
  | char hc _ ih => rw [run_cons, step_char ⟨hc.1, hc.2.1⟩, ih]
  | escape _ _ ih =>
      rw [run_cons, run_cons]
      exact ih
  | unicode ha hb hc hd _ ih =>
      rw [run_cons, run_cons, run_cons, run_cons, run_cons, run_cons]
      have hstart : step (step ⟨some false, containers, sound⟩ '\\') 'u' =
          ⟨some false, containers, sound⟩ := rfl
      rw [hstart, step_char (Scan.ne_of_hexDigit ha), step_char (Scan.ne_of_hexDigit hb),
        step_char (Scan.ne_of_hexDigit hc), step_char (Scan.ne_of_hexDigit hd), ih]

theorem run_quoted {text : Text} (h : JsonString text) :
    run ⟨none, containers, sound⟩ (quoted text) = ⟨none, containers, sound⟩ := by
  have hopen : step ⟨none, containers, sound⟩ '"' = ⟨some false, containers, sound⟩ := rfl
  rw [quoted, run_cons, run_append, hopen, run_insideString h]
  rfl

/-- A colon in an object. -/
theorem step_colon :
    step ⟨none, true :: containers, sound⟩ ':' = ⟨none, true :: containers, sound⟩ := by
  simp [step]

/-! ### Values -/

mutual

/-- A value leaves what was known. -/
theorem run_value : ∀ {text : Text}, JsonValue text → ∀ (containers : List Bool) (sound : Bool),
    run ⟨none, containers, sound⟩ text = ⟨none, containers, sound⟩
  | _, .word h, _, _ => run_word h.chars.2
  | _, .string h, _, _ => run_quoted h
  | _, .emptyArray h, containers, sound => by
      have hopen : step ⟨none, containers, sound⟩ '[' = ⟨none, false :: containers, sound⟩ := rfl
      rw [run_cons, run_append, hopen, run_blank h]
      rfl
  | _, .array h, containers, sound => by
      have hopen : step ⟨none, containers, sound⟩ '[' = ⟨none, false :: containers, sound⟩ := rfl
      rw [run_cons, run_append, hopen, run_items h]
      rfl
  | _, .emptyObject h, containers, sound => by
      have hopen : step ⟨none, containers, sound⟩ '{' = ⟨none, true :: containers, sound⟩ := rfl
      rw [run_cons, run_append, hopen, run_blank h]
      rfl
  | _, .object h, containers, sound => by
      have hopen : step ⟨none, containers, sound⟩ '{' = ⟨none, true :: containers, sound⟩ := rfl
      rw [run_cons, run_append, hopen, run_members h]
      rfl

theorem run_items : ∀ {text : Text}, JsonItems text → ∀ (containers : List Bool) (sound : Bool),
    run ⟨none, containers, sound⟩ text = ⟨none, containers, sound⟩
  | _, .one hbefore hx hafter, containers, sound => by
      rw [run_append, run_append, run_blank hbefore, run_value hx, run_blank hafter]
  | _, .cons hbefore hx hafter hitems, containers, sound => by
      have hcomma : step ⟨none, containers, sound⟩ ',' = ⟨none, containers, sound⟩ := rfl
      rw [run_append, run_append, run_append, run_blank hbefore, run_value hx, run_blank hafter,
        run_cons, hcomma, run_items hitems]

/-- The colons of members stand in an object. -/
theorem run_members : ∀ {text : Text}, JsonMembers text → ∀ (containers : List Bool) (sound : Bool),
    run ⟨none, true :: containers, sound⟩ text = ⟨none, true :: containers, sound⟩
  | _, .one hbefore hkey hcolon hgap hx hafter, containers, sound => by
      rw [run_append, run_append, run_append, run_blank hbefore, run_quoted hkey, run_blank hcolon,
        run_cons, step_colon, run_append, run_append, run_blank hgap, run_value hx,
        run_blank hafter]
  | _, .cons hbefore hkey hcolon hgap hx hafter hmembers, containers, sound => by
      have hcomma : step ⟨none, true :: containers, sound⟩ ',' =
          ⟨none, true :: containers, sound⟩ := rfl
      rw [run_append, run_append, run_append, run_blank hbefore, run_quoted hkey, run_blank hcolon,
        run_cons, step_colon, run_append, run_append, run_append, run_blank hgap, run_value hx,
        run_blank hafter, run_cons, hcomma, run_members hmembers]

end

/-- In a JSON text every colon stands in an object. -/
theorem run_jsonText {text : Text} (h : JsonText text) :
    run ⟨none, [], true⟩ text = ⟨none, [], true⟩ := by
  obtain ⟨before, x, after, rfl, hbefore, hx, hafter⟩ := h
  rw [run_append, run_append, run_blank hbefore, run_value hx, run_blank hafter]

/-- A colon that stood elsewhere is not forgotten. -/
theorem run_unsound {s : Nesting} (h : s.sound = false) (text : Text) :
    (s.run text).sound = false := by
  induction text generalizing s with
  | nil => exact h
  | cons c text ih =>
      apply ih
      unfold step
      split
      · exact h
      · split
        · exact h
        · split <;> exact h
      · repeat' split
        all_goals first | exact h | simp [h]

/-- A text with a colon in an array is not JSON. -/
theorem not_jsonText {before after : Text} {containers : List Bool}
    (h : run ⟨none, [], true⟩ before = ⟨none, false :: containers, true⟩) :
    ¬ JsonText (before ++ ':' :: after) := by
  intro hjson
  have hend := run_jsonText hjson
  have hcolon : (step ⟨none, false :: containers, true⟩ ':').sound = false := rfl
  rw [run_append, h, run_cons] at hend
  have hunsound := run_unsound hcolon after
  rw [hend] at hunsound
  cases hunsound

end Nesting

end XHDF5.Math
