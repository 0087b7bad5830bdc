/-
# Texts printed into a buffer

A C function that formats a text keeps a buffer, the position behind what it has printed, and the
length of the buffer, which doubles on demand. What a caller reads later ends at the first NUL, so a
position that was moved too far hides everything behind it.
-/

import XHDF5.Math.Growing
import XHDF5.Math.Run
import XHDF5.Math.Token

namespace XHDF5.Math

/-- A buffer that is printed into: the text up to the first NUL, the position, the length of the
buffer, and whether there is a NUL at the position. -/
structure Printed where
  text : Text
  pos : Nat
  nalloc : Nat
  terminated : Bool
deriving DecidableEq

/-- A step of a function that prints. -/
inductive PrintStep
  /-- `CHECKED_REALLOC` for so many bytes behind the position. -/
  | reserve (more : Nat)
  /-- `strncat` of a whole text at the position, or `strcat`. -/
  | strncat (text : Text)
  /-- `snprintf` into the rest of the buffer, with a check of its result. -/
  | snprintf (text : Text)
  /-- `snprintf` with a limit, without a check of its result. -/
  | unchecked (limit : Nat) (text : Text)
  /-- The position moves without anything being printed. -/
  | advance (count : Nat)
  /-- A jump to `done` with `FAIL`. -/
  | fail
  /-- Behaviour that is not defined. -/
  | undefined

namespace Printed

/-- An empty buffer. -/
def empty (nalloc : Nat) : Printed := ⟨[], 0, nalloc, true⟩

/-- A text and a NUL at the position. -/
def put (text : Text) (b : Printed) : Printed :=
  { b with
    text := if b.pos = b.text.length then b.text ++ text else b.text
    pos := b.pos + text.length
    terminated := true }

/-- Everything that was printed can be read. -/
structure Whole (b : Printed) : Prop where
  pos : b.pos = b.text.length
  terminated : b.terminated = true

/-- A NUL stands before the position. -/
def Hidden (b : Printed) : Prop := b.text.length < b.pos

end Printed

open Printed

/-- What a step does. -/
def PrintStep.run : PrintStep → Printed → Outcome Printed
  | reserve more, b => .ok { b with nalloc := doubled b.nalloc (b.pos + more) (b.pos + more) }
  | strncat text, b =>
      if b.terminated ∧ b.pos + text.length < b.nalloc then .ok (b.put text) else .undefined
  | snprintf text, b =>
      if b.nalloc - b.pos ≤ text.length then .fail else .ok (b.put text)
  | unchecked limit text, b =>
      if b.nalloc < b.pos + min limit (text.length + 1) then .undefined
      else
        .ok { b.put (text.take (limit - 1)) with
          pos := b.pos + text.length
          terminated := decide (text.length < limit) }
  | advance count, b => .ok { b with pos := b.pos + count, terminated := decide (count = 0) }
  | fail, _ => .fail
  | undefined, _ => .undefined

/-- What the steps of a function do. -/
def printAll : List PrintStep → Printed → Outcome Printed
  | [], b => .ok b
  | step :: steps, b => (step.run b).bind (printAll steps)

/-- Along the way no step lacks a defined result. -/
def StaysInside : List PrintStep → Printed → Prop
  | [], _ => True
  | step :: steps, b =>
      step.run b ≠ .undefined ∧ ∀ c, step.run b = .ok c → StaysInside steps c

/-- The text that a step prints. -/
def PrintStep.text : PrintStep → Text
  | strncat text | snprintf text | unchecked _ text => text
  | _ => []

/-- The text that the steps print. -/
def printedText (steps : List PrintStep) : Text := steps.flatMap PrintStep.text

/-- Every text of the steps lies in room that was reserved, behind a position up to which a length was
reserved before. The room may end with the text unless the function checks for the NUL. -/
def Ample : List PrintStep → Nat → Nat → Prop
  | [], _, _ => True
  | .reserve more :: steps, pos, len => Ample steps pos (max len (pos + more))
  | .strncat text :: steps, pos, len =>
      pos + text.length ≤ len ∧ Ample steps (pos + text.length) len
  | .snprintf text :: steps, pos, len =>
      pos + text.length < len ∧ Ample steps (pos + text.length) len
  | _, _, _ => False

/-- The NUL behind some text lies outside: the text ends with the room that was reserved, and the
buffer is no longer than that. -/
def EndsAtBuffer (first : Nat) : List PrintStep → Nat → Nat → Prop
  | [], _, _ => False
  | .reserve more :: steps, pos, len => EndsAtBuffer first steps pos (max len (pos + more))
  | .strncat text :: steps, pos, len =>
      (pos + text.length = len ∧ doubled first len len = len) ∨
        EndsAtBuffer first steps (pos + text.length) len
  | step :: steps, pos, len => EndsAtBuffer first steps (pos + step.text.length) len

instance decidableEndsAtBuffer (first : Nat) :
    ∀ steps pos len, Decidable (EndsAtBuffer first steps pos len)
  | [], _, _ => instDecidableFalse
  | .reserve more :: steps, pos, len => decidableEndsAtBuffer first steps pos (max len (pos + more))
  | .strncat text :: steps, pos, len =>
      have := decidableEndsAtBuffer first steps (pos + text.length) len
      inferInstanceAs (Decidable (_ ∨ _))
  | .snprintf text :: steps, pos, len | .unchecked _ text :: steps, pos, len =>
      decidableEndsAtBuffer first steps (pos + text.length) len
  | .advance _ :: steps, pos, len | .fail :: steps, pos, len | .undefined :: steps, pos, len =>
      decidableEndsAtBuffer first steps pos len

/-- The position of the step stays where its text ends. -/
def PrintStep.Complete : PrintStep → Prop
  | unchecked limit text => text.length < limit
  | advance count => count = 0
  | _ => True

section Rules

variable {b c : Printed} {steps more : List PrintStep}

theorem printAll_append (steps more : List PrintStep) (b : Printed) :
    printAll (steps ++ more) b = (printAll steps b).bind (printAll more) := by
  induction steps generalizing b with
  | nil => rfl
  | cons step steps ih =>
      rw [List.cons_append, printAll, printAll]
      cases step.run b with
      | undefined | fail => rfl
      | ok c => exact ih c

@[simp]
theorem printedText_append (steps more : List PrintStep) :
    printedText (steps ++ more) = printedText steps ++ printedText more := List.flatMap_append

@[simp]
theorem printedText_cons (step : PrintStep) (steps : List PrintStep) :
    printedText (step :: steps) = step.text ++ printedText steps := List.flatMap_cons

@[simp] theorem printedText_nil : printedText [] = [] := rfl

theorem Printed.Whole.put (h : b.Whole) (text : Text) :
    (b.put text).Whole ∧ (b.put text).text = b.text ++ text := by
  have htext : (b.put text).text = b.text ++ text := if_pos h.pos
  refine ⟨⟨?_, rfl⟩, htext⟩
  rw [htext, List.length_append, ← h.pos]
  rfl

/-- A complete step prints its text. -/
theorem PrintStep.run_complete {step : PrintStep} (hstep : step.Complete) (hb : b.Whole)
    (h : step.run b = .ok c) : c.Whole ∧ c.text = b.text ++ step.text := by
  cases step with
  | reserve count =>
      rw [← Outcome.ok.inj h]
      exact ⟨⟨hb.pos, hb.terminated⟩, (List.append_nil _).symm⟩
  | strncat text =>
      rw [PrintStep.run] at h
      split at h
      · exact Outcome.ok.inj h ▸ hb.put text
      · cases h
  | snprintf text =>
      rw [PrintStep.run] at h
      split at h
      · cases h
      · exact Outcome.ok.inj h ▸ hb.put text
  | unchecked limit text =>
      rw [PrintStep.Complete] at hstep
      rw [PrintStep.run, List.take_of_length_le (Nat.le_sub_one_of_lt hstep)] at h
      split at h
      · cases h
      · obtain ⟨hwhole, htext⟩ := hb.put text
        rw [← Outcome.ok.inj h]
        exact ⟨⟨hwhole.pos, decide_eq_true hstep⟩, htext⟩
  | advance count =>
      rw [PrintStep.Complete] at hstep
      rw [← Outcome.ok.inj h, hstep]
      exact ⟨⟨hb.pos, rfl⟩, (List.append_nil _).symm⟩
  | fail | undefined => cases h

/-- Complete steps print their texts one behind the other. -/
theorem printAll_complete (hsteps : ∀ step ∈ steps, step.Complete) (hb : b.Whole)
    (h : printAll steps b = .ok c) : c.Whole ∧ c.text = b.text ++ printedText steps := by
  induction steps generalizing b with
  | nil =>
      rw [← Outcome.ok.inj h]
      exact ⟨hb, (List.append_nil _).symm⟩
  | cons step steps ih =>
      rw [printAll] at h
      obtain ⟨d, hd, hc⟩ := Outcome.bind_eq_ok_iff.mp h
      obtain ⟨hwhole, htext⟩ := PrintStep.run_complete (hsteps step (by simp)) hb hd
      obtain ⟨hlast, hall⟩ := ih (fun step hstep => hsteps step (by simp [hstep])) hwhole hc
      refine ⟨hlast, ?_⟩
      rw [hall, htext, printedText_cons, List.append_assoc]

/-- Behind a NUL nothing is added to the text. -/
theorem PrintStep.run_hidden {step : PrintStep} (hb : b.Hidden) (h : step.run b = .ok c) :
    c.Hidden ∧ c.text = b.text := by
  have hne : b.pos ≠ b.text.length := Nat.ne_of_gt hb
  have hput (text : Text) : (b.put text).text = b.text := if_neg hne
  have hpos (text : Text) (count : Nat) (h : b.text.length < b.pos) :
      (b.put text).text.length < b.pos + count := by
    rw [hput]
    omega
  cases step with
  | reserve count => exact Outcome.ok.inj h ▸ ⟨hb, rfl⟩
  | strncat text =>
      rw [PrintStep.run] at h
      split at h
      · exact Outcome.ok.inj h ▸ ⟨hpos text _ hb, hput text⟩
      · cases h
  | snprintf text =>
      rw [PrintStep.run] at h
      split at h
      · cases h
      · exact Outcome.ok.inj h ▸ ⟨hpos text _ hb, hput text⟩
  | unchecked limit text =>
      rw [PrintStep.run] at h
      split at h
      · cases h
      · exact Outcome.ok.inj h ▸ ⟨hpos _ _ hb, hput _⟩
  | advance count => exact Outcome.ok.inj h ▸ ⟨Nat.lt_add_right count hb, rfl⟩
  | fail | undefined => cases h

theorem printAll_hidden (hb : b.Hidden) (h : printAll steps b = .ok c) :
    c.Hidden ∧ c.text = b.text := by
  induction steps generalizing b with
  | nil => exact Outcome.ok.inj h ▸ ⟨hb, rfl⟩
  | cons step steps ih =>
      rw [printAll] at h
      obtain ⟨d, hd, hc⟩ := Outcome.bind_eq_ok_iff.mp h
      obtain ⟨hhidden, htext⟩ := PrintStep.run_hidden hb hd
      rw [← htext]
      exact ih hhidden hc

/-- The limit cuts the text, and hides what is printed later. -/
theorem printAll_unchecked {limit : Nat} {text : Text} (hsteps : ∀ step ∈ steps, step.Complete)
    (hlimit : 0 < limit) (htext : limit ≤ text.length) (hb : b.Whole)
    (h : printAll (steps ++ .unchecked limit text :: more) b = .ok c) :
    c.text = b.text ++ (printedText steps ++ text.take (limit - 1)) := by
  rw [printAll_append] at h
  obtain ⟨d, hd, hc⟩ := Outcome.bind_eq_ok_iff.mp h
  obtain ⟨hwhole, hprinted⟩ := printAll_complete hsteps hb hd
  rw [printAll] at hc
  obtain ⟨e, he, hc⟩ := Outcome.bind_eq_ok_iff.mp hc
  rw [PrintStep.run] at he
  split at he
  · cases he
  · have htake := (hwhole.put (text.take (limit - 1))).2
    have hhidden : e.Hidden := by
      rw [← Outcome.ok.inj he, Printed.Hidden, htake, List.length_append, ← hwhole.pos,
        List.length_take]
      simp only
      omega
    rw [(printAll_hidden hhidden hc).2, ← Outcome.ok.inj he, htake, hprinted, List.append_assoc]

/-- A position that moves hides what is printed later. -/
theorem printAll_advance {count : Nat} (hsteps : ∀ step ∈ steps, step.Complete) (hcount : 0 < count)
    (hb : b.Whole) (h : printAll (steps ++ .advance count :: more) b = .ok c) :
    c.text = b.text ++ printedText steps := by
  rw [printAll_append] at h
  obtain ⟨d, hd, hc⟩ := Outcome.bind_eq_ok_iff.mp h
  obtain ⟨hwhole, hprinted⟩ := printAll_complete hsteps hb hd
  have hhidden : Printed.Hidden { d with pos := d.pos + count, terminated := decide (count = 0) } := by
    have hpos := hwhole.pos
    rw [Printed.Hidden]
    simp only
    omega
  rw [(printAll_hidden hhidden hc).2, hprinted]

theorem printAll_ne_undefined_iff : printAll steps b ≠ .undefined ↔ StaysInside steps b := by
  induction steps generalizing b with
  | nil => exact iff_of_true (fun h => by cases h) trivial
  | cons step steps ih =>
      rw [printAll, StaysInside]
      cases hstep : step.run b with
      | undefined => exact iff_of_false (fun h => h rfl) fun h => h.1 rfl
      | fail =>
          apply iff_of_true
          · intro h
            cases h
          · refine ⟨fun h => ?_, fun c h => ?_⟩ <;> cases h
      | ok d =>
          rw [Outcome.ok_bind, ih]
          exact ⟨fun h => ⟨fun hd => (by cases hd), fun c hc => Outcome.ok.inj hc ▸ h⟩,
            fun h => h.2 d rfl⟩

/-- A function that hands a text back has met no step that stops it. -/
theorem fail_not_mem (h : printAll steps b = .ok c) : .fail ∉ steps ∧ .undefined ∉ steps := by
  induction steps generalizing b with
  | nil => exact ⟨List.not_mem_nil, List.not_mem_nil⟩
  | cons step steps ih =>
      rw [printAll] at h
      obtain ⟨d, hd, hc⟩ := Outcome.bind_eq_ok_iff.mp h
      obtain ⟨hfail, hundefined⟩ := ih hc
      refine ⟨List.not_mem_cons_of_ne_of_not_mem ?_ hfail,
        List.not_mem_cons_of_ne_of_not_mem ?_ hundefined⟩
      · intro hstep
        rw [← hstep] at hd
        cases hd
      · intro hstep
        rw [← hstep] at hd
        cases hd

theorem printAll_reserve {more : Nat} {text : Text}
    (hsteps : ∀ b : Printed, b.Whole → b.pos + more ≤ b.nalloc →
      ∃ c, printAll steps b = .ok c ∧ c.Whole ∧ c.text = b.text ++ text ∧ c.nalloc = b.nalloc)
    (hb : b.Whole) (hfits : b.pos + more ≤ doubled b.nalloc (b.pos + more) (b.pos + more)) :
    ∃ c, printAll (.reserve more :: steps) b = .ok c ∧ c.Whole ∧ c.text = b.text ++ text ∧
      c.nalloc = doubled b.nalloc (b.pos + more) (b.pos + more) :=
  hsteps { b with nalloc := doubled b.nalloc (b.pos + more) (b.pos + more) } ⟨hb.pos, hb.terminated⟩ hfits

/-- Entries that are printed into reserved room: the buffer ends with the room for the last one. -/
theorem printAll_reserved {α : Type*} {first len more : Nat} {prints : α → List PrintStep}
    {text : α → Text} {x : α} {xs : List α} (hfirst : 0 < first)
    (hprints : ∀ y ∈ x :: xs, ∀ b : Printed, b.Whole → b.pos + more ≤ b.nalloc →
      ∃ c, printAll (prints y) b = .ok c ∧ c.Whole ∧ c.text = b.text ++ text y ∧ c.nalloc = b.nalloc)
    (hb : b.Whole) (hlen : LeastDouble first len b.nalloc) (hle : len ≤ b.pos + more) :
    ∃ c, printAll ((x :: xs).flatMap fun y => .reserve more :: prints y) b = .ok c ∧ c.Whole ∧
      c.text = b.text ++ (x :: xs).flatMap text ∧
        LeastDouble first ((b.text ++ (x :: xs).dropLast.flatMap text).length + more) c.nalloc := by
  induction xs generalizing x b len with
  | nil =>
      have hroom := hlen.doubled hfirst hle
      obtain ⟨c, hc, hwhole, htext, hnalloc⟩ := printAll_reserve (hprints x (by simp)) hb hroom.fits
      refine ⟨c, ?_, hwhole, ?_, ?_⟩
      · rw [List.flatMap_cons, List.flatMap_nil, List.append_nil, hc]
      · rw [List.flatMap_cons, List.flatMap_nil, List.append_nil, htext]
      · rw [List.dropLast_singleton, List.flatMap_nil, List.append_nil, ← hb.pos, hnalloc]
        exact hroom
  | cons y ys ih =>
      have hroom := hlen.doubled hfirst hle
      obtain ⟨c, hc, hwhole, htext, hnalloc⟩ := printAll_reserve (hprints x (by simp)) hb hroom.fits
      rw [← hnalloc] at hroom
      have hpos : b.pos + more ≤ c.pos + more := by
        rw [hwhole.pos, htext, List.length_append, hb.pos]
        omega
      obtain ⟨d, hd, hwhole', htext', hnalloc'⟩ :=
        ih (fun z hz => hprints z (List.mem_cons_of_mem _ hz)) hwhole hroom hpos
      refine ⟨d, ?_, hwhole', ?_, ?_⟩
      · rw [List.flatMap_cons, printAll_append, hc, Outcome.ok_bind, hd]
      · rw [htext', htext, List.append_assoc]
        rfl
      · rw [List.dropLast_cons_of_ne_nil (List.cons_ne_nil y ys), List.flatMap_cons,
          ← List.append_assoc, ← htext]
        exact hnalloc'

/-! ### Ample room -/

/-- Steps are ample at the end of whatever was printed before. -/
def AlwaysAmple (steps : List PrintStep) : Prop := ∀ pos len, Ample steps pos len

theorem ample_append {pos len : Nat} (hsteps : Ample steps pos len) (hmore : AlwaysAmple more) :
    Ample (steps ++ more) pos len := by
  induction steps generalizing pos len with
  | nil => exact hmore pos len
  | cons step steps ih =>
      cases step with
      | reserve count => exact ih hsteps
      | strncat text | snprintf text => exact ⟨hsteps.1, ih hsteps.2⟩
      | unchecked limit text | advance count | fail | undefined => exact hsteps

theorem AlwaysAmple.append (hsteps : AlwaysAmple steps) (hmore : AlwaysAmple more) :
    AlwaysAmple (steps ++ more) :=
  fun pos len => ample_append (hsteps pos len) hmore

theorem alwaysAmple_nil : AlwaysAmple [] := fun _ _ => trivial

/-- Ample steps print their texts. -/
theorem Ample.complete {pos len : Nat} (h : Ample steps pos len) : ∀ step ∈ steps, step.Complete := by
  induction steps generalizing pos len with
  | nil => nofun
  | cons step steps ih =>
      intro s hs
      cases step with
      | reserve count =>
          rcases List.mem_cons.mp hs with rfl | hs
          · trivial
          · exact ih h s hs
      | strncat text | snprintf text =>
          rcases List.mem_cons.mp hs with rfl | hs
          · trivial
          · exact ih h.2 s hs
      | unchecked limit text | advance count | fail | undefined => exact h.elim

/-- Among ample steps none stops the function. -/
theorem Ample.defined {pos len : Nat} (h : Ample steps pos len) :
    .fail ∉ steps ∧ .undefined ∉ steps := by
  induction steps generalizing pos len with
  | nil => exact ⟨List.not_mem_nil, List.not_mem_nil⟩
  | cons step steps ih =>
      cases step with
      | reserve count => simpa using ih h
      | strncat text | snprintf text => simpa using ih h.2
      | unchecked limit text | advance count | fail | undefined => exact h.elim

/-- Ample steps are carried out to the end, unless a text ends where the buffer does. -/
theorem printAll_ample_iff {first len : Nat} (hfirst : 0 < first) (hb : b.Whole)
    (hlen : LeastDouble first len b.nalloc) (h : Ample steps b.pos len) :
    (∃ c, printAll steps b = .ok c) ↔ ¬ EndsAtBuffer first steps b.pos len := by
  induction steps generalizing b len with
  | nil => exact iff_of_true ⟨b, rfl⟩ id
  | cons step steps ih =>
      cases step with
      | reserve count =>
          -- the room grows only when more is reserved than before
          have hgrown : LeastDouble first (max len (b.pos + count))
              (doubled b.nalloc (b.pos + count) (b.pos + count)) := by
            rcases Nat.le_total len (b.pos + count) with hle | hle
            · rw [Nat.max_eq_right hle]
              exact hlen.doubled hfirst hle
            · have hsame : doubled b.nalloc (b.pos + count) (b.pos + count) = b.nalloc := by
                have hfits := hlen.fits
                cases hcount : b.pos + count with
                | zero => rfl
                | succ target =>
                    rw [doubled, if_neg]
                    omega
              rw [Nat.max_eq_left hle, hsame]
              exact hlen
          have hnext := ih
            (b := { b with nalloc := doubled b.nalloc (b.pos + count) (b.pos + count) })
            ⟨hb.pos, hb.terminated⟩ hgrown h
          rw [printAll, PrintStep.run, Outcome.ok_bind]
          exact hnext
      | strncat text =>
          have hput := hb.put text
          have hfits := hlen.fits
          by_cases hroom : b.pos + text.length < b.nalloc
          · have hnot : ¬ (b.pos + text.length = len ∧ doubled first len len = len) := by
              rintro ⟨hend, hfull⟩
              have hsame := hlen.unique (hfull ▸ (leastDouble_first first).doubled hfirst (Nat.zero_le len))
              omega
            rw [printAll, PrintStep.run, if_pos ⟨hb.terminated, hroom⟩, Outcome.ok_bind, EndsAtBuffer,
              or_iff_right hnot]
            exact ih (b := b.put text) hput.1 hlen h.2
          · have hend : b.pos + text.length = len ∧ doubled first len len = len := by
              have hle := h.1
              refine ⟨by omega, ?_⟩
              rw [((leastDouble_first first).doubled hfirst (Nat.zero_le len)).unique hlen]
              omega
            rw [printAll, PrintStep.run, if_neg fun hok => hroom hok.2, EndsAtBuffer]
            exact iff_of_false (by rintro ⟨c, ⟨⟩⟩) (not_not.mpr (.inl hend))
      | snprintf text =>
          have hput := hb.put text
          have hroom : ¬ b.nalloc - b.pos ≤ text.length := by
            have hfits := hlen.fits
            have hlt := h.1
            omega
          rw [printAll, PrintStep.run, if_neg hroom, Outcome.ok_bind]
          exact ih (b := b.put text) hput.1 hlen h.2
      | unchecked limit text | advance count | fail | undefined => exact h.elim

/-! ### Room that is there -/

/-- With room for it, the step prints its text. -/
def PrintStep.Prints : PrintStep → Prop
  | strncat _ | snprintf _ => True
  | unchecked limit text => text.length < limit
  | _ => False

/-- A step that prints, with room for its text and a NUL. -/
theorem PrintStep.run_prints {step : PrintStep} (hstep : step.Prints) (hb : b.Whole)
    (hroom : b.pos + step.text.length < b.nalloc) : step.run b = .ok (b.put step.text) := by
  cases step with
  | strncat text => exact if_pos ⟨hb.terminated, hroom⟩
  | snprintf text =>
      have hroom : b.pos + text.length < b.nalloc := hroom
      exact if_neg (by omega)
  | unchecked limit text =>
      have hroom : b.pos + text.length < b.nalloc := hroom
      have hstep : text.length < limit := hstep
      rw [PrintStep.run, if_neg (by omega), List.take_of_length_le (Nat.le_sub_one_of_lt hstep),
        decide_eq_true hstep]
      rfl
  | reserve count | advance count | fail | undefined => exact hstep.elim

/-- Steps that print, with room for their texts and a NUL. -/
theorem printAll_prints (hsteps : ∀ step ∈ steps, step.Prints) (hb : b.Whole)
    (hroom : b.pos + (printedText steps).length < b.nalloc) :
    ∃ c, printAll steps b = .ok c ∧ c.Whole ∧ c.text = b.text ++ printedText steps ∧
      c.nalloc = b.nalloc := by
  induction steps generalizing b with
  | nil => exact ⟨b, rfl, hb, (List.append_nil _).symm, rfl⟩
  | cons step steps ih =>
      obtain ⟨hstep, hsteps⟩ := List.forall_mem_cons.mp hsteps
      rw [printedText_cons, List.length_append] at hroom
      obtain ⟨hwhole, htext⟩ := hb.put step.text
      have hpos : (b.put step.text).pos = b.pos + step.text.length := rfl
      have hnalloc : (b.put step.text).nalloc = b.nalloc := rfl
      obtain ⟨c, hc, hlast, hall, hsize⟩ := ih hsteps hwhole (by omega)
      refine ⟨c, ?_, hlast, ?_, hsize⟩
      · rw [printAll, PrintStep.run_prints hstep hb (by omega), Outcome.ok_bind, hc]
      · rw [hall, htext, printedText_cons, List.append_assoc]

/-- Steps that print into room that is reserved for them. -/
theorem printAll_room {room : Nat} (hsteps : ∀ step ∈ steps, step.Prints) (hb : b.Whole)
    (hnalloc : b.text.length < b.nalloc) (hroom : (printedText steps).length < room) :
    ∃ c, printAll (.reserve room :: steps) b = .ok c ∧ c.Whole ∧
      c.text = b.text ++ printedText steps ∧ c.text.length < c.nalloc := by
  have hfits : b.pos + room ≤ doubled b.nalloc (b.pos + room) (b.pos + room) := by
    refine (doubled_spec (by omega) (Nat.lt_two_pow_self.le.trans ?_)).1
    exact Nat.le_mul_of_pos_left _ (by omega)
  have hgrown : b.pos + (printedText steps).length < doubled b.nalloc (b.pos + room)
      (b.pos + room) := by omega
  obtain ⟨c, hc, hwhole, htext, hsize⟩ := @printAll_prints
    { b with nalloc := doubled b.nalloc (b.pos + room) (b.pos + room) } steps hsteps
    ⟨hb.pos, hb.terminated⟩ hgrown
  refine ⟨c, hc, hwhole, htext, ?_⟩
  rw [htext, hsize, List.length_append, ← hb.pos]
  exact hgrown

/-- Entries that print into room that is reserved for each of them. -/
theorem printAll_rooms {α : Type*} {room : Nat} {prints : α → List PrintStep} {xs : List α}
    (hprints : ∀ x ∈ xs, (∀ step ∈ prints x, step.Prints) ∧ (printedText (prints x)).length < room)
    (hb : b.Whole) (hnalloc : b.text.length < b.nalloc) :
    ∃ c, printAll (xs.flatMap fun x => .reserve room :: prints x) b = .ok c ∧ c.Whole ∧
      (c.text = b.text ++ xs.flatMap fun x => printedText (prints x)) ∧
        c.text.length < c.nalloc := by
  induction xs generalizing b with
  | nil => exact ⟨b, rfl, hb, (List.append_nil _).symm, hnalloc⟩
  | cons x xs ih =>
      obtain ⟨⟨hx, hroom⟩, hxs⟩ := List.forall_mem_cons.mp hprints
      obtain ⟨c, hc, hwhole, htext, hlt⟩ := printAll_room hx hb hnalloc hroom
      obtain ⟨d, hd, hlast, hall, hsize⟩ := ih hxs hwhole hlt
      refine ⟨d, ?_, hlast, ?_, hsize⟩
      · rw [List.flatMap_cons, printAll_append, hc, Outcome.ok_bind, hd]
      · rw [hall, htext, List.flatMap_cons, List.append_assoc]

/-! ### Texts with the rest of the buffer as their limit -/

/-- The difference of the length of a buffer and a position, as a `size_t`. -/
def restOf (nalloc pos : Nat) : Nat :=
  if pos ≤ nalloc then nalloc - pos else 2 ^ 64 - (pos - nalloc)

/-- `snprintf` of texts behind each other, each with the rest of the buffer as its limit. -/
def limited (nalloc : Nat) : Nat → List Text → List PrintStep
  | _, [] => []
  | pos, text :: texts =>
      .unchecked (restOf nalloc pos) text :: limited nalloc (pos + text.length) texts

theorem printedText_limited (nalloc pos : Nat) (texts : List Text) :
    printedText (limited nalloc pos texts) = texts.flatten := by
  induction texts generalizing pos with
  | nil => rfl
  | cons text texts ih => rw [limited, printedText_cons, ih, List.flatten_cons]; rfl

/-- The position moves by every text, whether or not it was cut. -/
theorem pos_limited {nalloc pos : Nat} {texts : List Text}
    (h : printAll (limited nalloc pos texts) b = .ok c) :
    c.pos = b.pos + texts.flatten.length ∧ c.nalloc = b.nalloc := by
  induction texts generalizing pos b with
  | nil => exact Outcome.ok.inj h ▸ ⟨rfl, rfl⟩
  | cons text texts ih =>
      rw [limited, printAll] at h
      obtain ⟨d, hd, hc⟩ := Outcome.bind_eq_ok_iff.mp h
      rw [PrintStep.run] at hd
      split at hd
      · cases hd
      · obtain ⟨hpos, hnalloc⟩ := ih hc
        rw [← Outcome.ok.inj hd] at hpos hnalloc
        refine ⟨?_, hnalloc⟩
        rw [hpos, List.flatten_cons, List.length_append, Nat.add_assoc]

theorem prints_limited {nalloc pos : Nat} {texts : List Text}
    (h : pos + texts.flatten.length < nalloc) :
    ∀ step ∈ limited nalloc pos texts, step.Prints := by
  induction texts generalizing pos with
  | nil => nofun
  | cons text texts ih =>
      rw [List.flatten_cons, List.length_append] at h
      refine List.forall_mem_cons.mpr ⟨?_, ih (by omega)⟩
      have hlimit : text.length < restOf nalloc pos := by
        rw [restOf, if_pos (by omega)]
        omega
      exact hlimit

/-- Texts and a last one, with room for them and a NUL. -/
theorem printAll_limited {texts : List Text} {last : Text} (hb : b.Whole)
    (hroom : b.pos + (texts.flatten ++ last).length < b.nalloc) :
    ∃ c, printAll (limited b.nalloc b.pos texts ++ [.strncat last]) b = .ok c ∧ c.Whole ∧
      c.text = b.text ++ (texts.flatten ++ last) := by
  have hprinted : printedText (limited b.nalloc b.pos texts ++ [.strncat last]) =
      texts.flatten ++ last := by
    rw [printedText_append, printedText_limited, printedText_cons, printedText_nil,
      List.append_nil]
    rfl
  have hsteps : ∀ step ∈ limited b.nalloc b.pos texts ++ [.strncat last], step.Prints := by
    intro step hstep
    rw [List.length_append] at hroom
    rcases List.mem_append.mp hstep with hstep | hstep
    · exact prints_limited (by omega) step hstep
    · rw [List.mem_singleton.mp hstep]
      trivial
  obtain ⟨c, hc, hwhole, htext, -⟩ := printAll_prints hsteps hb (hprinted ▸ hroom)
  exact ⟨c, hc, hwhole, hprinted ▸ htext⟩

/-- They are printed only with that room. -/
theorem lt_of_printAll_limited {texts : List Text} {last : Text}
    (h : printAll (limited b.nalloc b.pos texts ++ [.strncat last]) b = .ok c) :
    b.pos + (texts.flatten ++ last).length < b.nalloc := by
  rw [printAll_append] at h
  obtain ⟨d, hd, hc⟩ := Outcome.bind_eq_ok_iff.mp h
  obtain ⟨hpos, hnalloc⟩ := pos_limited hd
  rw [printAll, PrintStep.run] at hc
  rw [List.length_append]
  split at hc
  · next hok =>
      have hroom := hok.2
      omega
  · cases hc

end Rules

end XHDF5.Math
