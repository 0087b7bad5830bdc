/-
# Strings that end with NUL

The string functions of C see a text up to its first NUL. `strncpy` stores a fixed number of
characters: as much of the source as there is room for, and NULs behind it.
-/

import Mathlib.Data.List.TakeWhile
import XHDF5.Math.Buffer
import XHDF5.Math.Token

namespace XHDF5.Math

/-- The character that ends a string. -/
def nul : Char := '\x00'

/-- What the string functions see of a text. -/
def cString (text : Text) : Text := text.takeWhile (· ≠ nul)

/-- `strlen`. -/
def strlen (text : Text) : Nat := (cString text).length

/-- What `strncpy` stores. -/
def padded (source : Text) (count : Nat) : Text :=
  (cString source).take count ++ List.replicate (count - strlen source) nul

namespace Buffer

/-- `strncpy` into a buffer, with the place where it starts. -/
def strncpy (b : Buffer Char) (start : Nat) (source : Text) (count : Nat) : Outcome (Buffer Char) :=
  if b.Within start count then .ok ⟨b.bytes.write start (padded source count), b.size⟩ else
    .undefined

/-- The string in a buffer, for a reader that goes on up to the NUL. -/
def string (b : Buffer Char) : Outcome Text :=
  if nul ∈ b.bytes.read 0 b.size then .ok (cString (b.bytes.read 0 b.size)) else .undefined

/-- The string that begins at a place, for a reader that goes on up to the NUL. -/
def stringFrom (b : Buffer Char) (ptr : Nat) : Outcome Text :=
  let chars := b.bytes.read ptr (b.size - ptr)
  if nul ∈ chars then .ok (cString chars) else .undefined

/-- A string begins at the place. -/
def Reads (b : Buffer Char) (ptr : Nat) (text : Text) : Prop :=
  nul ∉ text ∧ ptr + text.length < b.size ∧ b.bytes.read ptr (text.length + 1) = text ++ [nul]

/-- The first characters of a buffer. -/
def StartsWith (b : Buffer Char) (text : Text) : Prop := b.bytes.read 0 text.length = text

end Buffer

variable {text rest source : Text} {count : Nat}

theorem nul_not_mem_cString (text : Text) : nul ∉ cString text := fun h => by
  have hne := List.mem_takeWhile_imp h
  simp at hne

theorem cString_of_not_mem (h : nul ∉ text) : cString text = text :=
  List.takeWhile_eq_self_iff.mpr fun _ hc => decide_eq_true (ne_of_mem_of_not_mem hc h)

/-- The whole text is seen just when it has no NUL. -/
theorem cString_eq_iff : cString text = text ↔ nul ∉ text :=
  ⟨fun h => h ▸ nul_not_mem_cString text, cString_of_not_mem⟩

/-- A NUL ends what is seen. -/
theorem cString_append_nul (h : nul ∉ text) : cString (text ++ nul :: rest) = text := by
  rw [cString, List.takeWhile_append_of_pos fun _ hc => decide_eq_true (ne_of_mem_of_not_mem hc h)]
  simp

theorem strlen_le (text : Text) : strlen text ≤ text.length :=
  (List.takeWhile_sublist _).length_le

/-- With room for a NUL, all that is seen of the source and NULs up to the end. -/
theorem padded_of_lt (h : strlen source < count) :
    padded source count =
      cString source ++ nul :: List.replicate (count - strlen source - 1) nul := by
  rw [padded, List.take_of_length_le (Nat.le_of_lt h), ← List.replicate_succ,
    Nat.sub_add_cancel (Nat.sub_pos_of_lt h)]

@[simp] theorem length_padded (source : Text) (count : Nat) : (padded source count).length =
  count := by
  rw [padded, List.length_append, List.length_take, List.length_replicate, strlen]
  omega

theorem strncpy_of_within {b : Buffer Char} {start : Nat} (h : b.Within start count) :
    b.strncpy start source count = .ok ⟨b.bytes.write start (padded source count), b.size⟩ :=
  if_pos h

theorem strncpy_of_not_within {b : Buffer Char} {start : Nat} (h : ¬ b.Within start count) :
    b.strncpy start source count = .undefined :=
  if_neg h

/-- The characters up to and with the terminator. -/
theorem padded_succ_strlen (source : Text) :
    padded source (strlen source + 1) = cString source ++ [nul] := by
  have hone : strlen source + 1 - strlen source - 1 = 0 := by omega
  rw [padded_of_lt (Nat.lt_succ_self _), Nat.succ_eq_add_one, hone]
  rfl

namespace Buffer

variable {b : Buffer Char} {start : Nat} {values : Text}

theorem StartsWith.of_append (h : b.StartsWith (text ++ rest)) : b.StartsWith text := by
  unfold StartsWith at h ⊢
  rw [List.length_append, Memory.read_append] at h
  exact List.append_inj_left h (Memory.length_read _)

/-- A store behind the first characters keeps them. -/
theorem StartsWith.write_of_le (h : b.StartsWith text) (hstart : text.length ≤ start) :
    StartsWith ⟨b.bytes.write start values, b.size⟩ text := by
  unfold StartsWith
  rw [Memory.read_write_of_le (by omega)]
  exact h

/-- A store right behind them adds to them. -/
theorem StartsWith.write (h : b.StartsWith text) :
    StartsWith ⟨b.bytes.write text.length values, b.size⟩ (text ++ values) := by
  have hkeep : StartsWith ⟨b.bytes.write text.length values, b.size⟩ text :=
    h.write_of_le (Nat.le_refl _)
  unfold StartsWith at hkeep ⊢
  rw [List.length_append, Memory.read_append, hkeep, Nat.zero_add, Memory.read_write_self]

theorem startsWith_nil : b.StartsWith [] := rfl

/-- Characters and a NUL behind them are a string. -/
theorem StartsWith.string (h : b.StartsWith (text ++ [nul])) (hnul : nul ∉ text)
    (hsize : text.length < b.size) : b.string = .ok text := by
  have hread : b.bytes.read 0 b.size =
      text ++ nul :: b.bytes.read (text.length + 1) (b.size - (text.length + 1)) := by
    have hsplit := @Memory.read_append _ b.bytes 0 (text.length + 1) (b.size - (text.length + 1))
    unfold StartsWith at h
    rw [List.length_append, List.length_singleton] at h
    rw [Nat.add_sub_cancel' hsize, h, Nat.zero_add] at hsplit
    rw [hsplit, List.append_assoc]
    rfl
  unfold Buffer.string
  rw [hread, if_pos (by simp), cString_append_nul hnul]

namespace Reads

variable {ptr : Nat}

theorem stringFrom (h : b.Reads ptr text) : b.stringFrom ptr = .ok text := by
  obtain ⟨hnul, hsize, hread⟩ := h
  have hchars : b.bytes.read ptr (b.size - ptr) = text ++ nul ::
      b.bytes.read (ptr + (text.length + 1)) (b.size - ptr - (text.length + 1)) := by
    have hsplit := @Memory.read_append _ b.bytes ptr (text.length + 1)
      (b.size - ptr - (text.length + 1))
    rw [Nat.add_sub_cancel' (by omega), hread] at hsplit
    rw [hsplit, List.append_assoc]
    rfl
  unfold Buffer.stringFrom
  dsimp only
  rw [hchars, if_pos (by simp), cString_append_nul hnul]

/-- The string behind some characters. -/
theorem drop {pre : Text} (h : b.Reads ptr (pre ++ text)) : b.Reads (ptr + pre.length) text := by
  obtain ⟨hnul, hsize, hread⟩ := h
  rw [List.length_append] at hsize hread
  refine ⟨fun hmem => hnul (List.mem_append_right _ hmem), by omega, ?_⟩
  rw [Nat.add_assoc, Memory.read_append, List.append_assoc] at hread
  exact List.append_inj_right hread (Memory.length_read _)

/-- The character there, the NUL at the end. -/
theorem head (h : b.Reads ptr text) : b.bytes ptr = text.headD nul := by
  have hread : b.bytes.read ptr (text ++ [nul]).length = text ++ [nul] := by
    rw [List.length_append]
    exact h.2.2
  have hfirst := Memory.read_eq_iff.mp hread 0 (by simp)
  rw [Nat.add_zero] at hfirst
  rw [hfirst]
  cases text with
  | nil => rfl
  | cons c text => rfl

/-- A store in front of the string keeps it. -/
theorem write_of_le (h : b.Reads ptr text) (hstart : start + values.length ≤ ptr) :
    Reads ⟨b.bytes.write start values, b.size⟩ ptr text := by
  obtain ⟨hnul, hsize, hread⟩ := h
  refine ⟨hnul, hsize, ?_⟩
  rw [Memory.read_write_of_ge hstart]
  exact hread

/-- A NUL behind its first characters ends the string. -/
theorem cut {pre : Text} {c : Char} (h : b.Reads ptr (pre ++ c :: rest)) :
    Reads ⟨b.bytes.write (ptr + pre.length) [nul], b.size⟩ ptr pre := by
  obtain ⟨hnul, hsize, hread⟩ := h
  refine ⟨fun hmem => hnul (List.mem_append_left _ hmem), ?_, ?_⟩
  · rw [List.length_append] at hsize
    exact Nat.lt_of_le_of_lt (by omega) hsize
  · have hpre : b.bytes.read ptr pre.length = pre := by
      rw [List.append_assoc, List.length_append, Nat.add_assoc, Memory.read_append] at hread
      exact List.append_inj_left hread (Memory.length_read _)
    rw [Memory.read_append, Memory.read_write_of_le (Nat.le_refl _), hpre]
    exact congrArg _ (@Memory.read_write_self _ b.bytes (ptr + pre.length) [nul])

end Reads

end Buffer

end XHDF5.Math
