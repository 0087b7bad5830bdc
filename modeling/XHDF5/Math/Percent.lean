/-
# Percent-encoded texts

A byte may stand for itself, or as a percent sign with its two hexadecimal digits. A percent sign
without two digits behind it has no meaning, so such a text is not decoded.
-/

import XHDF5.Math.Token

namespace XHDF5.Math

/-- The value of a hexadecimal digit. -/
def hexValue (c : Char) : Option Nat :=
  if c.isDigit then some (c.toNat - '0'.toNat)
  else if 'a' ≤ c ∧ c ≤ 'f' then some (c.toNat - 'a'.toNat + 10)
  else if 'A' ≤ c ∧ c ≤ 'F' then some (c.toNat - 'A'.toNat + 10)
  else none

/-- Two hexadecimal digits as a byte. -/
def hexByte (high low : Char) : Option Char :=
  (hexValue high).bind fun high => (hexValue low).map fun low => Char.ofNat (16 * high + low)

/-- The text that a percent-encoded one stands for. -/
def percentDecode : Text → Option Text
  | [] => some []
  | '%' :: high :: low :: rest =>
      (hexByte high low).bind fun c => (percentDecode rest).map fun text => c :: text
  | '%' :: _ => none
  | c :: rest => (percentDecode rest).map fun text => c :: text

variable {text rest : Text} {c : Char}

theorem percentDecode_cons (h : c ≠ '%') (rest : Text) :
    percentDecode (c :: rest) = (percentDecode rest).map fun text => c :: text := by
  rw [percentDecode.eq_def]
  split
  · next heq => cases heq
  · next heq => exact absurd (List.cons.inj heq).1 h
  · next heq => exact absurd (List.cons.inj heq).1 h
  · next heq =>
      obtain ⟨rfl, rfl⟩ := List.cons.inj heq
      rfl

/-- What stands for itself is decoded to itself. -/
theorem percentDecode_append (h : '%' ∉ text) (rest : Text) :
    percentDecode (text ++ rest) = (percentDecode rest).map fun decoded => text ++ decoded := by
  induction text with
  | nil => simp
  | cons c text ih =>
      obtain ⟨hc, htext⟩ := not_or.mp (List.mem_cons.not.mp h)
      rw [List.cons_append, percentDecode_cons (Ne.symm hc), ih htext, Option.map_map]
      rfl

/-- The two digits of a byte. -/
theorem percentDecode_byte {high low : Char}
    (hhigh : hexValue high = some (c.toNat / 16)) (hlow : hexValue low = some (c.toNat % 16))
    (rest : Text) :
    percentDecode ('%' :: high :: low :: rest) =
      (percentDecode rest).map fun text => c :: text := by
  have hbyte : hexByte high low = some c := by
    rw [hexByte, hhigh, hlow, Option.bind_some, Option.map_some, Nat.div_add_mod, Char.ofNat_toNat]
  rw [percentDecode, hbyte, Option.bind_some]

/-- Hexadecimal digits are digits and letters. -/
theorem isAlphanum_of_hexValue {value : Nat} (h : hexValue c = some value) :
    c.isAlphanum = true := by
  have hbounds : c.isDigit = true ∨ ('a' ≤ c ∧ c ≤ 'f') ∨ ('A' ≤ c ∧ c ≤ 'F') := by
    unfold hexValue at h
    split at h
    · exact .inl ‹_›
    · split at h
      · exact .inr (.inl ‹_›)
      · split at h
        · exact .inr (.inr ‹_›)
        · cases h
  have hletters : 'f'.val.toNat = 102 ∧ 'F'.val.toNat = 70 ∧ 'a'.val.toNat = 97 ∧
      'A'.val.toNat = 65 ∧ 'z'.val.toNat = 122 ∧ 'Z'.val.toNat = 90 := by decide
  have halnum : c.isAlphanum = ((decide ('A'.val ≤ c.val ∧ c.val ≤ 'Z'.val) ||
      decide ('a'.val ≤ c.val) && decide (c.val ≤ 'z'.val)) || c.isDigit) := rfl
  simp only [halnum, Bool.or_eq_true, Bool.and_eq_true, decide_eq_true_eq, UInt32.le_iff_toNat_le]
  simp only [Char.le_def, UInt32.le_iff_toNat_le] at hbounds
  rcases hbounds with hdigit | hlower | hupper
  · exact .inr hdigit
  · exact .inl (.inr (by omega))
  · exact .inl (.inl (by omega))

theorem ne_percent_of_isAlphanum (h : c.isAlphanum = true) : c ≠ '%' := by
  rintro rfl
  revert h
  decide

/-- A percent sign between text that has no digits and a text that has a meaning of its own does
not stand for itself. -/
theorem not_mem_percent {front tail decoded : Text} (hfront : ∀ c ∈ front, c.isAlphanum = false)
    (htail : percentDecode tail = some decoded)
    (h : percentDecode (front ++ tail) = some (front ++ decoded)) : '%' ∉ front := by
  induction front with
  | nil => simp
  | cons c front ih =>
      obtain ⟨-, hlater⟩ := List.forall_mem_cons.mp hfront
      by_cases hpercent : c = '%'
      · subst hpercent
        exfalso
        have hdigit (high low : Char) (rest : Text)
            (hrest : front ++ tail = high :: low :: rest) : high.isAlphanum = true ∧
              low.isAlphanum = true ∧ ∃ c more, percentDecode rest = some more ∧
                c :: more = '%' :: (front ++ decoded) := by
          rw [List.cons_append, hrest, percentDecode] at h
          obtain ⟨byte, hbyte, hmore⟩ := Option.bind_eq_some_iff.mp h
          obtain ⟨first, hfirst, hsecond⟩ := Option.bind_eq_some_iff.mp hbyte
          obtain ⟨second, hsecond, -⟩ := Option.map_eq_some_iff.mp hsecond
          obtain ⟨more, hmore, heq⟩ := Option.map_eq_some_iff.mp hmore
          exact ⟨isAlphanum_of_hexValue hfirst, isAlphanum_of_hexValue hsecond, byte, more, hmore,
            heq⟩
        cases hrest : front ++ tail with
        | nil =>
            rw [List.cons_append, hrest] at h
            cases h
        | cons high rest =>
            cases rest with
            | nil =>
                rw [List.cons_append, hrest] at h
                cases h
            | cons low rest =>
                obtain ⟨hhigh, hlow, byte, more, hmore, heq⟩ := hdigit high low rest hrest
                cases front with
                | cons d front =>
                    obtain ⟨rfl, -⟩ := List.cons.inj hrest
                    rw [hlater d List.mem_cons_self] at hhigh
                    cases hhigh
                | nil =>
                    -- The two digits are text of the tail's own.
                    rw [List.nil_append] at hrest heq
                    rw [hrest, percentDecode_cons (ne_percent_of_isAlphanum hhigh),
                      percentDecode_cons (ne_percent_of_isAlphanum hlow), hmore] at htail
                    have hdecoded : high :: low :: more = decoded := Option.some.inj htail
                    have hlen := congrArg List.length (List.cons.inj heq).2
                    rw [← hdecoded] at hlen
                    simp only [List.length_cons] at hlen
                    omega
      · rw [List.cons_append, percentDecode_cons hpercent] at h
        obtain ⟨more, hmore, heq⟩ := Option.map_eq_some_iff.mp h
        rw [(List.cons.inj heq).2] at hmore
        exact List.mem_cons.not.mpr (not_or.mpr ⟨Ne.symm hpercent, ih hlater hmore⟩)

end XHDF5.Math
