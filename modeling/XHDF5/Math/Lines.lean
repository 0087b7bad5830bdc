/-
# Reading a file line by line

A loop over `fgets` gets the lines of a file, each with its newline, and cuts a line that is longer
than the buffer into pieces. The pieces together are the file, so a printer whose lines fit gets
them back.
-/

import XHDF5.Math.CString

namespace XHDF5.Math

/-- The pieces that a loop over `fgets` gets, from a buffer with room for some characters and a NUL,
with the characters it has got for the first piece. -/
def fgetsFrom (room : Nat) : Text → Text → List Text
  | [], [] => []
  | got@(_ :: _), [] => [got]
  | got, c :: rest =>
      if c = '\n' ∨ room ≤ got.length + 1 then (got ++ [c]) :: fgetsFrom room [] rest
      else fgetsFrom room (got ++ [c]) rest

/-- The pieces of a file. -/
def fgetsAll (room : Nat) (file : Text) : List Text := fgetsFrom room [] file

variable {room : Nat} {got file line rest : Text}

theorem fgetsFrom_cons (c : Char) : fgetsFrom room got (c :: rest) =
    if c = '\n' ∨ room ≤ got.length + 1 then (got ++ [c]) :: fgetsFrom room [] rest
    else fgetsFrom room (got ++ [c]) rest := by
  rw [fgetsFrom]

theorem flatten_fgetsFrom (got file : Text) : (fgetsFrom room got file).flatten = got ++ file := by
  induction file generalizing got with
  | nil =>
      cases got with
      | nil => rfl
      | cons c got => rw [fgetsFrom, List.flatten_singleton, List.append_nil]
  | cons c rest ih =>
      rw [fgetsFrom_cons]
      split
      · rw [List.flatten_cons, ih, List.append_assoc, List.nil_append, List.singleton_append]
      · rw [ih, List.append_assoc, List.singleton_append]

/-- Nothing of the file is lost. -/
theorem flatten_fgetsAll (file : Text) : (fgetsAll room file).flatten = file :=
  flatten_fgetsFrom [] file

theorem fgetsFrom_line (hline : '\n' ∉ line) (hfits : got.length + line.length < room) :
    fgetsFrom room got (line ++ '\n' :: rest) = (got ++ line ++ ['\n']) :: fgetsAll room rest := by
  induction line generalizing got with
  | nil =>
      rw [List.nil_append, fgetsFrom_cons, if_pos (.inl rfl), List.append_nil]
      rfl
  | cons c line ih =>
      rw [List.mem_cons, not_or] at hline
      rw [List.length_cons] at hfits
      have hmore : ¬ (c = '\n' ∨ room ≤ got.length + 1) := by
        rintro (heq | hfull)
        · exact hline.1 heq.symm
        · omega
      have hlength : (got ++ [c]).length + line.length < room := by
        rw [List.length_append, List.length_singleton]
        omega
      have hgot : got ++ [c] ++ line = got ++ c :: line := by
        rw [List.append_assoc, List.singleton_append]
      rw [List.cons_append, fgetsFrom_cons, if_neg hmore, ih hline.2 hlength, hgot]

/-- A line that fits into the buffer is one piece. -/
theorem fgetsAll_line (hline : '\n' ∉ line) (hfits : line.length < room) :
    fgetsAll room (line ++ '\n' :: rest) = (line ++ ['\n']) :: fgetsAll room rest := by
  have hpiece : fgetsFrom room [] (line ++ '\n' :: rest) =
      ([] ++ line ++ ['\n']) :: fgetsAll room rest :=
    fgetsFrom_line hline (by simpa using hfits)
  rwa [List.nil_append] at hpiece

/-- Lines that fit into the buffer are got back one by one. -/
theorem fgetsAll_lines {lines : List Text} (hlines : ∀ line ∈ lines, '\n' ∉ line)
    (hfits : ∀ line ∈ lines, line.length < room) :
    fgetsAll room (lines.map (· ++ ['\n'])).flatten = lines.map (· ++ ['\n']) := by
  induction lines with
  | nil => rfl
  | cons line lines ih =>
      obtain ⟨hline, hlines⟩ := List.forall_mem_cons.mp hlines
      obtain ⟨hfit, hfits⟩ := List.forall_mem_cons.mp hfits
      rw [List.map_cons, List.flatten_cons, List.append_assoc, List.singleton_append,
        fgetsAll_line hline hfit, ih hlines hfits]

end XHDF5.Math
