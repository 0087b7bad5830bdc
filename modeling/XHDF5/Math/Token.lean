/-
# Tokenizers and numerals of the C and C++ libraries

Both languages cut texts at delimiter characters, but by different rules: `strtok_r` skips
empty fields, while a loop over `std::getline` keeps them, except for an empty field at the
very end of the text. Numerals are read by `strtol`: blanks, an optional sign, and the longest
run of digits; whatever follows is ignored.

The round trips at the end say when each tokenizer recovers the words that a printer joined
with its delimiter.
-/

import Mathlib.Algebra.Order.Ring.Nat
import Mathlib.Data.List.Basic

namespace XHDF5.Math

/-- A C string without its terminating NUL, one character a byte. -/
abbrev Text := List Char

/-- The comparison of texts is their equality. -/
instance lawfulBEq_text : LawfulBEq (List Char) := inferInstance

/-- A condition on the characters of a text is decided along the text. -/
instance (priority := high) {text : Text} {p : Char → Prop} [DecidablePred p] :
    Decidable (∀ c ∈ text, p c) := List.decidableBAll p text

instance (priority := high) {text : Text} {p : Char → Prop} [DecidablePred p] :
    Decidable (∃ c ∈ text, p c) := List.decidableBEx p text

/-- A string literal. Proofs about texts do not look inside. -/
@[irreducible]
def lit (literal : String) : Text := literal.toList

/-- The characters of a literal. -/
theorem lit_ofList (text : Text) : lit (String.ofList text) = text := by
  unfold lit
  exact String.toList_ofList

/-- The fields a loop `while (std::getline(stream, field, delim))` sees. -/
def getlines (delim : Char) (text : Text) : List Text :=
  let fields := text.splitOn delim
  if fields.getLast? = some [] then fields.dropLast else fields

/-- The tokens a loop over `strtok_r` sees for a set of delimiters. -/
def strtok (delim : Char → Bool) (text : Text) : List Text :=
  (text.splitOnP delim).filter (· ≠ [])

/-- `isspace` in the C locale. -/
def isspace (c : Char) : Bool :=
  c == ' ' || ('\t'.toNat ≤ c.toNat && c.toNat ≤ '\r'.toNat)

/-- The value of the longest run of decimal digits that the text begins with, if any. -/
def scanDigits (text : Text) : Option Nat :=
  match text.takeWhile Char.isDigit with
  | [] => none
  | digits => some (Nat.ofDigitChars 10 digits 0)

/-- The number `strtol` reads in base ten, before any range check; `none` without digits. -/
def strtol (text : Text) : Option Int :=
  match text.dropWhile isspace with
  | '-' :: rest => (scanDigits rest).map fun value => -(value : Int)
  | '+' :: rest => (scanDigits rest).map fun value => (value : Int)
  | rest => (scanDigits rest).map fun value => (value : Int)

/-- `%d` and `%llu` of a number that is not negative. -/
def decimal (value : Nat) : Text := Nat.toDigits 10 value

/-- `%d`. -/
def decimalInt : Int → Text
  | .ofNat value => decimal value
  | .negSucc value => '-' :: decimal (value + 1)

@[simp]
theorem decimalInt_natCast (value : Nat) : decimalInt value = decimal value := rfl

/-! ## Numerals -/

theorem isDigit_of_mem_decimal {value : Nat} {c : Char} (hc : c ∈ decimal value) :
    c.isDigit = true :=
  Nat.isDigit_of_mem_toDigits (by decide) (by decide) hc

theorem decimal_ne_nil (value : Nat) : decimal value ≠ [] := Nat.toDigits_ne_nil

theorem not_mem_decimal {value : Nat} {c : Char} (hc : c.isDigit = false) :
    c ∉ decimal value := by
  intro hmem
  rw [isDigit_of_mem_decimal hmem] at hc
  cases hc

/-- A numeral has at most `width` digits exactly when its value is below `10 ^ width`. -/
theorem length_decimal_le_iff {value width : Nat} (hwidth : 0 < width) :
    (decimal value).length ≤ width ↔ value < 10 ^ width :=
  Nat.length_toDigits_le_iff (by decide) hwidth

theorem length_decimal_pos (value : Nat) : 0 < (decimal value).length :=
  List.length_pos_iff.mpr (decimal_ne_nil value)

/-- Larger numbers have no shorter numerals. -/
theorem length_decimal_mono {small large : Nat} (hle : small ≤ large) :
    (decimal small).length ≤ (decimal large).length := by
  rw [length_decimal_le_iff (length_decimal_pos large)]
  exact Nat.lt_of_le_of_lt hle ((length_decimal_le_iff (length_decimal_pos large)).mp (Nat.le_refl _))

theorem scanDigits_decimal_append (value : Nat) (rest : Text)
    (hrest : ∀ c ∈ rest.head?, c.isDigit = false) :
    scanDigits (decimal value ++ rest) = some value := by
  have hrun : (decimal value ++ rest).takeWhile Char.isDigit = decimal value := by
    rw [List.takeWhile_append_of_pos fun c hc => isDigit_of_mem_decimal hc]
    cases rest with
    | nil => simp
    | cons c rest =>
        have hc : c.isDigit = false := hrest c (by simp)
        simp [hc]
  unfold scanDigits
  rw [hrun]
  cases hdigits : decimal value with
  | nil => exact absurd hdigits (decimal_ne_nil value)
  | cons c digits =>
      simp only [← hdigits]
      exact congrArg some Nat.ofDigitChars_ten_toDigits

/-- A numeral starts with a digit, so `strtol` neither skips blanks nor sees a sign. -/
theorem strtol_decimal_append (value : Nat) (rest : Text)
    (hrest : ∀ c ∈ rest.head?, c.isDigit = false) :
    strtol (decimal value ++ rest) = some (value : Int) := by
  obtain ⟨c, digits, hdigits⟩ := List.exists_cons_of_ne_nil (decimal_ne_nil value)
  have hc : c.isDigit = true := isDigit_of_mem_decimal (show c ∈ decimal value by simp [hdigits])
  have hspace : isspace c = false := by
    have hrange : 48 ≤ c.toNat ∧ c.toNat ≤ 57 := by
      simpa [Char.isDigit, UInt32.le_iff_toNat_le] using hc
    have hblank : c ≠ ' ' := by rintro rfl; simp at hc
    simp [isspace, hblank]
    omega
  have hscan := scanDigits_decimal_append value rest hrest
  rw [hdigits, List.cons_append] at hscan ⊢
  have hminus : c ≠ '-' := by rintro rfl; simp at hc
  have hplus : c ≠ '+' := by rintro rfl; simp at hc
  unfold strtol
  rw [List.dropWhile_cons_of_neg (by simp [hspace])]
  split
  · rename_i heq; exact absurd (List.cons.inj heq).1 hminus
  · rename_i heq; exact absurd (List.cons.inj heq).1 hplus
  · rw [hscan]; rfl

@[simp]
theorem strtol_decimal (value : Nat) : strtol (decimal value) = some (value : Int) := by
  simpa using strtol_decimal_append value [] (by simp)

/-- Different numbers have different numerals. -/
theorem decimal_injective : Function.Injective decimal := by
  intro first second heq
  have h := strtol_decimal first
  rw [heq, strtol_decimal] at h
  exact (Int.ofNat.inj (Option.some.inj h)).symm

/-! ## Fields -/

/-- Joining words with a character none of them contains, and cutting there again. -/
theorem splitOn_intercalate_words {delim : Char} {words : List Text}
    (hclean : ∀ word ∈ words, delim ∉ word) (hne : words ≠ []) :
    ([delim].intercalate words).splitOn delim = words :=
  List.splitOn_intercalate delim hclean hne

theorem mem_intercalate {delim c : Char} {words : List Text}
    (hc : c ∈ [delim].intercalate words) : c = delim ∨ ∃ word ∈ words, c ∈ word := by
  induction words with
  | nil => cases hc
  | cons word words ih =>
      cases words with
      | nil => exact Or.inr ⟨word, by simp, by simpa [List.intercalate] using hc⟩
      | cons next words =>
          have hc : c ∈ word ∨ c = delim ∨ c ∈ [delim].intercalate (next :: words) := by
            simpa [List.intercalate] using hc
          rcases hc with hword | hdelim | hrest
          · exact Or.inr ⟨word, List.mem_cons_self, hword⟩
          · exact Or.inl hdelim
          · rcases ih hrest with hdelim | ⟨other, hother, hmem⟩
            · exact Or.inl hdelim
            · exact Or.inr ⟨other, List.mem_cons_of_mem _ hother, hmem⟩

theorem getlines_intercalate {delim : Char} {words : List Text}
    (hclean : ∀ word ∈ words, delim ∉ word) (hne : words ≠ [])
    (hlast : words.getLast? ≠ some []) :
    getlines delim ([delim].intercalate words) = words := by
  unfold getlines
  rw [splitOn_intercalate_words hclean hne]
  exact if_neg hlast

theorem not_mem_of_mem_splitOn {delim : Char} {text field : Text} (hfield : field ∈ text.splitOn delim) :
    delim ∉ field := by
  induction text generalizing field with
  | nil =>
      rw [List.splitOn_nil, List.mem_singleton] at hfield
      simp [hfield]
  | cons c text ih =>
      obtain ⟨head, fields, hfields⟩ := List.exists_cons_of_ne_nil (List.splitOn_ne_nil delim text)
      rw [List.splitOn_cons_eq_if_modifyHead] at hfield
      by_cases hc : c = delim
      · rw [if_pos (by simpa using hc)] at hfield
        rcases List.mem_cons.mp hfield with rfl | hrest
        · simp
        · exact ih hrest
      · rw [if_neg (by simpa using hc), hfields, List.modifyHead_cons] at hfield
        rcases List.mem_cons.mp hfield with rfl | hrest
        · have hhead := ih (hfields ▸ List.mem_cons_self)
          simp [hhead, Ne.symm hc]
        · exact ih (hfields ▸ List.mem_cons_of_mem _ hrest)

theorem not_mem_of_mem_getlines {delim : Char} {text field : Text}
    (hfield : field ∈ getlines delim text) : delim ∉ field := by
  simp only [getlines] at hfield
  split at hfield
  · exact not_mem_of_mem_splitOn ((List.dropLast_subset _) hfield)
  · exact not_mem_of_mem_splitOn hfield

theorem strtok_intercalate {delim : Char} {words : List Text}
    (hclean : ∀ word ∈ words, delim ∉ word) (hfull : ∀ word ∈ words, word ≠ []) :
    strtok (· == delim) ([delim].intercalate words) = words := by
  by_cases hne : words = []
  · subst hne; rfl
  · have hcut := splitOn_intercalate_words hclean hne
    unfold strtok
    rw [show ([delim].intercalate words).splitOnP (· == delim) = words from hcut]
    exact List.filter_eq_self.mpr fun word hword => by simpa using hfull word hword

@[simp]
theorem strtok_nil (delim : Char → Bool) : strtok delim [] = [] := rfl

/-- A delimiter ends one run of tokens and begins another. -/
theorem strtok_append_cons {delim : Char → Bool} (text rest : Text) {c : Char} (hc : delim c) :
    strtok delim (text ++ c :: rest) = strtok delim text ++ strtok delim rest := by
  simp [strtok, List.splitOnP_append_cons text rest hc]

theorem strtok_cons {delim : Char → Bool} (rest : Text) {c : Char} (hc : delim c) :
    strtok delim (c :: rest) = strtok delim rest :=
  strtok_append_cons [] rest hc

theorem strtok_of_clean {delim : Char → Bool} {text : Text} (hclean : ∀ c ∈ text, delim c = false)
    (hne : text ≠ []) : strtok delim text = [text] := by
  simp [strtok, List.splitOnP_eq_singleton hclean, hne]

/-- A word without delimiters at the beginning of a text is its first token. -/
theorem strtok_word_append {delim : Char → Bool} {word tail : Text} (hne : word ≠ [])
    (hclean : ∀ c ∈ word, delim c = false)
    (htail : tail = [] ∨ ∃ d rest, tail = d :: rest ∧ delim d) :
    strtok delim (word ++ tail) = word :: strtok delim tail := by
  rcases htail with rfl | ⟨d, rest, rfl, hd⟩
  · rw [List.append_nil, strtok_of_clean hclean hne, strtok_nil]
  · rw [strtok_append_cons _ _ hd, strtok_of_clean hclean hne, strtok_cons _ hd,
      List.singleton_append]

/-- The tokens hold all characters but the delimiters. -/
theorem flatten_strtok (delim : Char → Bool) (text : Text) :
    (strtok delim text).flatten = text.filter fun c => !delim c := by
  rw [strtok, List.flatten_filter_ne_nil]
  induction text with
  | nil => rfl
  | cons c text ih =>
      obtain ⟨field, fields, hfields⟩ := List.exists_cons_of_ne_nil (List.splitOnP_ne_nil delim text)
      rw [List.splitOnP_cons_eq_if_modifyHead]
      by_cases hc : delim c
      · simp [hc, ih]
      · rw [hfields] at ih ⊢
        simpa [hc] using ih

theorem forall_mem_strtok_iff {delim : Char → Bool} {text : Text} {P : Char → Prop} :
    (∀ token ∈ strtok delim text, ∀ c ∈ token, P c) ↔ ∀ c ∈ text, delim c = false → P c := by
  have hflat : (∀ token ∈ strtok delim text, ∀ c ∈ token, P c) ↔
      ∀ c ∈ (strtok delim text).flatten, P c := by
    simp only [List.mem_flatten, forall_exists_index, and_imp]
    exact ⟨fun h c token ht hc => h token ht c hc, fun h token ht c hc => h c token ht hc⟩
  rw [hflat, flatten_strtok]
  simp

theorem clean_of_mem_strtok {delim : Char → Bool} {text token : Text}
    (htoken : token ∈ strtok delim text) : ∀ c ∈ token, delim c = false :=
  forall_mem_strtok_iff.mpr (fun _ _ hc => hc) token htoken

theorem ne_nil_of_mem_strtok {delim : Char → Bool} {text token : Text}
    (htoken : token ∈ strtok delim text) : token ≠ [] := by
  simpa using (List.mem_filter.mp htoken).2

/-- A text has no delimiter, or a first one. -/
theorem clean_or_first_delim (delim : Char → Bool) (text : Text) :
    (∀ c ∈ text, delim c = false) ∨
      ∃ front c tail, text = front ++ c :: tail ∧ (∀ c ∈ front, delim c = false) ∧ delim c := by
  induction text with
  | nil => exact Or.inl (by simp)
  | cons x text ih =>
      by_cases hx : delim x
      · exact Or.inr ⟨[], x, text, rfl, by simp, hx⟩
      · rcases ih with hclean | ⟨front, c, tail, rfl, hfront, hc⟩
        · exact Or.inl (List.forall_mem_cons.mpr ⟨by simpa using hx, hclean⟩)
        · exact Or.inr ⟨x :: front, c, tail, rfl,
            List.forall_mem_cons.mpr ⟨by simpa using hx, hfront⟩, hc⟩

/-- The first token of a text that does not begin with a delimiter. -/
theorem exists_strtok_cons (delim : Char → Bool) {c : Char} (hc : delim c = false) (text : Text) :
    ∃ first tail, c :: text = first ++ tail ∧ first.head? = some c ∧
      (∀ x ∈ first, delim x = false) ∧ (tail = [] ∨ ∃ d rest, tail = d :: rest ∧ delim d) ∧
      strtok delim (c :: text) = first :: strtok delim tail := by
  rcases clean_or_first_delim delim (c :: text) with hclean | ⟨front, d, tail, htext, hfront, hd⟩
  · exact ⟨c :: text, [], by simp, rfl, hclean, Or.inl rfl, strtok_of_clean hclean (by simp)⟩
  · cases front with
    | nil =>
        obtain ⟨rfl, -⟩ := List.cons.inj htext
        rw [hd] at hc
        cases hc
    | cons x front =>
        obtain ⟨rfl, -⟩ := List.cons.inj htext
        refine ⟨c :: front, d :: tail, htext, rfl, hfront, Or.inr ⟨d, tail, rfl, hd⟩, ?_⟩
        rw [htext, strtok_word_append (by simp) hfront (Or.inr ⟨d, tail, rfl, hd⟩)]

/-- A text has no delimiter, or a last one. -/
theorem clean_or_last_delim (delim : Char → Bool) (text : Text) :
    (∀ c ∈ text, delim c = false) ∨
      ∃ front c tail, text = front ++ c :: tail ∧ delim c ∧ ∀ c ∈ tail, delim c = false := by
  induction text with
  | nil => exact Or.inl (by simp)
  | cons x text ih =>
      rcases ih with hclean | ⟨front, c, tail, rfl, hc, htail⟩
      · by_cases hx : delim x
        · exact Or.inr ⟨[], x, text, rfl, hx, hclean⟩
        · exact Or.inl (List.forall_mem_cons.mpr ⟨by simpa using hx, hclean⟩)
      · exact Or.inr ⟨x :: front, c, tail, rfl, hc, htail⟩

/-- Behind any text, a word without delimiters extends one token and leaves all others alone. -/
theorem exists_strtok_append (delim : Char → Bool) (text : Text) :
    ∃ before stem, ∀ word tail, word ≠ [] → (∀ c ∈ word, delim c = false) →
      (tail = [] ∨ ∃ d rest, tail = d :: rest ∧ delim d) →
        strtok delim (text ++ (word ++ tail)) = before ++ (stem ++ word) :: strtok delim tail := by
  have hclean {stem word : Text} (hstem : ∀ c ∈ stem, delim c = false) (hne : word ≠ [])
      (hword : ∀ c ∈ word, delim c = false) : strtok delim (stem ++ word) = [stem ++ word] := by
    refine strtok_of_clean (fun c hc => ?_) fun hnil => hne (List.append_eq_nil_iff.mp hnil).2
    rcases List.mem_append.mp hc with hin | hin
    · exact hstem c hin
    · exact hword c hin
  suffices h : ∃ before stem, ∀ word, word ≠ [] → (∀ c ∈ word, delim c = false) →
      strtok delim (text ++ word) = before ++ [stem ++ word] by
    obtain ⟨before, stem, hstem⟩ := h
    refine ⟨before, stem, fun word tail hne hword htail => ?_⟩
    rcases htail with rfl | ⟨d, rest, rfl, hd⟩
    · rw [List.append_nil, hstem word hne hword, strtok_nil]
    · rw [← List.append_assoc, strtok_append_cons _ _ hd, hstem word hne hword, strtok_cons _ hd,
        List.append_assoc, List.singleton_append]
  rcases clean_or_last_delim delim text with htext | ⟨front, c, tail, rfl, hc, htail⟩
  · exact ⟨[], text, fun word hne hword => hclean htext hne hword⟩
  · refine ⟨strtok delim front, tail, fun word hne hword => ?_⟩
    rw [List.append_assoc, List.cons_append, strtok_append_cons _ _ hc, hclean htail hne hword]

end XHDF5.Math
