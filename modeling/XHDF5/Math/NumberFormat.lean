/-
# Number formats over bits

An integer or a floating-point number as a reading of bits: a format names the spans of bits that
hold its fields, and its value is a function of these fields alone. The bits may be stored in
another order, given by the place of every bit. Two formats with the same value on all bits have
the same fields in the same places, which the last two sections show for a two's complement format
and for a format with a hidden bit.
-/

import Mathlib.Algebra.Order.Field.Power
import Mathlib.Data.Nat.Bits
import Mathlib.Data.Rat.Defs
import Mathlib.Tactic.FieldSimp
import Mathlib.Tactic.Linarith
import Mathlib.Tactic.Positivity

namespace XHDF5.Math

/-! ## Fields -/

/-- A field of a number: its lowest bit and its size. -/
structure Span where
  first : Nat
  size : Nat
deriving DecidableEq

instance : Membership Nat Span where
  mem span p := span.first ≤ p ∧ p < span.first + span.size

theorem Span.mem_def {p : Nat} {span : Span} :
    p ∈ span ↔ span.first ≤ p ∧ p < span.first + span.size := Iff.rfl

instance (p : Nat) (span : Span) : Decidable (p ∈ span) :=
  decidable_of_iff _ Span.mem_def.symm

/-- A span has no gaps. -/
theorem Span.mem_of_between {span : Span} {low p high : Nat} (hlow : low ∈ span)
    (hhigh : high ∈ span) (hle : low ≤ p) (hge : p ≤ high) : p ∈ span :=
  ⟨hlow.1.trans hle, hge.trans_lt hhigh.2⟩

/-- The unsigned number in some bits. -/
def bitsValue (bit : Nat → Bool) (first : Nat) : Nat → Nat
  | 0 => 0
  | size + 1 => (bit first).toNat + 2 * bitsValue bit (first + 1) size

/-- The unsigned number in a field. -/
def field (bit : Nat → Bool) (span : Span) : Nat := bitsValue bit span.first span.size

theorem bitsValue_lt (bit : Nat → Bool) (first size : Nat) :
    bitsValue bit first size < 2 ^ size := by
  induction size generalizing first with
  | zero => exact Nat.one_pos
  | succ size ih =>
      have hrest := ih (first + 1)
      have hbit := (bit first).toNat_lt
      rw [bitsValue, Nat.pow_succ]
      omega

theorem bitsValue_congr {bit other : Nat → Bool} {first size : Nat}
    (h : ∀ p, first ≤ p → p < first + size → bit p = other p) :
    bitsValue bit first size = bitsValue other first size := by
  induction size generalizing first with
  | zero => rfl
  | succ size ih =>
      rw [bitsValue, bitsValue, h first le_rfl (by omega),
        ih fun p hfirst hlast => h p (by omega) (by omega)]

theorem bitsValue_eq_zero_iff {bit : Nat → Bool} {first size : Nat} :
    bitsValue bit first size = 0 ↔ ∀ p, first ≤ p → p < first + size → bit p = false := by
  induction size generalizing first with
  | zero => simp only [bitsValue, true_iff]; omega
  | succ size ih =>
      rw [bitsValue, Nat.add_eq_zero_iff, Nat.mul_eq_zero, or_iff_right two_ne_zero, ih,
        Bool.toNat_eq_zero]
      constructor
      · rintro ⟨hbit, hrest⟩ p hfirst hlast
        rcases hfirst.eq_or_lt with rfl | hlt
        · exact hbit
        · exact hrest p hlt (by omega)
      · intro h
        exact ⟨h first le_rfl (by omega), fun p hfirst hlast => h p (by omega) (by omega)⟩

theorem bitsValue_ones_iff {bit : Nat → Bool} {first size : Nat} :
    bitsValue bit first size + 1 = 2 ^ size ↔
      ∀ p, first ≤ p → p < first + size → bit p = true := by
  induction size generalizing first with
  | zero => simp only [bitsValue, Nat.pow_zero, true_iff]; omega
  | succ size ih =>
      have hrest := bitsValue_lt bit (first + 1) size
      have hbit : bit first = true ∨ bit first = false := by cases bit first <;> simp
      rw [bitsValue, Nat.pow_succ]
      constructor
      · intro h p hfirst hlast
        rcases hbit with hbit | hbit
        · rw [hbit, Bool.toNat_true] at h
          rcases hfirst.eq_or_lt with rfl | hlt
          · exact hbit
          · have hones : bitsValue bit (first + 1) size + 1 = 2 ^ size := by omega
            exact ih.mp hones p hlt (by omega)
        · rw [hbit, Bool.toNat_false] at h
          omega
      · intro h
        have hones : bitsValue bit (first + 1) size + 1 = 2 ^ size :=
          ih.mpr fun p hfirst hlast => h p (by omega) (by omega)
        rw [h first le_rfl (by omega), Bool.toNat_true]
        omega

section Field

variable {bit other : Nat → Bool} {span : Span}

theorem field_lt (bit : Nat → Bool) (span : Span) : field bit span < 2 ^ span.size :=
  bitsValue_lt bit span.first span.size

theorem field_congr (h : ∀ p ∈ span, bit p = other p) : field bit span = field other span :=
  bitsValue_congr fun p hfirst hlast => h p ⟨hfirst, hlast⟩

theorem field_eq_zero_iff : field bit span = 0 ↔ ∀ p ∈ span, bit p = false :=
  bitsValue_eq_zero_iff.trans
    ⟨fun h p hp => h p hp.1 hp.2, fun h p hfirst hlast => h p ⟨hfirst, hlast⟩⟩

theorem field_ones_iff : field bit span + 1 = 2 ^ span.size ↔ ∀ p ∈ span, bit p = true :=
  bitsValue_ones_iff.trans
    ⟨fun h p hp => h p hp.1 hp.2, fun h p hfirst hlast => h p ⟨hfirst, hlast⟩⟩

/-- The lowest bit decides whether the number is odd. -/
theorem field_mod_two (h : 0 < span.size) : field bit span % 2 = (bit span.first).toNat := by
  obtain ⟨size, hsize⟩ := Nat.exists_eq_succ_of_ne_zero h.ne'
  have hbit := (bit span.first).toNat_lt
  rw [field, hsize, bitsValue]
  omega

end Field

/-! ## Bits in memory -/

/-- The bits of some bytes, each byte from its lowest bit. -/
def storedBit (bytes : List UInt8) (p : Nat) : Bool := (bytes.getD (p / 8) 0).toNat.testBit (p % 8)

/-- The bytes that have given bits. -/
def bytesOf (size : Nat) (bit : Nat → Bool) : List UInt8 :=
  (List.range size).map fun k => UInt8.ofNat (bitsValue bit (8 * k) 8)

theorem testBit_bitsValue {bit : Nat → Bool} {first size i : Nat} (h : i < size) :
    (bitsValue bit first size).testBit i = bit (first + i) := by
  induction size generalizing first i with
  | zero => omega
  | succ size ih =>
      have hbit := (bit first).toNat_lt
      cases i with
      | zero =>
          rw [bitsValue, Nat.testBit_zero, Nat.add_mul_mod_self_left, Nat.add_zero]
          cases bit first <;> rfl
      | succ i =>
          have hhalf : ((bit first).toNat + 2 * bitsValue bit (first + 1) size) / 2 =
              bitsValue bit (first + 1) size := by omega
          rw [bitsValue, Nat.testBit_succ, hhalf, ih (by omega)]
          exact congrArg bit (by omega)

theorem length_bytesOf (size : Nat) (bit : Nat → Bool) : (bytesOf size bit).length = size := by
  simp [bytesOf]

theorem storedBit_bytesOf {size p : Nat} {bit : Nat → Bool} (h : p < 8 * size) :
    storedBit (bytesOf size bit) p = bit p := by
  have hbyte : (bytesOf size bit).getD (p / 8) 0 = UInt8.ofNat (bitsValue bit (8 * (p / 8)) 8) := by
    have hlt : p / 8 < size := by omega
    simp [bytesOf, List.getD_eq_getElem?_getD, hlt]
  have hlt := bitsValue_lt bit (8 * (p / 8)) 8
  rw [storedBit, hbyte, UInt8.toNat_ofNat_of_lt' hlt, testBit_bitsValue (by omega)]
  exact congrArg bit (by omega)

/-! ## Integers -/

/-- An integer in two's complement, or without a sign. -/
structure IntegerFormat where
  digits : Span
  signed : Bool
deriving DecidableEq

/-- The number in some bits. -/
def IntegerFormat.value (format : IntegerFormat) (bit : Nat → Bool) : Int :=
  if format.signed ∧ 2 ^ format.digits.size ≤ 2 * field bit format.digits then
    field bit format.digits - 2 ^ format.digits.size
  else field bit format.digits

namespace IntegerFormat

variable {format : IntegerFormat} {bit other : Nat → Bool}

theorem value_congr (h : ∀ p ∈ format.digits, bit p = other p) :
    format.value bit = format.value other := by
  rw [value, value, field_congr h]

theorem value_eq_zero_iff : format.value bit = 0 ↔ ∀ p ∈ format.digits, bit p = false := by
  have hlt : (field bit format.digits : Int) < 2 ^ format.digits.size := by
    exact_mod_cast field_lt bit format.digits
  rw [← field_eq_zero_iff, value]
  split
  · next h =>
      have hpos : (0 : Int) < 2 ^ format.digits.size := by positivity
      have hle : (2 ^ format.digits.size : Int) ≤ 2 * field bit format.digits := by
        exact_mod_cast h.2
      omega
  · omega

theorem value_emod_two (h : 0 < format.digits.size) :
    format.value bit % 2 = (bit format.digits.first).toNat := by
  have hfield := @field_mod_two bit _ h
  obtain ⟨size, hsize⟩ := Nat.exists_eq_succ_of_ne_zero h.ne'
  have hpow : (2 ^ format.digits.size : Int) = 2 * 2 ^ size := by rw [hsize, pow_succ, mul_comm]
  rw [value]
  split <;> omega

/-- Let a format agree with one that uses all bits up to some width, whatever the bits are. Then it
uses all of them too, and its lowest bit is stored first. -/
theorem agrees_full {place : Nat → Nat} {width : Nat} {signed : Bool} (hwidth : 0 < width)
    (hplace : ∀ p q, p < width → q < width → place p = place q → p = q)
    (hrange : ∀ p < width, place p < width)
    (hdigits : format.digits.first + format.digits.size ≤ width)
    (h : ∀ bit : Nat → Bool, format.value (bit ∘ place) =
      value ⟨⟨0, width⟩, signed⟩ bit) :
    format.digits = ⟨0, width⟩ ∧ place 0 = 0 := by
  -- A single bit makes a number other than zero, so that every bit is a digit.
  have hall : ∀ p < width, p ∈ format.digits := by
    intro p hp
    by_contra hnot
    have hzero : format.value ((fun q => decide (q = place p)) ∘ place) = 0 := by
      refine value_eq_zero_iff.mpr fun q hq => ?_
      refine decide_eq_false fun heq => hnot ?_
      rwa [← hplace q p (hq.2.trans_le hdigits) hp heq]
    rw [h, value_eq_zero_iff] at hzero
    have hbit := hzero (place p) ⟨Nat.zero_le _, by simpa using hrange p hp⟩
    simp at hbit
  have hfirst := hall 0 hwidth
  have hlast := hall (width - 1) (by omega)
  rw [Span.mem_def] at hfirst hlast
  have heq : format.digits = ⟨0, width⟩ := by
    cases hspan : format.digits with
    | mk first size =>
        simp only [hspan] at hfirst hlast hdigits
        congr 1 <;> omega
  refine ⟨heq, ?_⟩
  -- The number one is odd.
  by_contra hne
  have heven := @value_emod_two format ((fun q => decide (q = 0)) ∘ place)
    (by rw [heq]; exact hwidth)
  rw [h, value_emod_two (by exact hwidth), heq] at heven
  simp [hne] at heven

end IntegerFormat

/-! ## Floating-point numbers -/

/-- What is said about the leading bit of a mantissa. -/
inductive Normalization
  | implied
  | msbSet
  | none
deriving DecidableEq

/-- The fields of a floating-point number, and the bias of its exponent. -/
structure FloatFormat where
  sign : Nat
  exponent : Span
  bias : Nat
  mantissa : Span
  norm : Normalization
deriving DecidableEq

/-- A floating-point number. Zero has a sign, and all that are not a number are one. -/
inductive FloatValue
  | nan
  | infinite (negative : Bool)
  | finite (negative : Bool) (magnitude : ℚ)
deriving DecidableEq

namespace FloatFormat

/-- The magnitude for a value of the exponent and the mantissa. An implied leading bit is missing
in the mantissa unless the exponent is zero. -/
def magnitude (format : FloatFormat) (e m : Nat) : ℚ :=
  match format.norm with
  | .implied =>
      if e = 0 then m * 2 ^ (1 - format.bias - format.mantissa.size : ℤ)
      else (2 ^ format.mantissa.size + m) * 2 ^ (e - format.bias - format.mantissa.size : ℤ)
  | _ => m * 2 ^ (e + 1 - format.bias - format.mantissa.size : ℤ)

/-- A mantissa that makes an infinity with an exponent of ones. A leading bit that is not implied is
set there. -/
def IsInfinite (format : FloatFormat) (m : Nat) : Prop :=
  m = 0 ∨ format.norm = .none ∧ 2 * m = 2 ^ format.mantissa.size

instance (format : FloatFormat) (m : Nat) : Decidable (format.IsInfinite m) :=
  inferInstanceAs (Decidable (_ ∨ _))

/-- The number in some bits. -/
def value (format : FloatFormat) (bit : Nat → Bool) : FloatValue :=
  let e := field bit format.exponent
  let m := field bit format.mantissa
  if m = 0 ∧ e = 0 then .finite (bit format.sign) 0
  else if e + 1 = 2 ^ format.exponent.size then
    if format.IsInfinite m then .infinite (bit format.sign) else .nan
  else .finite (bit format.sign) (format.magnitude e m)

/-- The fields lie below a width and do not overlap. -/
structure Fits (format : FloatFormat) (width : Nat) : Prop where
  sign : format.sign < width
  exponent : format.exponent.first + format.exponent.size ≤ width
  mantissa : format.mantissa.first + format.mantissa.size ≤ width
  sign_exponent : format.sign ∉ format.exponent
  sign_mantissa : format.sign ∉ format.mantissa
  disjoint : ∀ p ∈ format.exponent, p ∉ format.mantissa

theorem value_congr {format : FloatFormat} {width : Nat} (hfits : format.Fits width)
    {bit other : Nat → Bool} (h : ∀ p < width, bit p = other p) :
    format.value bit = format.value other := by
  have hexponent : field bit format.exponent = field other format.exponent :=
    field_congr fun p hp => h p (hp.2.trans_le hfits.exponent)
  have hmantissa : field bit format.mantissa = field other format.mantissa :=
    field_congr fun p hp => h p (hp.2.trans_le hfits.mantissa)
  simp only [value, hexponent, hmantissa, h _ hfits.sign]

/-! ## A format that agrees with one that has a hidden bit -/

/-- A span is known by its members. -/
theorem span_eq {first second : Span} {width : Nat} (hfirst : first.first + first.size ≤ width)
    (hsecond : second.first + second.size ≤ width) (hpos : 0 < second.size)
    (h : ∀ p < width, (p ∈ first ↔ p ∈ second)) : first = second := by
  have hlow := h second.first (by omega)
  have hhigh := h (second.first + second.size - 1) (by omega)
  have hstart := h first.first
  have hend := h (first.first + first.size - 1)
  simp only [Span.mem_def] at hlow hhigh hstart hend
  cases first
  cases second
  simp only [Span.mk.injEq] at *
  omega

section Agrees

variable {t u : FloatFormat} {place : Nat → Nat} {width : Nat}

theorem magnitude_pos (hnorm : u.norm = .implied) {e m : Nat} (he : e ≠ 0) :
    0 < u.magnitude e m := by
  rw [magnitude, hnorm]
  simp only [if_neg he]
  positivity

/-- An exponent that is neither zeros nor ones makes a finite number. -/
theorem value_finite {bit : Nat → Bool} {set clear : Nat} (hset : set ∈ u.exponent)
    (hclear : clear ∈ u.exponent) (hbit : bit set = true) (hother : bit clear = false) :
    u.value bit = .finite (bit u.sign)
      (u.magnitude (field bit u.exponent) (field bit u.mantissa)) ∧ field bit u.exponent ≠ 0 := by
  have hzero : field bit u.exponent ≠ 0 := by
    intro h
    rw [field_eq_zero_iff.mp h set hset] at hbit
    cases hbit
  have hones : field bit u.exponent + 1 ≠ 2 ^ u.exponent.size := by
    intro h
    rw [field_ones_iff.mp h clear hclear] at hother
    cases hother
  refine ⟨?_, hzero⟩
  simp only [value]
  rw [if_neg fun h => hzero h.2, if_neg hones]

variable (ht : t.Fits width) (hnorm : u.norm = .implied) (hexponent : 2 ≤ u.exponent.size)
  (hplace : ∀ p q, p < width → q < width → place p = place q → p = q)
  (h : ∀ bit : Nat → Bool, t.value (bit ∘ place) = u.value bit)

include ht hnorm hexponent hplace h

/-- The exponents lie in the same place: one bit that is not set makes a finite number exactly when
it is a bit of the exponent. -/
theorem exponent_iff {p : Nat} (hp : p < width) : p ∈ t.exponent ↔ place p ∈ u.exponent := by
  let bit : Nat → Bool := fun q => decide (q ≠ place p)
  have hbit (q : Nat) : bit q = true ↔ q ≠ place p := decide_eq_true_iff
  have hhole : bit (place p) = false := by simp [bit]
  constructor
  · intro hmem
    by_contra hnot
    have hones : field bit u.exponent + 1 = 2 ^ u.exponent.size :=
      field_ones_iff.mpr fun q hq => (hbit q).mpr fun heq => hnot (heq ▸ hq)
    have hunot : field (bit ∘ place) t.exponent + 1 ≠ 2 ^ t.exponent.size := by
      intro hfield
      have hset := field_ones_iff.mp hfield p hmem
      rw [Function.comp_apply, hhole] at hset
      cases hset
    have hpow : 2 ^ 2 ≤ 2 ^ u.exponent.size := Nat.pow_le_pow_right (by omega) hexponent
    have heq := h bit
    simp only [value] at heq
    rw [if_neg (show ¬(field bit u.mantissa = 0 ∧ field bit u.exponent = 0) by omega),
      if_pos hones, if_neg hunot] at heq
    split at heq <;> split at heq <;> cases heq
  · intro hmem
    by_contra hnot
    obtain ⟨set, hset, hne⟩ : ∃ set ∈ u.exponent, set ≠ place p := by
      by_cases hfirst : u.exponent.first = place p
      · exact ⟨u.exponent.first + 1, Span.mem_def.mpr (by omega), by omega⟩
      · exact ⟨u.exponent.first, Span.mem_def.mpr (by omega), hfirst⟩
    obtain ⟨hvalue, hzero⟩ := value_finite hset hmem ((hbit set).mpr hne) hhole
    have hones : field (bit ∘ place) t.exponent + 1 = 2 ^ t.exponent.size := by
      refine field_ones_iff.mpr fun q hq => (hbit _).mpr fun heq => hnot ?_
      rwa [← hplace q p (hq.2.trans_le ht.exponent) hp heq]
    have heq := h bit
    rw [hvalue] at heq
    simp only [value] at heq
    rw [if_pos hones] at heq
    split at heq
    · have hpos := magnitude_pos hnorm hzero (m := field bit u.mantissa)
      rw [← (FloatValue.finite.inj heq).2] at hpos
      exact hpos.false
    · split at heq <;> cases heq

/-- Only with an implied bit is a number without mantissa other than zero. -/
theorem norm_eq (hu : u.Fits width) (hsurj : ∀ q < width, ∃ p < width, place p = q) :
    t.norm = .implied := by
  let bit : Nat → Bool := fun q => decide (q = u.exponent.first)
  have hset : bit u.exponent.first = true := decide_eq_true rfl
  have hclear : bit (u.exponent.first + 1) = false := decide_eq_false (by omega)
  have hfirst : u.exponent.first ∈ u.exponent := Span.mem_def.mpr (by omega)
  have hnext : u.exponent.first + 1 ∈ u.exponent := Span.mem_def.mpr (by omega)
  obtain ⟨p, hp, hpfirst⟩ := hsurj _ (hfirst.2.trans_le hu.exponent)
  obtain ⟨q, hq, hqnext⟩ := hsurj _ (hnext.2.trans_le hu.exponent)
  have hmem {p : Nat} (hp : p < width) := exponent_iff ht hnorm hexponent hplace h hp
  obtain ⟨hvalue, hzero⟩ := value_finite hfirst hnext hset hclear
  obtain ⟨hvalue', -⟩ := @value_finite _ (bit ∘ place) _ _ ((hmem hp).mpr (hpfirst ▸ hfirst))
    ((hmem hq).mpr (hqnext ▸ hnext)) ((congrArg bit hpfirst).trans hset)
    ((congrArg bit hqnext).trans hclear)
  have hnone : field (bit ∘ place) t.mantissa = 0 := by
    refine field_eq_zero_iff.mpr fun r hr => decide_eq_false fun heq => ?_
    have hrp := hplace r p (hr.2.trans_le ht.mantissa) hp (heq.trans hpfirst.symm)
    exact ht.disjoint p ((hmem hp).mpr (hpfirst ▸ hfirst)) (hrp ▸ hr)
  have heq := h bit
  rw [hvalue, hvalue', hnone] at heq
  have hpos := magnitude_pos hnorm hzero (m := field bit u.mantissa)
  rw [← (FloatValue.finite.inj heq).2, magnitude] at hpos
  cases hkind : t.norm with
  | implied => rfl
  | msbSet => simp [hkind] at hpos
  | none => simp [hkind] at hpos

/-- With the exponent full and one more bit set, the value tells the mantissa from the sign. -/
theorem value_special (hu : u.Fits width) (hsurj : ∀ q < width, ∃ p < width, place p = q)
    {p : Nat} (hp : p < width) (hnot : p ∉ t.exponent) :
    (if p ∈ t.mantissa then FloatValue.nan else .infinite (decide (t.sign = p))) =
      if place p ∈ u.mantissa then .nan else .infinite (decide (u.sign = place p)) := by
  have hmem {p : Nat} (hp : p < width) := exponent_iff ht hnorm hexponent hplace h hp
  have htnorm := norm_eq ht hnorm hexponent hplace h hu hsurj
  have hunot : place p ∉ u.exponent := fun hu => hnot ((hmem hp).mpr hu)
  let bit : Nat → Bool := fun q => decide (q ∈ u.exponent ∨ q = place p)
  have hbit (q : Nat) : bit q = true ↔ q ∈ u.exponent ∨ q = place p := decide_eq_true_iff
  have special {f : FloatFormat} {bits : Nat → Bool} {r : Nat} (hf : f.norm = .implied)
      (hpos : 0 < f.exponent.size) (hones : ∀ q ∈ f.exponent, bits q = true)
      (hmantissa : ∀ q ∈ f.mantissa, bits q = true ↔ q = r)
      (hsign : bits f.sign = decide (f.sign = r)) :
      f.value bits = if r ∈ f.mantissa then .nan else .infinite (decide (f.sign = r)) := by
    have hfull := field_ones_iff.mpr hones
    have hpow : 2 ^ 1 ≤ 2 ^ f.exponent.size := Nat.pow_le_pow_right (by omega) hpos
    have hzero : f.IsInfinite (field bits f.mantissa) ↔ r ∉ f.mantissa := by
      rw [IsInfinite, hf, field_eq_zero_iff]
      constructor
      · rintro (hall | ⟨hne, -⟩) hr
        · exact absurd (hall r hr) (by simp [(hmantissa r hr).mpr rfl])
        · cases hne
      · intro hr
        refine Or.inl fun q hq => ?_
        rw [Bool.eq_false_iff, Ne, hmantissa q hq]
        exact fun heq => hr (heq ▸ hq)
    simp only [value]
    rw [if_neg (show ¬(field bits f.mantissa = 0 ∧ field bits f.exponent = 0) by omega),
      if_pos hfull, hsign]
    by_cases hr : r ∈ f.mantissa
    · rw [if_neg fun hi => hzero.mp hi hr, if_pos hr]
    · rw [if_pos (hzero.mpr hr), if_neg hr]
  obtain ⟨low, hlow, hplow⟩ := hsurj u.exponent.first (by have := hu.exponent; omega)
  have hlowmem : low ∈ t.exponent :=
    (hmem hlow).mpr (hplow ▸ Span.mem_def.mpr (by omega))
  have hplaced (q : Nat) (hq : q < width) (hout : q ∉ t.exponent) :
      (bit ∘ place) q = true ↔ q = p := by
    rw [Function.comp_apply, hbit, ← hmem hq, or_iff_right hout]
    exact ⟨hplace q p hq hp, congrArg place⟩
  have hunplaced (q : Nat) (hout : q ∉ u.exponent) : bit q = true ↔ q = place p := by
    rw [hbit, or_iff_right hout]
  have htvalue : t.value (bit ∘ place) =
      if p ∈ t.mantissa then .nan else .infinite (decide (t.sign = p)) := by
    refine special htnorm (by rw [Span.mem_def] at hlowmem; omega) (fun q hq => ?_)
      (fun q hq => hplaced q (hq.2.trans_le ht.mantissa) fun he => ht.disjoint q he hq)
      (Bool.eq_iff_iff.mpr ((hplaced _ ht.sign ht.sign_exponent).trans decide_eq_true_iff.symm))
    exact (hbit _).mpr (Or.inl ((hmem (hq.2.trans_le ht.exponent)).mp hq))
  have huvalue : u.value bit =
      if place p ∈ u.mantissa then .nan else .infinite (decide (u.sign = place p)) := by
    refine special hnorm (by omega) (fun q hq => (hbit q).mpr (Or.inl hq))
      (fun q hq => hunplaced q fun he => hu.disjoint q he hq)
      (Bool.eq_iff_iff.mpr ((hunplaced _ hu.sign_exponent).trans decide_eq_true_iff.symm))
  exact htvalue.symm.trans ((h bit).trans huvalue)

/-- The mantissas lie in the same place. -/
theorem mantissa_iff (hu : u.Fits width) (hsurj : ∀ q < width, ∃ p < width, place p = q)
    {p : Nat} (hp : p < width) : p ∈ t.mantissa ↔ place p ∈ u.mantissa := by
  have hmem {p : Nat} (hp : p < width) := exponent_iff ht hnorm hexponent hplace h hp
  by_cases hexp : p ∈ t.exponent
  · exact iff_of_false (ht.disjoint p hexp) (hu.disjoint _ ((hmem hp).mp hexp))
  · have hvalue := value_special ht hnorm hexponent hplace h hu hsurj hp hexp
    constructor
    · intro hin
      by_contra hout
      rw [if_pos hin, if_neg hout] at hvalue
      cases hvalue
    · intro hin
      by_contra hout
      rw [if_neg hout, if_pos hin] at hvalue
      cases hvalue

/-- The signs lie in the same place. -/
theorem sign_eq (hu : u.Fits width) (hsurj : ∀ q < width, ∃ p < width, place p = q) :
    place t.sign = u.sign := by
  have hvalue := value_special ht hnorm hexponent hplace h hu hsurj ht.sign ht.sign_exponent
  rw [if_neg ht.sign_mantissa, decide_eq_true rfl] at hvalue
  split at hvalue
  · cases hvalue
  · exact (of_decide_eq_true (FloatValue.infinite.inj hvalue).symm).symm

/-- Bits that are stored in their order leave no choice: the formats are the same. -/
theorem eq_of_agrees (hu : u.Fits width) (hmantissa : 0 < u.mantissa.size)
    (hid : ∀ p < width, place p = p) : t = u := by
  have hsurj : ∀ q < width, ∃ p < width, place p = q := fun q hq => ⟨q, hq, hid q hq⟩
  have hspan : t.exponent = u.exponent := by
    refine span_eq ht.exponent hu.exponent (by omega) fun p hp => ?_
    rw [exponent_iff ht hnorm hexponent hplace h hp, hid p hp]
  have hmant : t.mantissa = u.mantissa := by
    refine span_eq ht.mantissa hu.mantissa hmantissa fun p hp => ?_
    rw [mantissa_iff ht hnorm hexponent hplace h hu hsurj hp, hid p hp]
  have hsign : t.sign = u.sign :=
    (hid _ ht.sign).symm.trans (sign_eq ht hnorm hexponent hplace h hu hsurj)
  have htnorm := norm_eq ht hnorm hexponent hplace h hu hsurj
  -- The same exponent means the same power of two.
  have hbias : t.bias = u.bias := by
    let bit : Nat → Bool := fun q => decide (q = u.exponent.first)
    have hfirst : u.exponent.first ∈ u.exponent := Span.mem_def.mpr (by omega)
    have hnext : u.exponent.first + 1 ∈ u.exponent := Span.mem_def.mpr (by omega)
    have hset : bit u.exponent.first = true := decide_eq_true rfl
    have hclear : bit (u.exponent.first + 1) = false := decide_eq_false (by omega)
    have hsame (span : Span) (hspan : span.first + span.size ≤ width) :
        field (bit ∘ place) span = field bit span :=
      field_congr fun p hp => congrArg bit (hid p (hp.2.trans_le hspan))
    obtain ⟨hvalue, hzero⟩ := value_finite hfirst hnext hset hclear
    obtain ⟨hvalue', -⟩ := @value_finite t (bit ∘ place) _ _ (hspan ▸ hfirst) (hspan ▸ hnext)
      ((congrArg bit (hid _ (hfirst.2.trans_le hu.exponent))).trans hset)
      ((congrArg bit (hid _ (hnext.2.trans_le hu.exponent))).trans hclear)
    have heq := h bit
    rw [hvalue, hvalue', hspan, hmant, hsame _ hu.exponent, hsame _ hu.mantissa] at heq
    have hmag := (FloatValue.finite.inj heq).2
    simp only [magnitude, htnorm, hnorm, if_neg hzero, hmant] at hmag
    have hpos : (0 : ℚ) < 2 ^ u.mantissa.size + field bit u.mantissa := by positivity
    have hpow := mul_left_cancel₀ hpos.ne' hmag
    have hexp := zpow_right_injective₀ (by norm_num : (0 : ℚ) < 2) (by norm_num) hpow
    omega
  cases t
  cases u
  simp only [mk.injEq]
  exact ⟨hsign, hspan, hbias, hmant, htnorm.trans hnorm.symm⟩

end Agrees

end FloatFormat

end XHDF5.Math
