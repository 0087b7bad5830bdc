/-
# The element type in a dataset's description

`Xrd_get_dataset_info` describes the native type that the library finds for the stored type, while
the value is read with the stored type itself and sent as it lies in the file. Whoever reads the
value with the described type gets the stored elements only where the two are the same.
-/

import XHDF5.Client.Datatype
import XHDF5.Math.Bytes
import XHDF5.Math.NumberFormat
import XHDF5.Plugin.Select

namespace XHDF5.Plugin

open XHDF5.Math XHDF5.Client

/-! ## Element types -/

/-- Where the bit `p` of a number is stored. `H5T_ORDER_VAX` turns the 16-bit words around and
leaves the bytes in each of them. -/
def bitPlace (order : ByteOrder) (size p : Nat) : Nat :=
  match order with
  | .little => p
  | .big => 8 * (size - 1 - p / 8) + p % 8
  | .vax => 8 * (size - 2 - 2 * (p / 16)) + p % 16

/-- A type of class `H5T_INTEGER`: the digits are given by the offset and the precision. -/
structure IntegerElement where
  size : Nat
  order : ByteOrder
  format : IntegerFormat
  positive : 0 < format.digits.size
  fits : format.digits.first + format.digits.size ≤ 8 * size
deriving DecidableEq

/-- A type of class `H5T_FLOAT`, whose fields `H5Tset_fields` keeps apart. -/
structure FloatElement where
  size : Nat
  order : ByteOrder
  format : FloatFormat
  fits : format.Fits (8 * size)
deriving DecidableEq

/-- The type of the elements of a dataset. -/
inductive ElementType
  | integer (type : IntegerElement)
  | float (type : FloatElement)
deriving DecidableEq

/-- The value of an element. -/
inductive ElementValue
  | integer (value : Int)
  | float (value : FloatValue)
deriving DecidableEq

/-- `H5Tget_size`. -/
def ElementType.size : ElementType → Nat
  | .integer type => type.size
  | .float type => type.size

/-- The value in the bytes of an element. -/
def ElementType.value : ElementType → List UInt8 → ElementValue
  | .integer type, bytes =>
      .integer (type.format.value (storedBit bytes ∘ bitPlace type.order type.size))
  | .float type, bytes => .float (type.format.value (storedBit bytes ∘ bitPlace type.order type.size))

/-- The values in a sequence of elements. -/
def ElementType.interpret (type : ElementType) (bytes : List UInt8) : Option (List ElementValue) :=
  (elementsOf type.size bytes).map (List.map type.value)

/-! ## Predefined types -/

/-- `H5T_STD_I8LE` and the types like it. -/
def standardInteger (size : Nat) (signed : Bool) (h : 0 < size) : IntegerElement where
  size := size
  order := .little
  format := ⟨⟨0, 8 * size⟩, signed⟩
  positive := Nat.mul_pos (by decide) h
  fits := (Nat.zero_add _).le

/-- `H5T_IEEE_F32LE` and `H5T_IEEE_F64LE`. -/
def ieeeFloat (size exponent : Nat) (h : exponent < 8 * size) : FloatElement where
  size := size
  order := .little
  format :=
    { sign := 8 * size - 1
      exponent := ⟨8 * size - 1 - exponent, exponent⟩
      bias := 2 ^ (exponent - 1) - 1
      mantissa := ⟨0, 8 * size - 1 - exponent⟩
      norm := .implied }
  fits := by constructor <;> simp only [Span.mem_def] <;> omega

/-- `H5T_NATIVE_LDOUBLE` with its explicit leading bit. -/
def longDouble : FloatElement where
  size := 16
  order := .little
  format := ⟨79, ⟨64, 15⟩, 16383, ⟨0, 64⟩, .none⟩
  fits := by constructor <;> simp only [Span.mem_def] <;> omega

/-- `H5T_IEEE_F32LE`. -/
def ieeeF32 : FloatElement := ieeeFloat 4 8 (by decide)

/-- `H5T_IEEE_F64LE`. -/
def ieeeF64 : FloatElement := ieeeFloat 8 11 (by decide)

theorem four_bytes_pos : 0 < 4 := by decide

theorem eight_bytes_pos : 0 < 8 := by decide

/-- The types that `h5basetype_to_string` compares with, in its order. -/
def describedTypes : List (Text × ElementType) :=
  [(lit "H5T_STD_I8LE", .integer (standardInteger 1 true Nat.one_pos)),
    (lit "H5T_STD_I16LE", .integer (standardInteger 2 true Nat.two_pos)),
    (lit "H5T_STD_I32LE", .integer (standardInteger 4 true four_bytes_pos)),
    (lit "H5T_STD_I64LE", .integer (standardInteger 8 true eight_bytes_pos)),
    (lit "H5T_IEEE_F32LE", .float ieeeF32), (lit "H5T_IEEE_F64LE", .float ieeeF64),
    (lit "H5T_STD_U16LE", .integer (standardInteger 2 false Nat.two_pos)),
    (lit "H5T_STD_U32LE", .integer (standardInteger 4 false four_bytes_pos)),
    (lit "H5T_STD_U64LE", .integer (standardInteger 8 false eight_bytes_pos))]

/-- The type that a base type in a description stands for. -/
def typeOfBase (base : Text) : Option ElementType :=
  (describedTypes.find? fun entry => entry.1 = base).map Prod.snd

/-! ## The library's native type -/

/-- The bytes of the smallest native integer with some precision. -/
def nativeSize (precision : Nat) : Nat :=
  if precision ≤ 8 then 1 else if precision ≤ 16 then 2 else if precision ≤ 32 then 4 else 8

theorem nativeSize_pos (precision : Nat) : 0 < nativeSize precision := by
  rw [nativeSize]
  split_ifs <;> decide

/-- What is documented of `H5Tget_native_type` with `H5T_DIR_DEFAULT`: it goes through the native
integers up from `char` for one with the precision, keeping the sign, and through `float`, `double`
and `long double` for one with the size. -/
structure SearchesUpward (nativeType : ElementType → ElementType) : Prop where
  integer (type : IntegerElement) : nativeType (.integer type) =
    .integer (standardInteger (nativeSize type.format.digits.size) type.format.signed
      (nativeSize_pos _))
  float (type : FloatElement) : nativeType (.float type) =
    .float (if type.size ≤ 4 then ieeeF32 else if type.size ≤ 8 then ieeeF64 else longDouble)

/-! ## The plugin -/

section Plugin

variable (nativeType : ElementType → ElementType)

/-- `h5basetype_to_string`. -/
def h5basetypeToString (datatype : ElementType) : Text :=
  ((describedTypes.find? fun entry => nativeType datatype = entry.2).map Prod.fst).getD []

/-- The elements of a dataset as they lie in the file. -/
structure Elements (type : ElementType) where
  dims : List Nat
  bytes : List Nat → List UInt8
  length_bytes : ∀ c, (bytes c).length = type.size

/-- The elements that are read, without and with a `select` parameter. -/
def readCoords (dims : List Nat) : Option Text → Option (List (List Nat))
  | none => some (coords (dims.map fun extent => (0, extent)))
  | some select => (xrdReadDatasetInfoByChunked dims select).map coords

/-- What `H5Dread` with the type from `H5Dget_type` leaves in the buffer, which
`Xrd_read_dataset_info` and `Xrd_read_dataset_info_by_chunked` return. -/
def readBytes {type : ElementType} (stored : Elements type) (select : Option Text) :
    Option (List UInt8) :=
  (readCoords stored.dims select).map (List.flatMap stored.bytes)

/-- The description of a type names no base type, or the described type gives back the elements of
every dataset and every selection. -/
def BytesMatchType (type : ElementType) : Prop :=
  h5basetypeToString nativeType type = [] ∨
    ∃ base, typeOfBase (h5basetypeToString nativeType type) = some base ∧
      ∀ (stored : Elements type) (select : Option Text) (selected : List (List Nat)),
        readCoords stored.dims select = some selected →
          ∃ bytes, readBytes stored select = some bytes ∧
            base.interpret bytes = some (selected.map fun c => type.value (stored.bytes c))

end Plugin

/-- A type that is read back: an unsigned byte and a large float have no base type in their
description, and all others have to be stored as the base type says. -/
def StoredAsDescribed : ElementType → Prop
  | .integer type =>
      type.format.signed = false ∧ type.format.digits.size ≤ 8 ∨
        type.size = nativeSize type.format.digits.size ∧
          type.format.digits.size = 8 * type.size ∧
          (type.order = .little ∨ type.size = 1 ∨ type.order = .vax ∧ type.size = 2)
  | .float type => 8 < type.size ∨ type = ieeeF32 ∨ type = ieeeF64

/-! ## The places of the bits -/

section Places

variable {order : ByteOrder} {size p : Nat}

theorem bitPlace_lt (h : p < 8 * size) :
    bitPlace order size p < 8 * size := by
  cases order with
  | little => exact h
  | big => simp only [bitPlace]; omega
  | vax => simp only [bitPlace]; omega

/-- Turning the bytes around twice does nothing. -/
theorem bitPlace_bitPlace (hsize : size = 1 ∨ size % 2 = 0) (h : p < 8 * size) :
    bitPlace order size (bitPlace order size p) = p := by
  cases order with
  | little => rfl
  | big => simp only [bitPlace]; omega
  | vax => simp only [bitPlace]; omega

theorem bitPlace_inj (hsize : size = 1 ∨ size % 2 = 0) (p q : Nat) (hp : p < 8 * size)
    (hq : q < 8 * size) (h : bitPlace order size p = bitPlace order size q) : p = q := by
  rw [← bitPlace_bitPlace hsize hp, h, bitPlace_bitPlace hsize hq]

theorem bitPlace_surj (hsize : size = 1 ∨ size % 2 = 0) (q : Nat) (hq : q < 8 * size) :
    ∃ p < 8 * size, bitPlace order size p = q :=
  ⟨bitPlace order size q, bitPlace_lt hq, bitPlace_bitPlace hsize hq⟩

/-- The lowest bit comes first exactly when every bit is in its place. -/
theorem bitPlace_zero_iff (hsize : 0 < size) : bitPlace order size 0 = 0 ↔
    order = .little ∨ size = 1 ∨ order = .vax ∧ size = 2 := by
  cases order with
  | little => simp [bitPlace]
  | big => simp only [bitPlace, reduceCtorEq, false_and, false_or, or_false]; omega
  | vax => simp only [bitPlace, reduceCtorEq, true_and, false_or]; omega

theorem bitPlace_eq (hzero : bitPlace order size 0 = 0) (h : p < 8 * size) :
    bitPlace order size p = p := by
  cases order with
  | little => rfl
  | big => simp only [bitPlace] at hzero ⊢; omega
  | vax => simp only [bitPlace] at hzero ⊢; omega

end Places

/-! ## The described type -/

theorem describedTypes_snd : describedTypes.map Prod.snd =
    [.integer (standardInteger 1 true (by decide)), .integer (standardInteger 2 true (by decide)),
      .integer (standardInteger 4 true (by decide)), .integer (standardInteger 8 true (by decide)),
      .float ieeeF32, .float ieeeF64, .integer (standardInteger 2 false (by decide)),
      .integer (standardInteger 4 false (by decide)),
      .integer (standardInteger 8 false (by decide))] := rfl

theorem describedTypes_names :
    (describedTypes.map Prod.fst).Nodup ∧ [] ∉ describedTypes.map Prod.fst := by
  unfold describedTypes lit
  decide

section Described

variable {nativeType : ElementType → ElementType} {type : ElementType}

/-- The name of a native type that the plugin compares with. -/
theorem h5basetypeToString_mem (h : nativeType type ∈ describedTypes.map Prod.snd) :
    ∃ entry ∈ describedTypes, entry.2 = nativeType type ∧
      h5basetypeToString nativeType type = entry.1 := by
  obtain ⟨entry, hentry, hsnd⟩ := List.mem_map.mp h
  cases hfound : describedTypes.find? fun entry => nativeType type = entry.2 with
  | none =>
      have hnone := List.find?_eq_none.mp hfound entry hentry
      exact absurd (decide_eq_true hsnd.symm) hnone
  | some found =>
      have hnative : nativeType type = found.2 := by simpa using List.find?_some hfound
      refine ⟨found, List.mem_of_find?_eq_some hfound, hnative.symm, ?_⟩
      rw [h5basetypeToString, hfound]
      rfl

/-- A native type that the plugin compares with is the one it describes. -/
theorem typeOfBase_h5basetypeToString (h : nativeType type ∈ describedTypes.map Prod.snd) :
    h5basetypeToString nativeType type ≠ [] ∧
      typeOfBase (h5basetypeToString nativeType type) = some (nativeType type) := by
  obtain ⟨found, hmem, hnative, hname⟩ := h5basetypeToString_mem h
  have hbase : describedTypes.find? (fun entry => entry.1 = found.1) = some found := by
    cases hother : describedTypes.find? fun entry => entry.1 = found.1 with
    | none => exact absurd (decide_eq_true rfl) (List.find?_eq_none.mp hother found hmem)
    | some other =>
        have hfst : other.1 = found.1 := by simpa using List.find?_some hother
        exact congrArg some (List.inj_on_of_nodup_map describedTypes_names.1
          (List.mem_of_find?_eq_some hother) hmem hfst)
  refine ⟨fun hnil => describedTypes_names.2 ?_, ?_⟩
  · exact List.mem_map.mpr ⟨found, hmem, hname.symm.trans hnil⟩
  · rw [typeOfBase, hname, hbase, ← hnative]
    rfl

theorem h5basetypeToString_eq_nil (h : nativeType type ∉ describedTypes.map Prod.snd) :
    h5basetypeToString nativeType type = [] := by
  have hnone : describedTypes.find? (fun entry => nativeType type = entry.2) = none :=
    List.find?_eq_none.mpr fun entry hentry heq =>
      h (List.mem_map.mpr ⟨entry, hentry, (of_decide_eq_true heq).symm⟩)
  rw [h5basetypeToString, hnone]
  rfl

theorem nativeSize_cases (precision : Nat) : nativeSize precision = 1 ∨ nativeSize precision = 2 ∨
    nativeSize precision = 4 ∨ nativeSize precision = 8 := by
  rw [nativeSize]
  split_ifs <;> simp

theorem standardInteger_mem {size : Nat} (hpos : 0 < size) (signed : Bool)
    (hsize : size = 1 ∨ size = 2 ∨ size = 4 ∨ size = 8) :
    .integer (standardInteger size signed hpos) ∈ describedTypes.map Prod.snd ↔
      ¬(signed = false ∧ size = 1) := by
  rw [describedTypes_snd]
  rcases hsize with rfl | rfl | rfl | rfl <;> cases signed <;> decide +revert

theorem nativeInteger_mem_iff (precision : Nat) (signed : Bool) :
    .integer (standardInteger (nativeSize precision) signed (nativeSize_pos _)) ∈
      describedTypes.map Prod.snd ↔ ¬(signed = false ∧ precision ≤ 8) := by
  have hsize : precision ≤ 8 ↔ nativeSize precision = 1 := by
    rw [nativeSize]
    split_ifs <;> simp_all
  rw [hsize]
  exact standardInteger_mem _ _ (nativeSize_cases precision)

theorem longDouble_not_mem : .float longDouble ∉ describedTypes.map Prod.snd := by
  rw [describedTypes_snd]
  decide

theorem ieee_mem : .float ieeeF32 ∈ describedTypes.map Prod.snd ∧
    .float ieeeF64 ∈ describedTypes.map Prod.snd := by
  rw [describedTypes_snd]
  decide

/-- With a base type in the description, the datasets and selections come down to one element: it
has the size of the described type and the same value. -/
theorem bytesMatchType_iff (h : nativeType type ∈ describedTypes.map Prod.snd)
    (hsize : 0 < (nativeType type).size) :
    BytesMatchType nativeType type ↔ type.size = (nativeType type).size ∧
      ∀ bytes : List UInt8, bytes.length = type.size →
        type.value bytes = (nativeType type).value bytes := by
  obtain ⟨hname, hbase⟩ := typeOfBase_h5basetypeToString h
  rw [BytesMatchType, or_iff_right hname, hbase]
  constructor
  · rintro ⟨base, heq, hall⟩
    obtain rfl := Option.some.inj heq
    -- A dataset with one element is enough.
    have hone (bytes : List UInt8) (hlength : bytes.length = type.size) :
        (nativeType type).interpret bytes = some [type.value bytes] := by
      let stored : Elements type := ⟨[1], fun _ => bytes, fun _ => hlength⟩
      obtain ⟨sent, hsent, hvalue⟩ := hall stored none [[0]] rfl
      have hbytes : sent = bytes := by
        have heq : some sent = some ([[0]].flatMap stored.bytes) := hsent.symm
        rw [Option.some.inj heq]
        exact List.append_nil bytes
      rw [← hbytes, hvalue, hbytes]
      rfl
    have hlength : type.size = (nativeType type).size := by
      have hread := hone (List.replicate type.size 0) List.length_replicate
      rw [ElementType.interpret, elementsOf, List.length_replicate] at hread
      split at hread
      · next hwhole =>
          have hcount := congrArg List.length (Option.some.inj hread)
          rw [List.length_map, List.length_map, List.length_range] at hcount
          rw [hwhole, hcount]
          exact Nat.mul_one _
      · cases hread
    refine ⟨hlength, fun bytes hbytes => ?_⟩
    have hread := hone bytes hbytes
    have helements := elementsOf_flatten hsize
      (List.forall_mem_singleton.mpr (hbytes.trans hlength))
    rw [List.flatten_cons, List.flatten_nil, List.append_nil] at helements
    rw [ElementType.interpret, helements] at hread
    exact (List.cons.inj (Option.some.inj hread)).1.symm
  · rintro ⟨hlength, hvalue⟩
    refine ⟨_, rfl, fun stored select selected hselected => ?_⟩
    refine ⟨selected.flatMap stored.bytes, ?_, ?_⟩
    · rw [readBytes, hselected]
      rfl
    · rw [ElementType.interpret, List.flatMap_def, elementsOf_flatten hsize]
      · rw [Option.map_some, List.map_map]
        exact congrArg some (List.map_congr_left fun c _ =>
          (hvalue _ (stored.length_bytes c)).symm)
      · rw [List.forall_mem_map]
        exact fun c _ => (stored.length_bytes c).trans hlength

end Described

/-! ## Integers -/

/-- Elements of a size have all bits. -/
theorem exists_bytes (size : Nat) (bit : Nat → Bool) : ∃ bytes : List UInt8,
    bytes.length = size ∧ ∀ p < 8 * size, storedBit bytes p = bit p :=
  ⟨bytesOf size bit, length_bytesOf size bit, fun _ hp => storedBit_bytesOf hp⟩

theorem integer_value_iff (t : IntegerElement) {size : Nat} (hpos : 0 < size)
    (hcases : size = 1 ∨ size = 2 ∨ size = 4 ∨ size = 8) (hsize : t.size = size) :
    (∀ bytes : List UInt8, bytes.length = t.size → ElementType.value (.integer t) bytes =
      ElementType.value (.integer (standardInteger size t.format.signed hpos)) bytes) ↔
    t.format.digits.size = 8 * t.size ∧
      (t.order = .little ∨ t.size = 1 ∨ t.order = .vax ∧ t.size = 2) := by
  subst hsize
  have heven : t.size = 1 ∨ t.size % 2 = 0 := by omega
  have hfits := t.fits
  rw [← bitPlace_zero_iff hpos]
  constructor
  · intro h
    have hbits (bit : Nat → Bool) : t.format.value (bit ∘ bitPlace t.order t.size) =
        IntegerFormat.value ⟨⟨0, 8 * t.size⟩, t.format.signed⟩ bit := by
      obtain ⟨bytes, hlength, hbit⟩ := exists_bytes t.size bit
      have hvalue := ElementValue.integer.inj (h bytes hlength)
      have hleft : t.format.value (bit ∘ bitPlace t.order t.size) =
          t.format.value (storedBit bytes ∘ bitPlace t.order t.size) :=
        IntegerFormat.value_congr fun p hp =>
          (hbit _ (bitPlace_lt (hp.2.trans_le hfits))).symm
      rw [hleft, hvalue]
      exact IntegerFormat.value_congr fun p hp => hbit p (lt_of_lt_of_eq hp.2 (Nat.zero_add _))
    obtain ⟨hdigits, hzero⟩ := IntegerFormat.agrees_full (by omega) (bitPlace_inj heven)
      (fun p hp => bitPlace_lt hp) hfits hbits
    exact ⟨congrArg Span.size hdigits, hzero⟩
  · rintro ⟨hdigits, hzero⟩ bytes -
    have hspan : t.format.digits = ⟨0, 8 * t.size⟩ := by
      cases heq : t.format.digits with
      | mk first size =>
          simp only [heq] at hfits hdigits
          congr 1
          omega
    have hformat : t.format = ⟨⟨0, 8 * t.size⟩, t.format.signed⟩ := by
      rw [← hspan]
    refine congrArg ElementValue.integer ?_
    show t.format.value _ = IntegerFormat.value ⟨⟨0, 8 * t.size⟩, t.format.signed⟩ _
    rw [← hformat]
    refine IntegerFormat.value_congr fun p hp => ?_
    exact congrArg (storedBit bytes) (bitPlace_eq hzero (hp.2.trans_le hfits))

/-! ## Floating-point numbers -/

section Float

variable (t : FloatElement)

/-- The fields of an IEEE number lie in their places only in little-endian order. -/
theorem float_value_iff {size exponent : Nat} (h : exponent < 8 * size)
    (hkind : size = 4 ∧ exponent = 8 ∨ size = 8 ∧ exponent = 11) (hsize : t.size = size) :
    (∀ bytes : List UInt8, bytes.length = t.size → ElementType.value (.float t) bytes =
      ElementType.value (.float (ieeeFloat size exponent h)) bytes) ↔
    t = ieeeFloat size exponent h := by
  constructor
  · intro hall
    subst hsize
    have heven : t.size = 1 ∨ t.size % 2 = 0 := by omega
    have hfits := t.fits
    have hu := (ieeeFloat t.size exponent h).fits
    have hbits (bit : Nat → Bool) : t.format.value (bit ∘ bitPlace t.order t.size) =
        (ieeeFloat t.size exponent h).format.value bit := by
      obtain ⟨bytes, hlength, hbit⟩ := exists_bytes t.size bit
      have hvalue := ElementValue.float.inj (hall bytes hlength)
      have hleft : t.format.value (bit ∘ bitPlace t.order t.size) =
          t.format.value (storedBit bytes ∘ bitPlace t.order t.size) :=
        FloatFormat.value_congr hfits fun p hp => (hbit _ (bitPlace_lt hp)).symm
      rw [hleft, hvalue]
      exact FloatFormat.value_congr hu fun p hp => hbit p hp
    have htwo : 2 ≤ (ieeeFloat t.size exponent h).format.exponent.size := by
      show 2 ≤ exponent
      omega
    have hexponent {p : Nat} (hp : p < 8 * t.size) :=
      FloatFormat.exponent_iff hfits rfl htwo (bitPlace_inj heven) hbits hp
    have hmantissa {p : Nat} (hp : p < 8 * t.size) :=
      FloatFormat.mantissa_iff hfits rfl htwo (bitPlace_inj heven) hbits hu (bitPlace_surj heven) hp
    -- In the other orders a field has a gap.
    have horder : t.order = .little := by
      cases hother : t.order with
      | little => rfl
      | big =>
          have hlow : 6 ∈ t.format.exponent := (hexponent (by omega)).mpr (by
            simp only [hother, bitPlace, ieeeFloat, Span.mem_def]
            omega)
          have hhigh : 15 ∈ t.format.exponent := (hexponent (by omega)).mpr (by
            simp only [hother, bitPlace, ieeeFloat, Span.mem_def]
            omega)
          have hgap : 7 ∈ t.format.exponent :=
            Span.mem_of_between hlow hhigh (by decide) (by decide)
          rw [hexponent (by omega), hother] at hgap
          simp only [bitPlace, ieeeFloat, Span.mem_def] at hgap
          omega
      | vax =>
          have hlow : 0 ∈ t.format.mantissa := (hmantissa (by omega)).mpr (by
            simp only [hother, bitPlace, ieeeFloat, Span.mem_def]
            omega)
          have hhigh : 8 * t.size - 16 ∈ t.format.mantissa := (hmantissa (by omega)).mpr (by
            simp only [hother, bitPlace, ieeeFloat, Span.mem_def]
            omega)
          have hgap : 15 ∈ t.format.mantissa :=
            Span.mem_of_between hlow hhigh (Nat.zero_le _) (by omega)
          rw [hmantissa (by omega), hother] at hgap
          simp only [bitPlace, ieeeFloat, Span.mem_def] at hgap
          omega
    have hformat : t.format = (ieeeFloat t.size exponent h).format := by
      refine FloatFormat.eq_of_agrees hfits rfl htwo (bitPlace_inj heven) hbits hu ?_ fun p _ => ?_
      · show 0 < 8 * t.size - 1 - exponent
        omega
      · rw [horder]
        rfl
    cases t
    simp only [ieeeFloat, FloatElement.mk.injEq] at *
    exact ⟨trivial, horder, hformat⟩
  · intro heq bytes _
    rw [heq]

end Float

/-! ## The description and the bytes -/

section Match

variable {nativeType : ElementType → ElementType}

theorem integer_matches_iff (h : SearchesUpward nativeType) (t : IntegerElement) :
    BytesMatchType nativeType (.integer t) ↔ StoredAsDescribed (.integer t) := by
  have hnative := h.integer t
  have hmem := nativeInteger_mem_iff t.format.digits.size t.format.signed
  rw [← hnative] at hmem
  by_cases hbyte : t.format.signed = false ∧ t.format.digits.size ≤ 8
  · exact iff_of_true (Or.inl (h5basetypeToString_eq_nil fun hin => hmem.mp hin hbyte))
      (Or.inl hbyte)
  · have hpos := nativeSize_pos t.format.digits.size
    have hcases := nativeSize_cases t.format.digits.size
    rw [bytesMatchType_iff (hmem.mpr hbyte) (by rw [hnative]; exact hpos), StoredAsDescribed,
      or_iff_right hbyte, hnative]
    refine and_congr_right fun hsize => ?_
    exact integer_value_iff t hpos hcases hsize

theorem float_matches_iff (h : SearchesUpward nativeType) (t : FloatElement) :
    BytesMatchType nativeType (.float t) ↔ StoredAsDescribed (.float t) := by
  have hnative := h.float t
  have hne {size exponent : Nat} {hlt : exponent < 8 * size} (hsize : t.size ≠ size) :
      t ≠ ieeeFloat size exponent hlt := fun heq => hsize (congrArg FloatElement.size heq)
  rw [StoredAsDescribed]
  split_ifs at hnative with hfour height
  · have hother : t ≠ ieeeF64 := hne (by omega)
    rw [bytesMatchType_iff (by rw [hnative]; exact ieee_mem.1) (by rw [hnative]; decide), hnative,
      or_iff_right (by omega), or_iff_left hother]
    constructor
    · rintro ⟨hsize, hvalue⟩
      exact (float_value_iff t _ (Or.inl ⟨rfl, rfl⟩) hsize).mp hvalue
    · rintro rfl
      exact ⟨rfl, fun _ _ => rfl⟩
  · have hother : t ≠ ieeeF32 := hne (by omega)
    rw [bytesMatchType_iff (by rw [hnative]; exact ieee_mem.2) (by rw [hnative]; decide), hnative,
      or_iff_right (by omega), or_iff_right hother]
    constructor
    · rintro ⟨hsize, hvalue⟩
      exact (float_value_iff t _ (Or.inr ⟨rfl, rfl⟩) hsize).mp hvalue
    · rintro rfl
      exact ⟨rfl, fun _ _ => rfl⟩
  · exact iff_of_true
      (Or.inl (h5basetypeToString_eq_nil (by rw [hnative]; exact longDouble_not_mem)))
      (Or.inl (by omega))

/-- The value of a dataset is read back with the base type of its description exactly when the type
is stored as the description says, if there is a base type at all. -/
theorem bytes_match_type_iff (h : SearchesUpward nativeType) (type : ElementType) :
    BytesMatchType nativeType type ↔ StoredAsDescribed type := by
  cases type with
  | integer t => exact integer_matches_iff h t
  | float t => exact float_matches_iff h t

end Match

/-! ## The documented search -/

/-- The native type as it is documented. -/
def searchNative : ElementType → ElementType
  | .integer type => .integer
      (standardInteger (nativeSize type.format.digits.size) type.format.signed (nativeSize_pos _))
  | .float type =>
      .float (if type.size ≤ 4 then ieeeF32 else if type.size ≤ 8 then ieeeF64 else longDouble)

theorem searchesUpward_searchNative : SearchesUpward searchNative := ⟨fun _ => rfl, fun _ => rfl⟩

theorem bytes_match_type_double : BytesMatchType searchNative (.float ieeeF64) :=
  (bytes_match_type_iff searchesUpward_searchNative (.float ieeeF64)).mpr (Or.inr (Or.inr rfl))

/-- `H5T_STD_I32BE`. -/
def bigEndianI32 : IntegerElement where
  size := 4
  order := .big
  format := ⟨⟨0, 32⟩, true⟩
  positive := by decide
  fits := by decide

/-- A dataset with the big-endian number one. -/
def bigEndianOne : Elements (.integer bigEndianI32) where
  dims := [1]
  bytes := fun _ => [0, 0, 0, 1]
  length_bytes := fun _ => rfl

/-- The number one is sent in big-endian order under a little-endian name. -/
theorem bytes_match_type_big_endian :
    (readBytes bigEndianOne none = some [0, 0, 0, 1] ∧
      ElementType.value (.integer bigEndianI32) [0, 0, 0, 1] = .integer 1 ∧
      searchNative (.integer bigEndianI32) = .integer (standardInteger 4 true (by decide)) ∧
      ElementType.interpret (.integer (standardInteger 4 true (by decide))) [0, 0, 0, 1] =
        some [.integer 16777216]) ∧
      ¬BytesMatchType searchNative (.integer bigEndianI32) := by
  refine ⟨⟨rfl, rfl, rfl, rfl⟩, ?_⟩
  rw [integer_matches_iff searchesUpward_searchNative, StoredAsDescribed]
  decide

end XHDF5.Plugin
