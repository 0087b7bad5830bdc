/-
# The round trip of a datatype

The image of a datatype is the datatype itself exactly when nothing in it is outside of what the
text and the reader can express: integers of 1, 2, 4 or 8 bytes, floats of 4 or 8, null-padded or
variable-length ASCII strings, packed compounds, and enumeration values that survive their way
through eight bytes.
-/

import XHDF5.Client.DatatypeRead

namespace XHDF5.Client

open XHDF5.Math

/-! ## What the library keeps of every datatype -/

mutual

/-- Sizes and dimensions are positive, and names and values are not repeated. -/
def Datatype.Valid : Datatype → Prop
  | .integer base => 0 < base.size
  | .float size _ => 0 < size
  | .string length _ _ => length ≠ some 0
  | .compound size members =>
      0 < size ∧ (members.map Prod.fst).Nodup ∧ (∀ m ∈ members, m.1 ≠ []) ∧ ValidFields members
  | .enum base members =>
      0 < base.size ∧ (members.map Prod.fst).Nodup ∧ (∀ m ∈ members, m.1 ≠ []) ∧
        (members.map Prod.snd).Nodup
  | .array base dims => dims.length ≤ 32 ∧ 0 ∉ dims ∧ base.Valid
  | _ => True

/-- The member types are valid. -/
def ValidFields : List (Text × Nat × Datatype) → Prop
  | [] => True
  | (_, _, memberType) :: members => memberType.Valid ∧ ValidFields members

end

/-! ## What the text expresses -/

/-- An integer of the sizes and byte orders that the reader knows. -/
def IntegerType.Standard (base : IntegerType) : Prop :=
  (base.size = 1 ∨ base.size = 2 ∨ base.size = 4 ∨ base.size = 8) ∧ base.order ≠ .vax

/-- The number that is printed for the value is a 64-bit integer, and the nearest one in the range
of the base type is the value. -/
def Kept (base : IntegerType) (value : Int) : Prop :=
  enumValue base value < 2 ^ 63 ∧ clip base (enumValue base value) = value

/-- Every member begins where the one before it ends. -/
def Packed : Nat → List (Text × Nat × Datatype) → Prop
  | _, [] => True
  | offset, (_, start, memberType) :: members =>
      start = offset ∧ Packed (offset + memberType.size) members

mutual

/-- A datatype that the text expresses. -/
def Datatype.Faithful : Datatype → Prop
  | .integer base => base.Standard
  | .float size order => (size = 4 ∨ size = 8) ∧ order ≠ .vax
  | .string none pad charSet => pad = .nullterm ∧ charSet = .ascii
  | .string (some length) pad charSet => length < 2 ^ 63 ∧ pad = .nullpad ∧ charSet = .ascii
  | .compound size members =>
      members ≠ [] ∧ size = (members.map fun m => m.2.2.size).sum ∧ Packed 0 members ∧
        FaithfulFields members
  | .enum base members => base.Standard ∧ members ≠ [] ∧ ∀ m ∈ members, Kept base m.2
  | .array base dims => base.Faithful ∧ ∀ d ∈ dims, d < 2 ^ 63
  | .reference kind => kind ≠ .any
  | .other _ => False

/-- Member types that the text expresses. -/
def FaithfulFields : List (Text × Nat × Datatype) → Prop
  | [] => True
  | (_, _, memberType) :: members => memberType.Faithful ∧ FaithfulFields members

end

/-! ## Scalars -/

/-- Only the predefined integers come out of a name. -/
theorem standard_of_integerOfBase {name : Text} {base : IntegerType}
    (h : integerOfBase name = .ok base) : base.Standard := by
  rw [integerOfBase] at h
  obtain ⟨sign, _, h⟩ := Outcome.bind_eq_ok_iff.mp h
  obtain ⟨digit, _, h⟩ := Outcome.bind_eq_ok_iff.mp h
  cases hsize : integerSize digit with
  | none => simp [hsize] at h
  | some entry =>
      cases entry with
      | mk size place =>
          simp only [hsize] at h
          obtain ⟨order, _, h⟩ := Outcome.bind_eq_ok_iff.mp h
          have hsizes : size = 1 ∨ size = 2 ∨ size = 4 ∨ size = 8 := by
            unfold integerSize at hsize
            repeat' split at hsize
            all_goals simp_all
          rw [← Outcome.ok.inj h]
          refine ⟨hsizes, ?_⟩
          split <;> simp

theorem integerOfBase_nameText {base : IntegerType} (h : base.Standard) :
    integerOfBase base.nameText = .ok base := by
  cases base with
  | mk size order signed =>
      obtain ⟨hsize, horder⟩ := h
      simp only at hsize horder
      cases order with
      | vax => cases horder rfl
      | little | big =>
          rcases hsize with rfl | rfl | rfl | rfl <;>
            (cases signed <;>
              (simp only [IntegerType.nameText, predefinedName]
               unfold lit
               decide))
theorem floatOfBase_eq_ok_iff (size : Nat) (order : ByteOrder) :
    floatOfBase (predefinedName (lit "IEEE") (lit "F") size order) = .ok (.float size order) ↔
      (size = 4 ∨ size = 8) ∧ order ≠ .vax := by
  constructor
  · intro h
    rw [floatOfBase] at h
    obtain ⟨digit, _, h⟩ := Outcome.bind_eq_ok_iff.mp h
    split at h
    · obtain ⟨symbol, _, h⟩ := Outcome.bind_eq_ok_iff.mp h
      have hfloat := Outcome.ok.inj h
      simp only [Datatype.float.injEq] at hfloat
      rw [← hfloat.1, ← hfloat.2]
      refine ⟨?_, ?_⟩
      · split <;> simp
      · split <;> simp
    · cases h
  · rintro ⟨hsize, horder⟩
    cases order with
    | vax => cases horder rfl
    | little | big =>
        rcases hsize with rfl | rfl <;>
          (simp only [predefinedName]
           unfold lit
           rfl)

theorem neg_le_enumValue (base : IntegerType) (value : Int) :
    -(2 ^ 63) ≤ enumValue base value := by
  simp only [enumValue]
  split <;> omega

theorem isInteger_natCast (value : Nat) : isInteger value ↔ value < 2 ^ 63 := by
  unfold isInteger
  omega

/-! ## Values of enumerations -/

/-- A value that the bytes of the type hold. -/
def IntegerType.InRange (base : IntegerType) (value : Int) : Prop :=
  if base.signed then
    -(2 ^ (8 * base.size - 1)) ≤ value ∧ value < 2 ^ (8 * base.size - 1)
  else 0 ≤ value ∧ value < 2 ^ (8 * base.size)

/-- Values of little-endian types are kept unless they are negative in fewer than eight bytes, or
too large for a signed 64-bit integer. -/
theorem kept_little_iff {base : IntegerType} (hstandard : base.Standard)
    (horder : base.order = .little) {value : Int} (hrange : base.InRange value) :
    Kept base value ↔ (0 ≤ value ∨ base.size = 8) ∧ value < 2 ^ 63 := by
  have hraw : enumValue base value =
      if base.signed ∧ 2 ^ 63 ≤ value % 256 ^ base.size then value % 256 ^ base.size - 2 ^ 64
      else value % 256 ^ base.size := by
    have hpow : (0 : Int) < 256 ^ base.size := Int.pow_pos (by decide)
    have hnonneg : 0 ≤ value % 256 ^ base.size := Int.emod_nonneg _ (by omega)
    have hlt : (value % 256 ^ base.size).toNat < 256 ^ base.size := by
      have hmod := Int.emod_lt_of_pos value hpow
      rw [← Int.ofNat_lt, Int.toNat_of_nonneg hnonneg]
      exact_mod_cast hmod
    rw [enumValue, IntegerType.bytes, if_pos horder, ofLittleEndian_of_lt hlt,
      Int.toNat_of_nonneg hnonneg]
    congr 1
    simp only [eq_iff_iff, and_congr_right_iff]
    omega
  cases base with
  | mk size order signed =>
      unfold Kept clip
      rw [hraw]
      simp only [IntegerType.InRange] at hrange ⊢
      rcases hstandard.1 with hsize | hsize | hsize | hsize <;>
        (simp only at hsize; subst hsize; cases signed <;> simp at hrange ⊢ <;> omega)
/-! ## Containers -/

theorem arrayDims_numbers {dims : List Nat} (h : ∀ d ∈ dims, d < 2 ^ 63) :
    arrayDims (dims.map fun d : Nat => .number d) = .ok dims := by
  induction dims with
  | nil => rfl
  | cons d dims ih =>
      have hd : d < 2 ^ 63 := h d (by simp)
      rw [List.map_cons, arrayDims, if_pos ((isInteger_natCast d).mpr hd),
        ih fun e he => h e (List.mem_cons_of_mem _ he), Outcome.ok_bind,
        toSize_natCast (by omega)]

theorem lt_of_arrayDims {dims result : List Nat}
    (h : arrayDims (dims.map fun d : Nat => .number d) = .ok result) : ∀ d ∈ dims, d < 2 ^ 63 := by
  induction dims generalizing result with
  | nil => simp
  | cons d dims ih =>
      rw [List.map_cons, arrayDims] at h
      split at h
      · next hd =>
          obtain ⟨rest, hrest, _⟩ := Outcome.bind_eq_ok_iff.mp h
          intro e he
          rcases List.mem_cons.mp he with rfl | he
          · exact (isInteger_natCast e).mp hd
          · exact ih hrest e he
      · cases h

/-- Kept values are inserted as they are. -/
theorem insertValues_kept {base : IntegerType} {members inserted : List (Text × Int)}
    (hkept : ∀ m ∈ members, Kept base m.2) (hnames : ∀ m ∈ members, m.1 ≠ [])
    (hdistinct : ((inserted ++ members).map Prod.fst).Nodup)
    (hvalues : ((inserted ++ members).map Prod.snd).Nodup) :
    insertValues base inserted (mappingOf base members) = .ok (inserted ++ members) := by
  induction members generalizing inserted with
  | nil => simp [mappingOf, insertValues]
  | cons m members ih =>
      have hm := hkept m (by simp)
      have hinteger : isInteger (enumValue base m.2) := ⟨neg_le_enumValue base m.2, hm.1⟩
      have hfresh : m.1 ∉ inserted.map Prod.fst ∧ m.2 ∉ inserted.map Prod.snd := by
        rw [List.map_append, List.nodup_append] at hdistinct hvalues
        exact ⟨fun h => hdistinct.2.2 _ h _ (by simp) rfl, fun h => hvalues.2.2 _ h _ (by simp) rfl⟩
      have hrest := @ih (inserted ++ [m])
        (fun n hn => hkept n (List.mem_cons_of_mem _ hn))
        (fun n hn => hnames n (List.mem_cons_of_mem _ hn))
        (by simpa using hdistinct) (by simpa using hvalues)
      simp only [mappingOf, List.map_cons, insertValues, hm.2, hinteger, hnames m (by simp),
        hfresh, not_true_eq_false, if_false, or_false] at hrest ⊢
      rw [hrest, List.append_assoc, List.singleton_append]

/-- What was inserted are the clipped values, all of them printed as integers. -/
theorem insertValues_eq_ok {base : IntegerType} {members inserted result : List (Text × Int)}
    (h : insertValues base inserted (mappingOf base members) = .ok result) :
    result = inserted ++ members.map (fun m => (m.1, clip base (enumValue base m.2))) ∧
      ∀ m ∈ members, enumValue base m.2 < 2 ^ 63 := by
  induction members generalizing inserted with
  | nil =>
      simp only [mappingOf, List.map_nil, insertValues] at h
      simp [Outcome.ok.inj h]
  | cons m members ih =>
      simp only [mappingOf, List.map_cons, insertValues] at h
      split at h
      · cases h
      · next hinteger =>
          split at h
          · cases h
          · obtain ⟨hresult, hrest⟩ := ih h
            refine ⟨by simp [hresult], ?_⟩
            intro n hn
            rcases List.mem_cons.mp hn with rfl | hn
            · exact (not_not.mp hinteger).2
            · exact hrest n hn

/-- The members with their offsets one behind the other. -/
def repack : Nat → List Text → List Datatype → List (Text × Nat × Datatype)
  | offset, name :: names, memberType :: types =>
      (name, offset, memberType) :: repack (offset + memberType.size) names types
  | _, _, _ => []

theorem insertFields_repack {inserted : List (Text × Nat × Datatype)} {offset : Nat}
    {names : List Text} {types : List Datatype} (hnames : ∀ name ∈ names, name ≠ [])
    (hdistinct : (inserted.map Prod.fst ++ names).Nodup) :
    insertFields inserted offset (names.map some) types =
      .ok (inserted ++ repack offset names types) := by
  induction names generalizing inserted offset types with
  | nil => simp [insertFields, repack]
  | cons name names ih =>
      cases types with
      | nil => simp [insertFields, repack]
      | cons memberType types =>
          have hfresh : name ∉ inserted.map Prod.fst := by
            rw [List.nodup_append] at hdistinct
            exact fun h => hdistinct.2.2 _ h _ (by simp) rfl
          rw [List.map_cons, insertFields]
          simp only [hnames name (by simp), hfresh, or_self, if_false]
          rw [ih (fun n hn => hnames n (List.mem_cons_of_mem _ hn)) (by simpa using hdistinct)]
          simp [repack]

/-- Putting the members behind each other changes nothing exactly when they were packed. -/
theorem repack_eq_iff {offset : Nat} {members : List (Text × Nat × Datatype)}
    {types : List Datatype} (hlength : types.length = members.length) :
    repack offset (members.map Prod.fst) types = members ↔
      types = members.map (fun m => m.2.2) ∧ Packed offset members := by
  induction members generalizing offset types with
  | nil => simpa [repack, Packed] using hlength
  | cons m members ih =>
      cases types with
      | nil => cases hlength
      | cons memberType types =>
          cases m with
          | mk name rest =>
              cases rest with
              | mk start original =>
                  have hrest := @ih (offset + memberType.size) types
                    (by simpa using hlength)
                  simp only [List.map_cons, repack, Packed, List.cons.injEq, Prod.mk.injEq, true_and,
                    hrest]
                  constructor
                  · rintro ⟨⟨rfl, rfl⟩, rfl, hpacked⟩
                    exact ⟨⟨rfl, rfl⟩, rfl, hpacked⟩
                  · rintro ⟨⟨rfl, rfl⟩, rfl, hpacked⟩
                    exact ⟨⟨rfl, rfl⟩, rfl, hpacked⟩

theorem length_imageFields {members : List (Text × Nat × Datatype)} {types : List Datatype}
    (h : imageFields members = .ok types) : types.length = members.length := by
  induction members generalizing types with
  | nil =>
      rw [imageFields] at h
      rw [← Outcome.ok.inj h]
      rfl
  | cons m members ih =>
      cases m with
      | mk name rest =>
          rw [imageFields] at h
          obtain ⟨image, _, h⟩ := Outcome.bind_eq_ok_iff.mp h
          obtain ⟨others, hothers, h⟩ := Outcome.bind_eq_ok_iff.mp h
          rw [← Outcome.ok.inj h, List.length_cons, ih hothers, List.length_cons]
/-! ## The image -/

mutual

/-- The image of a datatype is the datatype itself exactly when the text expresses it. -/
theorem image_eq_ok_iff : ∀ t : Datatype, t.Valid → (t.image = .ok t ↔ t.Faithful)
  | .integer base, _ => by
      rw [Datatype.image, Datatype.Faithful]
      constructor
      · intro h
        obtain ⟨image, himage, h⟩ := Outcome.bind_eq_ok_iff.mp h
        have heq := Outcome.ok.inj h
        rw [Datatype.integer.injEq] at heq
        exact heq ▸ standard_of_integerOfBase himage
      · intro h
        rw [integerOfBase_nameText h, Outcome.ok_bind]
  | .float size order, _ => by
      rw [Datatype.image, Datatype.Faithful]
      exact floatOfBase_eq_ok_iff size order
  | .string none pad charSet, _ => by
      rw [Datatype.image, Datatype.Faithful, Outcome.ok.injEq, Datatype.string.injEq]
      simp [eq_comm]
  | .string (some length) pad charSet, hvalid => by
      rw [Datatype.Valid] at hvalid
      rw [Datatype.image, Datatype.Faithful]
      by_cases hlength : length < 2 ^ 63
      · have hinteger := (isInteger_natCast length).mpr hlength
        have hpos : length ≠ 0 := fun h => hvalid (congrArg some h)
        rw [if_neg (not_not.mpr hinteger), if_neg hpos, Outcome.ok.injEq, Datatype.string.injEq]
        simp only [hlength, true_and]
        exact and_congr eq_comm eq_comm
      · rw [if_pos fun h => hlength ((isInteger_natCast length).mp h)]
        simp only [hlength, false_and, reduceCtorEq]
  | .compound size members, hvalid => by
      rw [Datatype.Valid] at hvalid
      have hfields := imageFields_eq_ok_iff members hvalid.2.2.2
      have hinsert : ∀ types, insertFields [] 0 (members.map fun m => some m.1) types =
          .ok (repack 0 (members.map Prod.fst) types) := by
        intro types
        have hnames : ∀ name ∈ members.map Prod.fst, name ≠ [] := by
          intro name hname
          obtain ⟨m, hm, rfl⟩ := List.mem_map.mp hname
          exact hvalid.2.2.1 m hm
        have hrepack := @insertFields_repack [] 0 _ types hnames (by simpa using hvalid.2.1)
        rwa [List.map_map, List.nil_append] at hrepack
      rw [Datatype.image, Datatype.Faithful]
      by_cases hne : members = []
      · simp [hne]
      · rw [if_neg hne]
        simp only [hinsert, Outcome.ok_bind]
        constructor
        · intro h
          obtain ⟨types, htypes, h⟩ := Outcome.bind_eq_ok_iff.mp h
          have heq := Outcome.ok.inj h
          rw [Datatype.compound.injEq, repack_eq_iff (length_imageFields htypes)] at heq
          obtain ⟨hsize, rfl, hpacked⟩ := heq
          refine ⟨hne, ?_, hpacked, hfields.mp htypes⟩
          rw [← hsize, List.map_map]
          rfl
        · rintro ⟨_, hsize, hpacked, hfaithful⟩
          have htypes := hfields.mpr hfaithful
          rw [htypes, Outcome.ok_bind, (repack_eq_iff (length_imageFields htypes)).mpr
            ⟨rfl, hpacked⟩, List.map_map, hsize]
          rfl
  | .enum base members, hvalid => by
      rw [Datatype.Valid] at hvalid
      rw [Datatype.image, Datatype.Faithful]
      by_cases hne : members = []
      · simp [hne]
      · rw [if_neg hne]
        constructor
        · intro h
          obtain ⟨image, himage, h⟩ := Outcome.bind_eq_ok_iff.mp h
          obtain ⟨result, hresult, h⟩ := Outcome.bind_eq_ok_iff.mp h
          have heq := Outcome.ok.inj h
          rw [Datatype.enum.injEq] at heq
          obtain ⟨rfl, rfl⟩ := heq
          refine ⟨standard_of_integerOfBase himage, hne, ?_⟩
          obtain ⟨hvalues, hintegers⟩ := insertValues_eq_ok hresult
          intro m hm
          refine ⟨hintegers m hm, ?_⟩
          have hself : result.map id = result.map fun m => (m.1, clip image (enumValue image m.2)) := by
            rw [List.map_id]
            exact hvalues
          exact (congrArg Prod.snd (List.map_inj_left.mp hself m hm)).symm
        · rintro ⟨hstandard, _, hkept⟩
          have hinsert := @insertValues_kept _ _ [] hkept hvalid.2.2.1 (by simpa using hvalid.2.1)
            (by simpa using hvalid.2.2.2)
          rw [integerOfBase_nameText hstandard, Outcome.ok_bind, hinsert, Outcome.ok_bind,
            List.nil_append]
  | .array base dims, hvalid => by
      rw [Datatype.Valid] at hvalid
      have hbase := image_eq_ok_iff base hvalid.2.2
      rw [Datatype.image, Datatype.Faithful]
      constructor
      · intro h
        obtain ⟨image, himage, h⟩ := Outcome.bind_eq_ok_iff.mp h
        obtain ⟨result, hresult, h⟩ := Outcome.bind_eq_ok_iff.mp h
        split at h
        · cases h
        · have heq := Outcome.ok.inj h
          rw [Datatype.array.injEq] at heq
          exact ⟨hbase.mp (heq.1 ▸ himage), lt_of_arrayDims hresult⟩
      · rintro ⟨hfaithful, hdims⟩
        rw [hbase.mpr hfaithful, Outcome.ok_bind, arrayDims_numbers hdims, Outcome.ok_bind,
          if_neg (by simp [hvalid.1, hvalid.2.1])]
  | .reference kind, _ => by
      rw [Datatype.image, Datatype.Faithful]
      cases kind with
      | object | region | any => simp
  | .other size, _ => by
      rw [Datatype.image, Datatype.Faithful]
      simp

/-- The images of the member types are the types themselves exactly when the text expresses
them. -/
theorem imageFields_eq_ok_iff : ∀ members : List (Text × Nat × Datatype), ValidFields members →
    (imageFields members = .ok (members.map fun m => m.2.2) ↔ FaithfulFields members)
  | [], _ => by
      rw [imageFields, FaithfulFields]
      simp
  | (name, offset, memberType) :: members, hvalid => by
      rw [ValidFields] at hvalid
      have hfirst := image_eq_ok_iff memberType hvalid.1
      have hrest := imageFields_eq_ok_iff members hvalid.2
      rw [imageFields, FaithfulFields, List.map_cons]
      constructor
      · intro h
        obtain ⟨image, himage, h⟩ := Outcome.bind_eq_ok_iff.mp h
        obtain ⟨types, htypes, h⟩ := Outcome.bind_eq_ok_iff.mp h
        have heq := Outcome.ok.inj h
        obtain ⟨rfl, rfl⟩ := List.cons.inj heq
        exact ⟨hfirst.mp himage, hrest.mp htypes⟩
      · rintro ⟨hfaithful, hothers⟩
        rw [hfirst.mpr hfaithful, Outcome.ok_bind, hrest.mpr hothers, Outcome.ok_bind]

end
/-! ## The round trip -/

theorem sized_ne_undefined {size : Nat} {body : Outcome Text} (h : body ≠ .undefined) :
    sized size body ≠ .undefined := by
  rw [sized]
  split
  · simp
  · exact h

theorem predefined_ne_undefined (family kind : Text) (size : Nat) (order : ByteOrder) :
    rvConvertPredefinedDatatypeToString family kind size order ≠ .undefined := by
  simp only [rvConvertPredefinedDatatypeToString]
  split <;> simp

mutual

/-- The writer does nothing undefined on a datatype that the text expresses. -/
theorem convert_ne_undefined : ∀ (t : Datatype) (nested : Bool), t.Faithful →
    rvConvertDatatypeToJson nested t ≠ .undefined
  | .integer base, nested, _ => by
      rw [rvConvertDatatypeToJson]
      apply sized_ne_undefined
      exact Outcome.bind_ne_undefined (predefined_ne_undefined _ _ _ _) fun _ _ => by simp
  | .float size order, nested, _ => by
      rw [rvConvertDatatypeToJson]
      apply sized_ne_undefined
      exact Outcome.bind_ne_undefined (predefined_ne_undefined _ _ _ _) fun _ _ => by simp
  | .string none _ _, nested, _ => by
      rw [rvConvertDatatypeToJson]
      simp
  | .string (some length) _ _, nested, _ => by
      rw [rvConvertDatatypeToJson]
      exact sized_ne_undefined (by simp)
  | .compound size members, nested, h => by
      rw [Datatype.Faithful] at h
      rw [rvConvertDatatypeToJson]
      apply sized_ne_undefined
      apply Outcome.bind_ne_undefined (strings_ne_undefined members h.2.2.2)
      intro strings hstrings
      have hne : strings ≠ [] := by
        rintro rfl
        have hitems := strings_eq_ok members [] hstrings
        cases members with
        | nil => exact h.1 rfl
        | cons m members =>
            cases m with
            | mk name rest =>
                rw [fieldTrees, Json.renderItems_cons] at hitems
                cases hitems
      simp [hne]
  | .enum base members, nested, h => by
      rw [Datatype.Faithful] at h
      have hsize : ¬ (members = [] ∨ 8 < base.size) := by
        rintro (hnil | hwide)
        · exact h.2.1 hnil
        · rcases h.1.1 with hsize | hsize | hsize | hsize <;> omega
      rw [rvConvertDatatypeToJson, if_neg hsize]
      apply sized_ne_undefined
      exact Outcome.bind_ne_undefined (predefined_ne_undefined _ _ _ _) fun _ _ => by simp
  | .array base dims, nested, h => by
      rw [Datatype.Faithful] at h
      rw [rvConvertDatatypeToJson]
      apply sized_ne_undefined
      split
      · simp
      · apply Outcome.bind_ne_undefined
        · rw [arrayShape]
          split <;> simp
        · intro shape _
          exact Outcome.bind_ne_undefined (convert_ne_undefined base true h.1) fun _ _ => by simp
  | .reference kind, nested, _ => by
      rw [rvConvertDatatypeToJson]
      simp
  | .other size, nested, h => by
      rw [Datatype.Faithful] at h
      cases h

/-- The writer does nothing undefined on member types that the text expresses. -/
theorem strings_ne_undefined : ∀ members : List (Text × Nat × Datatype),
    FaithfulFields members → compoundMemberStrings members ≠ .undefined
  | [], _ => by
      rw [compoundMemberStrings]
      simp
  | (name, offset, memberType) :: members, h => by
      rw [FaithfulFields] at h
      rw [compoundMemberStrings]
      apply Outcome.bind_ne_undefined (convert_ne_undefined memberType false h.1)
      intro body _
      exact Outcome.bind_ne_undefined (strings_ne_undefined members h.2) fun _ _ => by simp

end

/-- The writer accepts the datatype: it does not fail. -/
def Datatype.Accepted (t : Datatype) : Prop := rvConvertDatatypeToJson false t ≠ .fail

instance (t : Datatype) : Decidable t.Accepted := inferInstanceAs (Decidable (_ ≠ _))

/-- The text written for the datatype is read back as the datatype. -/
def TextRoundTrips (parse : Text → Option Json) (t : Datatype) : Prop :=
  ∃ text, rvConvertDatatypeToJson false t = .ok text ∧ rvParseDatatype parse text = .ok t

/-- The whole text is the section of the type. -/
theorem rvParseDatatype_render {parse : Text → Option Json} (hparse : Json.ReadsJson parse)
    {t : Datatype} {text : Text} (hplain : t.PlainNames)
    (h : rvConvertDatatypeToJson false t = .ok text) : rvParseDatatype parse text = t.image := by
  have hbrace : '{' ∉ quoted (lit "type") ++ lit ": " := by unfold quoted lit; decide
  have hleading : leading false = quoted (lit "type") ++ lit ": " := by
    unfold leading quoted lit
    rfl
  obtain ⟨comma, colon, members, hobject⟩ := isObject_of_convert h
  have htree := plain_tree t hplain
  have htext := convert_eq_ok t false text h
  rw [hobject] at htree htext
  rw [hleading] at htext
  have hkey : strstr (quoted (lit "type")) text = some (quoted (lit "type") ++ lit ": " ++
      ((Json.object comma colon members).render ++ [])) := by
    rw [htext, List.append_nil, List.append_assoc]
    exact strstr_self (by simp [quoted])
  have hfind := findSection_object hbrace htree hkey
  have hwrapped : lit "\x7b" ++ (quoted (lit "type") ++ lit ": " ++
      (Json.object comma colon members).render) ++ lit "\x7d" =
      (wrapped blank (Json.object comma colon members)).render := by
    rw [render_wrapped]
    simp only [quoted, List.cons_append, List.append_assoc, List.nil_append]
    unfold blank lit
    rfl
  have hbefore : ∀ text : Text, before text [] = text := fun text => by simp [before]
  rw [rvParseDatatype, quoted_lit_type, hfind]
  simp only [hbefore, List.append_nil, hwrapped]
  rw [← hobject]
  cases hlength : (wrapped blank t.tree).render.length with
  | zero =>
      rw [render_wrapped] at hlength
      cases hlength
  | succ depth =>
      exact read_image hparse t false text blank depth h hplain blank_blank (Nat.le_of_eq hlength)

/-- With plain names an accepted datatype makes the round trip exactly when the text expresses
it. -/
theorem textRoundTrips_iff {parse : Text → Option Json} (hparse : Json.ReadsJson parse) {t : Datatype}
    (hvalid : t.Valid) (hplain : t.PlainNames) (haccepted : t.Accepted) :
    TextRoundTrips parse t ↔ t.Faithful := by
  cases hconvert : rvConvertDatatypeToJson false t with
  | fail => exact absurd hconvert haccepted
  | undefined =>
      constructor
      · rintro ⟨text, htext, _⟩
        rw [hconvert] at htext
        cases htext
      · intro h
        exact absurd hconvert (convert_ne_undefined t false h)
  | ok text =>
      rw [← image_eq_ok_iff t hvalid, ← rvParseDatatype_render hparse hplain hconvert]
      constructor
      · rintro ⟨other, hother, hread⟩
        rw [hconvert] at hother
        exact Outcome.ok.inj hother ▸ hread
      · intro h
        exact ⟨text, hconvert, h⟩

/-- A compound of an integer and an enumeration. -/
def pointType : Datatype :=
  .compound 6 [(lit "x", 0, .integer ⟨4, .big, true⟩),
    (lit "kind", 4, .enum ⟨2, .little, true⟩ [(lit "fixed", 0), (lit "free", 1)])]

theorem textRoundTrips_iff_pointType : TextRoundTrips Json.readJson pointType ↔ pointType.Faithful := by
  apply textRoundTrips_iff Json.readsJson_readJson
  · simp only [pointType, Datatype.Valid, ValidFields]
    unfold lit
    decide
  · simp only [pointType, Datatype.PlainNames, PlainFields]
    unfold lit
    decide
  · decide +kernel

/-- An enumeration of two bytes with a negative value. -/
def signType : Datatype := .enum ⟨2, .little, true⟩ [(lit "minus", -1)]

/-- The members of the enumeration that is read back. -/
def membersRead (t : Datatype) : Option (List (Text × Int)) :=
  match rvConvertDatatypeToJson false t with
  | .ok text =>
      match rvParseDatatype Json.readJson text with
      | .ok (.enum _ members) => some members
      | _ => none
  | _ => none

/-- The value -1 is written as 65535 and read back as 32767. -/
theorem not_textRoundTrips_signType : ¬ ∀ parse : Text → Option Json, Json.ReadsJson parse →
    ∀ t : Datatype, t.Valid → t.Accepted → TextRoundTrips parse t := by
  intro h
  have hvalid : signType.Valid := by
    simp only [signType, Datatype.Valid]
    unfold lit
    decide
  have hread : membersRead signType = some [(lit "minus", 32767)] := by decide +kernel
  obtain ⟨text, htext, hparse⟩ :=
    h Json.readJson Json.readsJson_readJson signType hvalid (by decide +kernel)
  rw [membersRead, htext] at hread
  simp only [hparse] at hread
  have hvalues : some [(-1 : Int)] = some [32767] :=
    congrArg (Option.map (List.map Prod.snd)) hread
  cases hvalues

end XHDF5.Client
