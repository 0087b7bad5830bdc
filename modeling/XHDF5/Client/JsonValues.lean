/-
# JSON values as binary data

The values of a selection of points come as JSON. `RV_json_values_to_binary_recursive` stores the
members of a compound behind each other, from the sizes of their types; the offsets of the members
are not looked at. So the buffer is right just when the numbers of the compound lie where the sizes
before them add up to.

The tree of the JSON library is the input, a number with the integer and the double that were
parsed from it. What a `float` and a `double` are in memory is a parameter. `H5T_NATIVE_INT` has
four bytes, the least significant one first, and stores need no alignment. Allocations succeed.
-/

import Mathlib.Data.List.Nodup
import Mathlib.Data.List.Perm.Subperm
import XHDF5.Client.Datatype
import XHDF5.Math.Buffer
import XHDF5.Math.Stores

namespace XHDF5.Client.JsonValues

open XHDF5.Math

/-! ## The code -/

/-- A `yajl_val`. -/
inductive Tree (δ : Type)
  | number (integer : Option Int) (double : Option δ)
  | object (members : List (Text × Tree δ))
  | array (items : List (Tree δ))
  | other

/-- The bytes of floating point numbers. -/
structure Floats (δ : Type) where
  float : δ → List UInt8
  double : δ → List UInt8
  length_float : ∀ d, (float d).length = 4
  length_double : ∀ d, (double d).length = 8

variable {δ : Type} (fl : Floats δ)

/-- `H5T_NATIVE_INT`. -/
def nativeInt : IntegerType := ⟨4, .little, true⟩

/-- The bytes of `(int)YAJL_GET_INTEGER(value_entry)`. -/
def intBytes (value : Int) : List UInt8 := nativeInt.bytes value

/-- `YAJL_GET_OBJECT(value_entry)->values`, or NULL. -/
def objectValues : Tree δ → Option (List (Tree δ))
  | .object members => some (members.map Prod.snd)
  | _ => none

/-- The branch for integers. -/
def convertInteger (base : IntegerType) (v : Tree δ) (pos : Nat) (b : Buffer UInt8) :
    Outcome (Buffer UInt8) :=
  if base ≠ nativeInt then .fail
  else
    match v with
    | .number (some value) _ => b.store pos (intBytes value)
    | _ => .fail

/-- The branch for floating point numbers. -/
def convertFloat (size : Nat) (order : ByteOrder) (v : Tree δ) (pos : Nat) (b : Buffer UInt8) :
    Outcome (Buffer UInt8) :=
  if order ≠ .little ∨ size ≠ 4 ∧ size ≠ 8 then .fail
  else
    match v with
    | .number _ (some d) => b.store pos (if size = 4 then fl.float d else fl.double d)
    | _ => .fail

mutual

/-- `RV_json_values_to_binary_recursive`, with the place of `value_buffer`. -/
def rvJsonValuesToBinaryRecursive : Datatype → Tree δ → Nat → Buffer UInt8 → Outcome (Buffer UInt8)
  | .integer base, v, pos, b => if base.size = 0 then .fail else convertInteger base v pos b
  | .float size order, v, pos, b => if size = 0 then .fail else convertFloat fl size order v pos b
  | .compound size members, v, pos, b =>
      if size = 0 then .fail else convertMembers members (objectValues v) 0 pos b
  | _, _, _, _ => .fail

/-- The loop over the members from the `i`-th one on, with the place of the next one. -/
def convertMembers : List (Text × Nat × Datatype) → Option (List (Tree δ)) → Nat → Nat →
    Buffer UInt8 → Outcome (Buffer UInt8)
  | [], _, _, _, b => .ok b
  | (_, _, memberType) :: members, values, i, pos, b =>
      if memberType.size = 0 then .fail
      else
        match values.bind fun values => values[i]? with
        | none => .undefined
        | some v =>
            (rvJsonValuesToBinaryRecursive memberType v pos b).bind fun b =>
              convertMembers members values (i + 1) (pos + memberType.size) b

end

/-- The loop over the values from the `i`-th one on. -/
def convertValues (t : Datatype) : List (Tree δ) → Nat → Buffer UInt8 → Outcome (Buffer UInt8)
  | [], _, b => .ok b
  | v :: values, i, b =>
      (rvJsonValuesToBinaryRecursive fl t v (i * t.size) b).bind fun b =>
        convertValues t values (i + 1) b

/-- `RV_json_values_to_binary_callback`, from the array of values on: the buffer. -/
def rvJsonValuesToBinary (t : Datatype) (values : List (Tree δ)) : Outcome (Buffer UInt8) :=
  if t.size = 0 then .fail
  else convertValues fl t values 0 ⟨fun _ => 0, values.length * t.size⟩

/-! ## Layouts -/

/-- Where the members of a compound lie: behind each other, or at their offsets. -/
inductive Layout
  | packed
  | declared
deriving DecidableEq

/-- The place of a member. -/
def Layout.place (layout : Layout) (base before offset : Nat) : Nat :=
  match layout with
  | .packed => base + before
  | .declared => base + offset

mutual

/-- Where the numbers of a datatype lie. -/
def positions (layout : Layout) : Datatype → Nat → List Nat
  | .compound _ members, pos => memberPositions layout members pos 0
  | _, pos => [pos]

/-- Where the numbers of some members lie, with the sizes of the members before them. -/
def memberPositions (layout : Layout) : List (Text × Nat × Datatype) → Nat → Nat → List Nat
  | [], _, _ => []
  | (_, offset, t) :: members, base, before =>
      positions layout t (layout.place base before offset) ++
        memberPositions layout members base (before + t.size)

end

/-- What a number is in memory. -/
def leafBytes : Datatype → Tree δ → List UInt8
  | .integer base, .number (some value) _ => base.bytes value
  | .float size _, .number _ (some d) => if size = 4 then fl.float d else fl.double d
  | _, _ => []

/-- The values of a compound's members, whether they come as an object or as an array. -/
def parts : Tree δ → List (Tree δ)
  | .object members => members.map Prod.snd
  | .array items => items
  | _ => []

mutual

/-- The numbers in a value, as bytes. -/
def encodings : Datatype → Tree δ → List (List UInt8)
  | .compound _ members, v => memberEncodings members (parts v)
  | t, v => [leafBytes fl t v]

def memberEncodings : List (Text × Nat × Datatype) → List (Tree δ) → List (List UInt8)
  | (_, _, t) :: members, v :: values => encodings t v ++ memberEncodings members values
  | _, _ => []

end

/-- The numbers in a value and where they lie. -/
def stores (layout : Layout) (t : Datatype) (v : Tree δ) (pos : Nat) : List (Nat × List UInt8) :=
  (positions layout t pos).zip (encodings fl t v)

/-! ## The purpose -/

/-- How a JSON value lists the members of a compound. -/
inductive Listing
  | objects
  | arrays
deriving DecidableEq

/-- A value with as many parts, in this order. -/
def Listing.Consists (listing : Listing) (names : List Text) (v : Tree δ) (values : List (Tree δ)) :
    Prop :=
  match listing with
  | .objects => ∃ members, v = .object members ∧ members.map Prod.fst = names ∧
      members.map Prod.snd = values
  | .arrays => v = .array values

mutual

/-- A value of a datatype; integers are in the range of an `int`. -/
def Lists (listing : Listing) : Datatype → Tree δ → Prop
  | .integer _, v => ∃ value double, v = .number (some value) double ∧
      -(2 ^ 31) ≤ value ∧ value < 2 ^ 31
  | .float _ _, v => ∃ integer d, v = .number integer (some d)
  | .compound _ members, v => ∃ values, listing.Consists (members.map Prod.fst) v values ∧
      ListsMembers listing members values
  | _, _ => True

def ListsMembers (listing : Listing) : List (Text × Nat × Datatype) → List (Tree δ) → Prop
  | [], values => values = []
  | (_, _, t) :: members, values => ∃ v more, values = v :: more ∧ Lists listing t v ∧
      ListsMembers listing members more

end

mutual

/-- The datatypes that the converter knows. -/
def supported : Datatype → Bool
  | .integer base => decide (base = nativeInt)
  | .float size order => decide (order = .little ∧ (size = 4 ∨ size = 8))
  | .compound _ members => supportedMembers members
  | _ => false

def supportedMembers : List (Text × Nat × Datatype) → Bool
  | [] => true
  | (_, _, t) :: members => supported t && supportedMembers members

end

mutual

/-- What the HDF5 library ensures of a datatype: it has a size, and the members of a compound lie in
it and do not overlap. -/
def Valid : Datatype → Prop
  | .compound size members => 0 < size ∧
      (∀ m ∈ members, m.2.1 + m.2.2.size ≤ size) ∧
      members.Pairwise (fun m m' => m.2.1 + m.2.2.size ≤ m'.2.1 ∨ m'.2.1 + m'.2.2.size ≤ m.2.1) ∧
      ValidMembers members
  | t => 0 < t.size

def ValidMembers : List (Text × Nat × Datatype) → Prop
  | [] => True
  | (_, _, t) :: members => Valid t ∧ ValidMembers members

end

/-- For all values that list the members, the buffer holds every number at its offset, in the
element where it belongs; a datatype that is not supported is refused. -/
def LaidOut (listing : Listing) (t : Datatype) : Prop :=
  ∀ values : List (Tree δ), (∀ v ∈ values, Lists listing t v) →
    if supported t = true then
      ∃ b, rvJsonValuesToBinary fl t values = .ok b ∧ b.size = values.length * t.size ∧
        ∀ i, ∀ v ∈ values[i]?, ∀ store ∈ stores fl .declared t v (i * t.size),
          b.bytes.read store.1 store.2.length = store.2
    else values ≠ [] → rvJsonValuesToBinary fl t values = .fail

/-! ## Numbers and their places -/

variable {fl} {listing : Listing} {layout : Layout} {v : Tree δ} {values : List (Tree δ)}
  {members : List (Text × Nat × Datatype)} {t : Datatype} {b : Buffer UInt8}
  {pos base before i : Nat}

/-- The numbers of some members and where they lie. -/
def memberStores (fl : Floats δ) (layout : Layout) (members : List (Text × Nat × Datatype))
    (values : List (Tree δ)) (base before : Nat) : List (Nat × List UInt8) :=
  (memberPositions layout members base before).zip (memberEncodings fl members values)

theorem Listing.Consists.parts_eq {names : List Text} (h : listing.Consists names v values) :
    parts v = values := by
  cases listing with
  | objects =>
      obtain ⟨members, rfl, -, hvalues⟩ := h
      exact hvalues
  | arrays =>
      obtain rfl : v = .array values := h
      rfl

mutual

theorem positions_add (k : Nat) :
    ∀ (t : Datatype) (pos : Nat),
      positions layout t (k + pos) = (positions layout t pos).map (k + ·)
  | .compound _ members, pos => memberPositions_add k members pos 0
  | .integer _, _ | .float _ _, _ | .string _ _ _, _ | .enum _ _, _ | .array _ _, _
  | .reference _, _ | .other _, _ => rfl

theorem memberPositions_add (k : Nat) :
    ∀ (members : List (Text × Nat × Datatype)) (base before : Nat),
      memberPositions layout members (k + base) before =
        (memberPositions layout members base before).map (k + ·)
  | [], _, _ => rfl
  | (_, offset, t) :: members, base, before => by
      have hplace :
          layout.place (k + base) before offset = k + layout.place base before offset := by
        cases layout <;> exact Nat.add_assoc _ _ _
      rw [memberPositions, hplace, positions_add k t, memberPositions_add k members,
        ← List.map_append, memberPositions]

end

mutual

theorem length_encodings (fl : Floats δ) :
    ∀ (t : Datatype) (v : Tree δ) (pos : Nat), Lists listing t v →
      (positions layout t pos).length = (encodings fl t v).length
  | .compound _ members, v, pos, h => by
      obtain ⟨values, hconsists, hvalues⟩ := h
      rw [encodings, hconsists.parts_eq]
      exact length_memberEncodings fl members values pos 0 hvalues
  | .integer _, _, _, _ | .float _ _, _, _, _ | .string _ _ _, _, _, _ | .enum _ _, _, _, _
  | .array _ _, _, _, _ | .reference _, _, _, _ | .other _, _, _, _ => rfl

theorem length_memberEncodings (fl : Floats δ) :
    ∀ (members : List (Text × Nat × Datatype)) (values : List (Tree δ)) (base before : Nat),
      ListsMembers listing members values →
      (memberPositions layout members base before).length =
        (memberEncodings fl members values).length
  | [], _, _, _, _ => rfl
  | (_, _, t) :: members, _, base, before, h => by
      obtain ⟨v, more, rfl, hv, hmore⟩ := h
      rw [memberPositions, memberEncodings, List.length_append, List.length_append,
        length_encodings fl t v _ hv, length_memberEncodings fl members more base _ hmore]

end

theorem stores_compound {size : Nat} (h : listing.Consists (members.map Prod.fst) v values) :
    stores fl layout (.compound size members) v pos =
      memberStores fl layout members values pos 0 := by
  rw [stores, encodings, h.parts_eq]
  rfl

theorem memberStores_cons {name : Text} {offset : Nat} (hv : Lists listing t v) :
    memberStores fl layout ((name, offset, t) :: members) (v :: values) base before =
      stores fl layout t v (layout.place base before offset) ++
        memberStores fl layout members values base (before + t.size) := by
  rw [memberStores, memberPositions, memberEncodings,
    List.zip_append (length_encodings fl t v _ hv)]
  rfl

/-! ## Behind each other -/

theorem intBytes_length (value : Int) : (intBytes value).length = 4 := by
  rw [intBytes, IntegerType.bytes]
  exact length_littleEndian _ _

/-- Members that lie in a compound and do not overlap fit behind each other. -/
theorem sum_size_le {size : Nat} (hinside : ∀ m ∈ members, m.2.1 + m.2.2.size ≤ size)
    (hdisjoint : members.Pairwise fun m m' =>
      m.2.1 + m.2.2.size ≤ m'.2.1 ∨ m'.2.1 + m'.2.2.size ≤ m.2.1) :
    (members.map fun m => m.2.2.size).sum ≤ size := by
  have hnodup : (members.flatMap fun m => List.range' m.2.1 m.2.2.size).Nodup := by
    refine List.nodup_flatMap.mpr ⟨fun _ _ => List.nodup_range', hdisjoint.imp ?_⟩
    intro m m' h address haddress haddress'
    rw [List.mem_range'_1] at haddress haddress'
    omega
  have hsubset : (members.flatMap fun m => List.range' m.2.1 m.2.2.size) ⊆ List.range size := by
    intro address haddress
    obtain ⟨m, hm, haddress⟩ := List.mem_flatMap.mp haddress
    rw [List.mem_range'_1] at haddress
    exact List.mem_range.mpr (haddress.2.trans_le (hinside m hm))
  simpa [List.length_flatMap] using (List.Nodup.subperm hnodup hsubset).length_le

mutual

/-- What the converter stores comes one behind the other. -/
theorem stacked_stores (fl : Floats δ) :
    ∀ (t : Datatype) (v : Tree δ) (pos : Nat), supported t = true → Valid t → Lists listing t v →
      Stacked pos (stores fl .packed t v pos) (pos + t.size)
  | .integer base, v, pos, hsupported, _, hv => by
      obtain ⟨value, double, rfl, -⟩ := hv
      obtain rfl : base = nativeInt := of_decide_eq_true hsupported
      have hlength := intBytes_length value
      exact ⟨Nat.le_refl _, Nat.add_le_add_left (Nat.le_of_eq hlength) _⟩
  | .float size order, v, pos, hsupported, _, hv => by
      obtain ⟨integer, d, rfl⟩ := hv
      obtain ⟨-, hsize⟩ := of_decide_eq_true hsupported
      refine ⟨Nat.le_refl _, Nat.add_le_add_left (Nat.le_of_eq ?_) _⟩
      rcases hsize with rfl | rfl
      · exact fl.length_float d
      · exact fl.length_double d
  | .compound size members, v, pos, hsupported, hvalid, hv => by
      obtain ⟨values, hconsists, hvalues⟩ := hv
      obtain ⟨-, hinside, hdisjoint, hmembers⟩ := hvalid
      rw [stores_compound hconsists]
      exact (stacked_memberStores fl members values pos 0 hsupported hmembers hvalues).mono
        (Nat.add_le_add_left (by simpa [Datatype.size] using sum_size_le hinside hdisjoint) _)

theorem stacked_memberStores (fl : Floats δ) :
    ∀ (members : List (Text × Nat × Datatype)) (values : List (Tree δ)) (base before : Nat),
      supportedMembers members = true → ValidMembers members → ListsMembers listing members values →
      Stacked (base + before) (memberStores fl .packed members values base before)
        (base + (before + (members.map fun m => m.2.2.size).sum))
  | [], _, _, _, _, _, _ => Nat.le_refl _
  | (_, offset, t) :: members, _, base, before, hsupported, hvalid, hvalues => by
      obtain ⟨v, more, rfl, hv, hmore⟩ := hvalues
      obtain ⟨hfirst, hrest⟩ := Bool.and_eq_true_iff.mp hsupported
      rw [memberStores_cons hv, List.map_cons, List.sum_cons, ← Nat.add_assoc before]
      refine (stacked_stores fl t v (base + before) hfirst hvalid.1 hv).append ?_
      rw [Nat.add_assoc]
      exact stacked_memberStores fl members more base _ hrest hvalid.2 hmore

end

/-! ## The run of the converter -/

theorem Valid.size_pos {t : Datatype} (h : Valid t) : 0 < t.size := by
  cases t with
  | compound size members => exact h.1
  | integer | float | string | enum | array | reference | other => exact h

/-- A number is stored where it fits. -/
theorem store_eq {start : Nat} {bytes : List UInt8} (hlen : bytes.length = t.size)
    (hfits : start + t.size ≤ b.size) :
    b.store start bytes = .ok ⟨b.bytes.writeAll [(start, bytes)], b.size⟩ :=
  Buffer.store_of_within (.inr (hlen ▸ hfits))

/-- One turn of the loop over the members. -/
theorem convertMembers_cons {name : Text} {offset : Nat} {more : List (Tree δ)} (hvalid : Valid t)
    (hdrop : values.drop i = v :: more) :
    convertMembers fl ((name, offset, t) :: members) (some values) i pos b =
      (rvJsonValuesToBinaryRecursive fl t v pos b).bind fun b =>
        convertMembers fl members (some values) (i + 1) (pos + t.size) b := by
  have hget : values[i]? = some v := by
    rw [← List.head?_drop, hdrop]
    rfl
  rw [convertMembers, if_neg (Nat.pos_iff_ne_zero.mp hvalid.size_pos), Option.bind_some, hget]

mutual

/-- The converter makes its stores in order. -/
theorem rvJsonValuesToBinaryRecursive_eq :
    ∀ (t : Datatype) (v : Tree δ) (pos : Nat) (b : Buffer UInt8), supported t = true → Valid t →
      Lists .objects t v → pos + t.size ≤ b.size →
      rvJsonValuesToBinaryRecursive fl t v pos b =
        .ok ⟨b.bytes.writeAll (stores fl .packed t v pos), b.size⟩
  | .integer base, v, pos, b, hsupported, _, hv, hfits => by
      obtain ⟨value, double, rfl, -⟩ := hv
      obtain rfl : base = nativeInt := of_decide_eq_true hsupported
      exact store_eq (t := .integer nativeInt) (intBytes_length value) hfits
  | .float size order, v, pos, b, hsupported, hvalid, hv, hfits => by
      obtain ⟨integer, d, rfl⟩ := hv
      obtain ⟨rfl, hsize⟩ := of_decide_eq_true hsupported
      have hlength : (leafBytes fl (.float size .little) (.number integer (some d))).length =
          size := by
        rcases hsize with rfl | rfl
        · exact fl.length_float d
        · exact fl.length_double d
      have hknown : ¬ (ByteOrder.little ≠ .little ∨ size ≠ 4 ∧ size ≠ 8) := by
        rcases hsize with rfl | rfl <;> decide
      have hne : size ≠ 0 := Nat.pos_iff_ne_zero.mp hvalid
      rw [rvJsonValuesToBinaryRecursive, if_neg hne, convertFloat, if_neg hknown]
      exact store_eq (t := .float size .little) hlength hfits
  | .compound size members, v, pos, b, hsupported, hvalid, hv, hfits => by
      obtain ⟨values, hconsists, hvalues⟩ := hv
      obtain ⟨hpos, hinside, hdisjoint, hmembers⟩ := hvalid
      have hvaluesOf : objectValues v = some values := by
        obtain ⟨entries, rfl, -, rfl⟩ := hconsists
        rfl
      rw [rvJsonValuesToBinaryRecursive, if_neg (Nat.pos_iff_ne_zero.mp hpos), hvaluesOf,
        stores_compound hconsists]
      have hsum := sum_size_le hinside hdisjoint
      refine convertMembers_eq members values values 0 pos 0 b rfl hsupported hmembers hvalues ?_
      rw [Nat.zero_add]
      exact (Nat.add_le_add_left hsum pos).trans hfits

theorem convertMembers_eq :
    ∀ (members : List (Text × Nat × Datatype)) (values rest : List (Tree δ)) (i base before : Nat)
      (b : Buffer UInt8), values.drop i = rest → supportedMembers members = true →
      ValidMembers members → ListsMembers .objects members rest →
      base + (before + (members.map fun m => m.2.2.size).sum) ≤ b.size →
      convertMembers fl members (some values) i (base + before) b =
        .ok ⟨b.bytes.writeAll (memberStores fl .packed members rest base before), b.size⟩
  | [], _, _, _, _, _, _, _, _, _, _, _ => rfl
  | (_, offset, t) :: members, values, _, i, base, before, b, hdrop, hsupported, hvalid, hvalues,
      hfits => by
      obtain ⟨v, more, rfl, hv, hmore⟩ := hvalues
      obtain ⟨hfirst, hrest⟩ := Bool.and_eq_true_iff.mp hsupported
      rw [List.map_cons, List.sum_cons, ← Nat.add_assoc before] at hfits
      have hnext : values.drop (i + 1) = more := by
        rw [← List.tail_drop, hdrop]
        rfl
      have hplace : base + before + t.size ≤ b.size := by
        rw [Nat.add_assoc]
        exact (Nat.add_le_add_left (Nat.le_add_right _ _) _).trans hfits
      rw [convertMembers_cons hvalid.1 hdrop,
        rvJsonValuesToBinaryRecursive_eq t v (base + before) b hfirst hvalid.1 hv hplace,
        Outcome.ok_bind, memberStores_cons hv, Memory.writeAll_append, Nat.add_assoc]
      exact convertMembers_eq members values more (i + 1) base (before + t.size) _ hnext hrest
        hvalid.2 hmore hfits

end

mutual

/-- A datatype that is not known is refused, after the members before it. -/
theorem rvJsonValuesToBinaryRecursive_eq_fail :
    ∀ (t : Datatype) (v : Tree δ) (pos : Nat) (b : Buffer UInt8), supported t = false → Valid t →
      Lists .objects t v → pos + t.size ≤ b.size →
      rvJsonValuesToBinaryRecursive fl t v pos b = .fail
  | .integer base, v, pos, b, hsupported, hvalid, _, _ => by
      have hne : base.size ≠ 0 := Nat.pos_iff_ne_zero.mp hvalid
      rw [rvJsonValuesToBinaryRecursive, if_neg hne]
      exact if_pos (of_decide_eq_false hsupported)
  | .float size order, v, pos, b, hsupported, hvalid, _, _ => by
      have hunknown : order ≠ .little ∨ size ≠ 4 ∧ size ≠ 8 := by
        have hnot := of_decide_eq_false hsupported
        rwa [not_and_or, not_or] at hnot
      have hne : size ≠ 0 := Nat.pos_iff_ne_zero.mp hvalid
      rw [rvJsonValuesToBinaryRecursive, if_neg hne]
      exact if_pos hunknown
  | .compound size members, v, pos, b, hsupported, hvalid, hv, hfits => by
      obtain ⟨values, hconsists, hvalues⟩ := hv
      obtain ⟨hpos, hinside, hdisjoint, hmembers⟩ := hvalid
      have hvaluesOf : objectValues v = some values := by
        obtain ⟨entries, rfl, -, rfl⟩ := hconsists
        rfl
      rw [rvJsonValuesToBinaryRecursive, if_neg (Nat.pos_iff_ne_zero.mp hpos), hvaluesOf]
      have hsum := sum_size_le hinside hdisjoint
      refine convertMembers_eq_fail members values values 0 pos 0 b rfl hsupported hmembers hvalues
        ?_
      rw [Nat.zero_add]
      exact (Nat.add_le_add_left hsum pos).trans hfits
  | .string _ _ _, _, _, _, _, _, _, _ | .enum _ _, _, _, _, _, _, _, _
  | .array _ _, _, _, _, _, _, _, _ | .reference _, _, _, _, _, _, _, _
  | .other _, _, _, _, _, _, _, _ => by rw [rvJsonValuesToBinaryRecursive] <;> simp

theorem convertMembers_eq_fail :
    ∀ (members : List (Text × Nat × Datatype)) (values rest : List (Tree δ)) (i base before : Nat)
      (b : Buffer UInt8), values.drop i = rest → supportedMembers members = false →
      ValidMembers members → ListsMembers .objects members rest →
      base + (before + (members.map fun m => m.2.2.size).sum) ≤ b.size →
      convertMembers fl members (some values) i (base + before) b = .fail
  | [], _, _, _, _, _, _, _, hsupported, _, _, _ => by cases hsupported
  | (_, offset, t) :: members, values, _, i, base, before, b, hdrop, hsupported, hvalid, hvalues,
      hfits => by
      obtain ⟨v, more, rfl, hv, hmore⟩ := hvalues
      rw [List.map_cons, List.sum_cons, ← Nat.add_assoc before] at hfits
      have hnext : values.drop (i + 1) = more := by
        rw [← List.tail_drop, hdrop]
        rfl
      have hplace : base + before + t.size ≤ b.size := by
        rw [Nat.add_assoc]
        exact (Nat.add_le_add_left (Nat.le_add_right _ _) _).trans hfits
      rw [convertMembers_cons hvalid.1 hdrop]
      cases hfirst : supported t with
      | false =>
          rw [rvJsonValuesToBinaryRecursive_eq_fail t v (base + before) b hfirst hvalid.1 hv hplace]
          rfl
      | true =>
          have hrest : supportedMembers members = false := by
            rwa [supportedMembers, hfirst, Bool.true_and] at hsupported
          rw [rvJsonValuesToBinaryRecursive_eq t v (base + before) b hfirst hvalid.1 hv hplace,
            Outcome.ok_bind, Nat.add_assoc]
          exact convertMembers_eq_fail members values more (i + 1) base (before + t.size) _ hnext
            hrest hvalid.2 hmore hfits

end

/-- The datatype is a compound that has members. -/
def hasMembers : Datatype → Bool
  | .compound _ (_ :: _) => true
  | _ => false

/-- What the converter makes of a listed value. -/
theorem rvJsonValuesToBinaryRecursive_of_lists
    (hlisting : listing = .objects ∨ hasMembers t = false) (hvalid : Valid t)
    (hv : Lists listing t v) (hfits : pos + t.size ≤ b.size) :
    rvJsonValuesToBinaryRecursive fl t v pos b =
      if supported t = true then .ok ⟨b.bytes.writeAll (stores fl .packed t v pos), b.size⟩
      else .fail := by
  have hobjects (hv : Lists .objects t v) :
      rvJsonValuesToBinaryRecursive fl t v pos b =
        if supported t = true then .ok ⟨b.bytes.writeAll (stores fl .packed t v pos), b.size⟩
        else .fail := by
    cases hsupported : supported t with
    | true => exact rvJsonValuesToBinaryRecursive_eq t v pos b hsupported hvalid hv hfits
    | false => exact rvJsonValuesToBinaryRecursive_eq_fail t v pos b hsupported hvalid hv hfits
  cases listing with
  | objects => exact hobjects hv
  | arrays =>
      have hnone : hasMembers t = false := hlisting.resolve_left (by decide)
      cases t with
      | integer | float | string | enum | array | reference | other => exact hobjects hv
      | compound size members =>
          cases members with
          | cons _ _ => cases hnone
          | nil =>
              have hne : size ≠ 0 := Nat.pos_iff_ne_zero.mp hvalid.1
              rw [rvJsonValuesToBinaryRecursive, if_neg hne]
              rfl

/-! ## All elements -/

/-- The numbers of the values from the `i`-th one on. -/
def allStores (fl : Floats δ) (t : Datatype) : List (Tree δ) → Nat → List (Nat × List UInt8)
  | [], _ => []
  | v :: values, i => stores fl .packed t v (i * t.size) ++ allStores fl t values (i + 1)

theorem convertValues_eq (hlisting : listing = .objects ∨ hasMembers t = false)
    (hsupported : supported t = true) (hvalid : Valid t) (hvalues : ∀ v ∈ values, Lists listing t v)
    (hfits : (i + values.length) * t.size ≤ b.size) :
    convertValues fl t values i b = .ok ⟨b.bytes.writeAll (allStores fl t values i), b.size⟩ := by
  induction values generalizing i b with
  | nil => rfl
  | cons v values ih =>
      obtain ⟨hv, hmore⟩ := List.forall_mem_cons.mp hvalues
      rw [List.length_cons, Nat.add_comm values.length, ← Nat.add_assoc] at hfits
      have hfirst : i * t.size + t.size ≤ b.size := by
        rw [← Nat.succ_mul]
        exact (Nat.mul_le_mul_right _ (Nat.le_add_right _ _)).trans hfits
      rw [convertValues, rvJsonValuesToBinaryRecursive_of_lists hlisting hvalid hv hfirst,
        if_pos hsupported, Outcome.ok_bind, allStores, Memory.writeAll_append]
      exact ih hmore hfits

theorem convertValues_eq_fail (hlisting : listing = .objects ∨ hasMembers t = false)
    (hsupported : supported t = false) (hvalid : Valid t) (hv : Lists listing t v)
    (hfits : i * t.size + t.size ≤ b.size) : convertValues fl t (v :: values) i b = .fail := by
  rw [convertValues, rvJsonValuesToBinaryRecursive_of_lists hlisting hvalid hv hfits, hsupported]
  rfl

theorem stacked_allStores (hsupported : supported t = true) (hvalid : Valid t)
    (hvalues : ∀ v ∈ values, Lists listing t v) :
    Stacked (i * t.size) (allStores fl t values i) ((i + values.length) * t.size) := by
  induction values generalizing i with
  | nil => exact Nat.le_refl _
  | cons v values ih =>
      obtain ⟨hv, hmore⟩ := List.forall_mem_cons.mp hvalues
      have hfirst := stacked_stores fl t v (i * t.size) hsupported hvalid hv
      rw [← Nat.succ_mul] at hfirst
      rw [List.length_cons, Nat.add_comm values.length, ← Nat.add_assoc]
      exact hfirst.append (ih hmore)

theorem mem_allStores {k : Nat} {store : Nat × List UInt8} (hv : values[k]? = some v)
    (hstore : store ∈ stores fl .packed t v ((i + k) * t.size)) :
    store ∈ allStores fl t values i := by
  induction values generalizing i k with
  | nil => cases hv
  | cons first values ih =>
      cases k with
      | zero =>
          obtain rfl : first = v := Option.some.inj hv
          exact List.mem_append_left _ hstore
      | succ k =>
          refine List.mem_append_right _ (ih hv ?_)
          rwa [Nat.add_assoc, Nat.add_comm 1 k]

/-- All values together, in fresh memory. -/
theorem rvJsonValuesToBinary_eq (hlisting : listing = .objects ∨ hasMembers t = false)
    (hsupported : supported t = true) (hvalid : Valid t)
    (hvalues : ∀ v ∈ values, Lists listing t v) :
    rvJsonValuesToBinary fl t values =
      .ok ⟨Memory.writeAll (fun _ => 0) (allStores fl t values 0), values.length * t.size⟩ := by
  rw [rvJsonValuesToBinary, if_neg (Nat.pos_iff_ne_zero.mp hvalid.size_pos)]
  refine convertValues_eq hlisting hsupported hvalid hvalues (Nat.le_of_eq ?_)
  rw [Nat.zero_add]

theorem stores_eq (h : positions .declared t 0 = positions .packed t 0) (v : Tree δ) (pos : Nat) :
    stores fl .declared t v pos = stores fl .packed t v pos := by
  rw [stores, stores, ← Nat.add_zero pos, positions_add pos t 0, positions_add pos t 0, h]

/-- Where the sizes add up to the offsets, the values are laid out as the datatype says. -/
theorem laidOut_of_positions (hvalid : Valid t)
    (hlisting : listing = .objects ∨ hasMembers t = false)
    (hpositions : supported t = true → positions .declared t 0 = positions .packed t 0) :
    LaidOut fl listing t := by
  intro values hvalues
  cases hsupported : supported t with
  | true =>
      refine ⟨_, rvJsonValuesToBinary_eq hlisting hsupported hvalid hvalues, rfl, ?_⟩
      intro i v hv store hstore
      rw [stores_eq (hpositions hsupported), ← Nat.zero_add i] at hstore
      have hstacked := @stacked_allStores _ fl _ _ _ 0 hsupported hvalid hvalues
      exact Memory.read_writeAll hstacked.pairwise (mem_allStores hv hstore)
  | false =>
      intro hne
      cases values with
      | nil => exact absurd rfl hne
      | cons v values =>
          rw [rvJsonValuesToBinary, if_neg (Nat.pos_iff_ne_zero.mp hvalid.size_pos)]
          refine convertValues_eq_fail hlisting hsupported hvalid (hvalues v List.mem_cons_self) ?_
          rw [Nat.zero_mul, Nat.zero_add]
          exact Nat.le_mul_of_pos_left _ (Nat.succ_pos _)

/-! ## Values to look at -/

/-- The bytes are all zero, or all of them are not. -/
def Marked (flag : Bool) (bytes : List UInt8) : Prop :=
  0 < bytes.length ∧ ∀ byte ∈ bytes, byte ≠ 0 ↔ flag = true

/-- The double whose bytes are all zero, and one that has no such byte, as a `float` and as a
`double`. -/
structure Floats.Marks (fl : Floats δ) (zero full : δ) : Prop where
  float_zero : ∀ byte ∈ fl.float zero, byte = 0
  double_zero : ∀ byte ∈ fl.double zero, byte = 0
  float_full : ∀ byte ∈ fl.float full, byte ≠ 0
  double_full : ∀ byte ∈ fl.double full, byte ≠ 0

/-- Values for the members can be given as an object or as an array. -/
theorem Listing.exists_consists (listing : Listing) {names : List Text}
    (hlen : names.length = values.length) : ∃ v, listing.Consists names v values := by
  cases listing with
  | arrays => exact ⟨.array values, rfl⟩
  | objects =>
      exact ⟨.object (names.zip values), _, rfl, List.map_fst_zip (Nat.le_of_eq hlen),
        List.map_snd_zip (Nat.le_of_eq hlen.symm)⟩

theorem length_of_listsMembers (h : ListsMembers listing members values) :
    members.length = values.length := by
  induction members generalizing values with
  | nil =>
      obtain rfl : values = [] := h
      rfl
  | cons member members ih =>
      obtain ⟨v, more, rfl, -, hmore⟩ := h
      exact congrArg Nat.succ (ih hmore)

theorem marked_integer (flag : Bool) :
    Marked flag (intBytes (if flag = true then 0x01010101 else 0)) := by
  cases flag with
  | true =>
      have hbytes : intBytes 0x01010101 = [1, 1, 1, 1] := by decide
      exact ⟨by simp [hbytes], by simp [hbytes]⟩
  | false =>
      have hbytes : intBytes 0 = [0, 0, 0, 0] := by decide
      exact ⟨by simp [hbytes], by simp [hbytes]⟩

theorem marked_float {zero full : δ} (h : fl.Marks zero full) {size : Nat}
    (hsize : size = 4 ∨ size = 8) (flag : Bool) :
    Marked flag (let d := if flag = true then full else zero
      if size = 4 then fl.float d else fl.double d) := by
  rcases hsize with rfl | rfl
  · cases flag with
    | true => exact ⟨by simp [fl.length_float], fun byte hb => by simpa using h.float_full byte hb⟩
    | false => exact ⟨by simp [fl.length_float], fun byte hb => by simpa using h.float_zero byte hb⟩
  · cases flag with
    | true =>
        exact ⟨by simp [fl.length_double], fun byte hb => by simpa using h.double_full byte hb⟩
    | false =>
        exact ⟨by simp [fl.length_double], fun byte hb => by simpa using h.double_zero byte hb⟩

mutual

/-- A value whose numbers are zero or not as one likes. -/
theorem exists_sample {zero full : δ} (h : fl.Marks zero full) (listing : Listing) :
    ∀ (t : Datatype) (f : Nat → Bool), ∃ v, Lists listing t v ∧ (supported t = true →
      ∀ k, ∀ bytes ∈ (encodings fl t v)[k]?, Marked (f k) bytes)
  | .integer base, f => by
      refine ⟨.number (some (if f 0 = true then 0x01010101 else 0)) none,
        ⟨_, _, rfl, by split <;> decide⟩, fun hsupported k bytes hbytes => ?_⟩
      obtain rfl : base = nativeInt := of_decide_eq_true hsupported
      cases k with
      | zero =>
          obtain rfl := Option.some.inj hbytes
          exact marked_integer (f 0)
      | succ k => cases hbytes
  | .float size order, f => by
      refine ⟨.number none (some (if f 0 = true then full else zero)), ⟨_, _, rfl⟩,
        fun hsupported k bytes hbytes => ?_⟩
      cases k with
      | zero =>
          obtain rfl := Option.some.inj hbytes
          exact marked_float h (of_decide_eq_true hsupported).2 (f 0)
      | succ k => cases hbytes
  | .compound size members, f => by
      obtain ⟨values, hvalues, hmarked⟩ := exists_memberSample h listing members f
      have hlen : (members.map Prod.fst).length = values.length := by
        rw [List.length_map, length_of_listsMembers hvalues]
      obtain ⟨v, hv⟩ := listing.exists_consists hlen
      refine ⟨v, ⟨values, hv, hvalues⟩, ?_⟩
      rw [encodings, hv.parts_eq]
      exact hmarked
  | .string _ _ _, _ | .enum _ _, _ | .array _ _, _ | .reference _, _ | .other _, _ =>
      ⟨.other, trivial, fun hsupported => by cases hsupported⟩

theorem exists_memberSample {zero full : δ} (h : fl.Marks zero full) (listing : Listing) :
    ∀ (members : List (Text × Nat × Datatype)) (f : Nat → Bool), ∃ values,
      ListsMembers listing members values ∧ (supportedMembers members = true →
        ∀ k, ∀ bytes ∈ (memberEncodings fl members values)[k]?, Marked (f k) bytes)
  | [], _ => ⟨[], rfl, fun _ _ _ hbytes => by cases hbytes⟩
  | (_, _, t) :: members, f => by
      obtain ⟨v, hv, hfirst⟩ := exists_sample h listing t f
      obtain ⟨more, hmore, hrest⟩ := exists_memberSample h listing members
        fun k => f ((encodings fl t v).length + k)
      refine ⟨v :: more, ⟨v, more, rfl, hv, hmore⟩, fun hsupported k bytes hbytes => ?_⟩
      obtain ⟨ht, hmembers⟩ := Bool.and_eq_true_iff.mp hsupported
      rw [memberEncodings] at hbytes
      rcases Nat.lt_or_ge k (encodings fl t v).length with hlt | hge
      · rw [List.getElem?_append_left hlt] at hbytes
        exact hfirst ht k bytes hbytes
      · obtain ⟨j, rfl⟩ := Nat.exists_eq_add_of_le hge
        rw [List.getElem?_append_right hge, Nat.add_sub_cancel_left] at hbytes
        exact hrest hmembers j bytes hbytes

end

/-! ## Where the values are found -/

theorem mem_stores {k : Nat} {place : Nat} {bytes : List UInt8}
    (hplace : (positions layout t pos)[k]? = some place)
    (hbytes : (encodings fl t v)[k]? = some bytes) : (place, bytes) ∈ stores fl layout t v pos :=
  List.mem_of_getElem? (List.getElem?_zip_eq_some.mpr ⟨hplace, hbytes⟩)

theorem length_positions_eq (fl : Floats δ) (hv : Lists listing t v) :
    (positions .declared t pos).length = (positions .packed t pos).length := by
  rw [length_encodings fl t v pos hv, length_encodings fl t v pos hv]

/-- If only one number is not zero, a byte that is not zero is one of its bytes. -/
theorem place_of_ne_zero {k address : Nat}
    (hmarked : ∀ m, ∀ bytes ∈ (encodings fl t v)[m]?, Marked (m == k) bytes)
    (hne : Memory.writeAll (fun _ => 0) (stores fl .packed t v 0) address ≠ 0) :
    ∃ place ∈ (positions .packed t 0)[k]?, ∃ bytes ∈ (encodings fl t v)[k]?,
      place ≤ address ∧ address < place + bytes.length := by
  obtain ⟨⟨place, bytes⟩, hmem, j, hj, rfl, hbyte⟩ := Memory.exists_store_of_ne hne
  obtain ⟨m, hm⟩ := List.mem_iff_getElem?.mp hmem
  obtain ⟨hplace, hbytes⟩ := List.getElem?_zip_eq_some.mp hm
  rw [hbyte] at hne
  have hflag := ((hmarked m bytes hbytes).2 _ (List.getElem_mem hj)).mp hne
  obtain rfl : m = k := beq_iff_eq.mp hflag
  exact ⟨place, hplace, bytes, hbytes, Nat.le_add_right _ _, Nat.add_lt_add_left hj _⟩

/-- What is read back shows where it was stored. -/
theorem positions_eq_of_laidOut {zero full : δ} (h : fl.Marks zero full) (hvalid : Valid t)
    (hlisting : listing = .objects ∨ hasMembers t = false) (hsupported : supported t = true)
    (hlaid : LaidOut fl listing t) : positions .declared t 0 = positions .packed t 0 := by
  refine List.ext_getElem? fun k => ?_
  obtain ⟨v, hv, hmarked⟩ := exists_sample h listing t (· == k)
  have hmarked := hmarked hsupported
  have hvalues : ∀ v' ∈ [v], Lists listing t v' := List.forall_mem_singleton.mpr hv
  have hfound := hlaid [v] hvalues
  rw [if_pos hsupported, rvJsonValuesToBinary_eq hlisting hsupported hvalid hvalues] at hfound
  obtain ⟨_, hb, -, hread⟩ := hfound
  obtain rfl := Outcome.ok.inj hb
  have hread := hread 0 v rfl
  rw [Nat.zero_mul, allStores, allStores, List.append_nil, Nat.zero_mul] at hread
  cases hplace : (positions .declared t 0)[k]? with
  | none =>
      have hlen := List.getElem?_eq_none_iff.mp hplace
      rw [length_positions_eq fl hv] at hlen
      exact (List.getElem?_eq_none hlen).symm
  | some place =>
      obtain ⟨hk, -⟩ := List.getElem?_eq_some_iff.mp hplace
      rw [length_encodings fl t v 0 hv] at hk
      have hbytes := List.getElem?_eq_getElem hk
      obtain ⟨hpos, hfull⟩ := hmarked k _ hbytes
      have hstored := Memory.read_eq_iff.mp (hread _ (mem_stores hplace hbytes))
      -- each of its bytes is found at the packed place
      have hbyte (j : Nat) (hj : j < (encodings fl t v)[k].length) :
          ∃ packed ∈ (positions .packed t 0)[k]?,
            packed ≤ place + j ∧ place + j < packed + (encodings fl t v)[k].length := by
        have hne : Memory.writeAll (fun _ => 0) (stores fl .packed t v 0) (place + j) ≠ 0 := by
          have hentry := hstored j hj
          dsimp only at hentry
          rw [hentry]
          exact (hfull _ (List.getElem_mem hj)).mpr (beq_self_eq_true k)
        obtain ⟨packed, hpacked, bytes, hsame, hwhere⟩ := place_of_ne_zero hmarked hne
        obtain rfl : (encodings fl t v)[k] = bytes := Option.some.inj (hbytes.symm.trans hsame)
        exact ⟨packed, hpacked, hwhere⟩
      obtain ⟨packed, hpacked, hfirst, -⟩ := hbyte 0 hpos
      obtain ⟨packed', hpacked', -, hlast⟩ := hbyte ((encodings fl t v)[k].length - 1) (by omega)
      obtain rfl : packed = packed' := Option.some.inj (hpacked.symm.trans hpacked')
      obtain rfl : place = packed := by omega
      exact hpacked.symm

/-- The members of an array are looked for in an object. -/
theorem not_laidOut_arrays {zero full : δ} (h : fl.Marks zero full) (hvalid : Valid t)
    (hmembers : hasMembers t = true) : ¬ LaidOut fl .arrays t := by
  intro hlaid
  cases t with
  | integer | float | string | enum | array | reference | other => cases hmembers
  | compound size members =>
      cases members with
      | nil => cases hmembers
      | cons member members =>
          obtain ⟨v, hv, -⟩ := exists_sample h .arrays (.compound size (member :: members))
            fun _ => true
          obtain ⟨hsize, -, -, hvalid⟩ := hvalid
          have hundefined : rvJsonValuesToBinary fl (.compound size (member :: members)) [v] =
              .undefined := by
            have hv' := hv
            obtain ⟨values, hconsists, -⟩ := hv
            obtain rfl : v = .array values := hconsists
            have hne : size ≠ 0 := Nat.pos_iff_ne_zero.mp hsize
            rw [rvJsonValuesToBinary, Datatype.size, if_neg hne, convertValues,
              rvJsonValuesToBinaryRecursive, if_neg hne, convertMembers,
              if_neg (Nat.pos_iff_ne_zero.mp hvalid.1.size_pos)]
            rfl
          have hfound := hlaid [v] (List.forall_mem_singleton.mpr hv)
          rw [hundefined] at hfound
          split at hfound
          · obtain ⟨_, hb, -⟩ := hfound
            cases hb
          · cases hfound (List.cons_ne_nil _ _)

/-- Values come to their offsets just when the members of compounds are listed in objects and, if
the converter knows the datatype, the sizes before each number add up to where it lies. -/
theorem laidOut_iff {zero full : δ} (hmarks : fl.Marks zero full) (hvalid : Valid t) :
    LaidOut fl listing t ↔ (listing = .objects ∨ hasMembers t = false) ∧
      (supported t = true → positions .declared t 0 = positions .packed t 0) := by
  constructor
  · intro hlaid
    have hlisting : listing = .objects ∨ hasMembers t = false := by
      cases listing with
      | objects => exact .inl rfl
      | arrays =>
          cases hmembers : hasMembers t with
          | false => exact .inr rfl
          | true => exact absurd hlaid (not_laidOut_arrays hmarks hvalid hmembers)
    exact ⟨hlisting, fun hsupported =>
      positions_eq_of_laidOut hmarks hvalid hlisting hsupported hlaid⟩
  · rintro ⟨hlisting, hpositions⟩
    exact laidOut_of_positions hvalid hlisting hpositions

/-- `0.0` and `1.1`. -/
def twoDoubles : Floats Bool where
  float d := if d = true then [0xcd, 0xcc, 0x8c, 0x3f] else [0, 0, 0, 0]
  double d := if d = true then [0x9a, 0x99, 0x99, 0x99, 0x99, 0x99, 0xf1, 0x3f]
    else [0, 0, 0, 0, 0, 0, 0, 0]
  length_float := by decide
  length_double := by decide

theorem twoDoubles_marks : twoDoubles.Marks false true where
  float_zero := by simp [twoDoubles]
  double_zero := by simp [twoDoubles]
  float_full := by simp [twoDoubles]
  double_full := by simp [twoDoubles]

/-- `struct { int a; double b; }` without and with the padding before its second member. -/
def packedPair : Datatype :=
  .compound 12 [(['a'], 0, .integer nativeInt), (['b'], 4, .float 8 .little)]

@[inherit_doc packedPair]
def paddedPair : Datatype :=
  .compound 16 [(['a'], 0, .integer nativeInt), (['b'], 8, .float 8 .little)]

theorem valid_packedPair : Valid packedPair :=
  ⟨by decide, by simp [Datatype.size, nativeInt], by simp [Datatype.size, nativeInt],
    Nat.succ_pos 3, Nat.succ_pos 7, trivial⟩

theorem valid_paddedPair : Valid paddedPair :=
  ⟨by decide, by simp [Datatype.size, nativeInt], by simp [Datatype.size, nativeInt],
    Nat.succ_pos 3, Nat.succ_pos 7, trivial⟩

theorem laidOut_packedPair : LaidOut twoDoubles .objects packedPair :=
  (laidOut_iff twoDoubles_marks valid_packedPair).mpr ⟨.inl rfl, fun _ => by decide⟩

/-- The double of the padded pair is stored in the padding. -/
theorem not_laidOut_paddedPair : ¬ LaidOut twoDoubles .objects paddedPair := by
  intro hlaid
  have heq := positions_eq_of_laidOut twoDoubles_marks valid_paddedPair (.inl rfl) (by decide) hlaid
  exact absurd heq (by decide)

end XHDF5.Client.JsonValues
