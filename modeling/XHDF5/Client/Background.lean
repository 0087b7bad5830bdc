/-
# When a conversion needs its background

`RV_need_bkg` goes through the datatype of the destination to tell whether the background of a
conversion must be filled: it looks for a member that the source does not have and for bytes that no
member has. It asks for the background exactly when the converted element depends on it.

The conversion is the library's, as it is documented.
-/

import XHDF5.Client.ConvertedRead
import XHDF5.Math.Intervals

namespace XHDF5.Client.Background

open XHDF5.Math ConvertedWrite ConvertedRead

/-- The bytes that fields have. -/
def total (parts : List Field) : Nat := (parts.map Field.size).sum

/-- No field is left to the background. -/
def Sourced (parts : List Field) : Prop := ∀ field ∈ parts, field.source ≠ none

/-- The fields give every byte of an element. -/
def Full (size : Nat) (parts : List Field) : Prop := Sourced parts ∧ total parts = size

/-- The place of a field. -/
def place (field : Field) : Nat × Nat := (field.offset, field.size)

variable {lib : Library} {parts parts' : List Field}

theorem total_append : total (parts ++ parts') = total parts + total parts' := by
  rw [total, List.map_append, List.sum_append, ← total, ← total]

theorem total_shift (srcOffset offset : Nat) :
    total (parts.map (Field.shift srcOffset offset)) = total parts := by
  rw [total, List.map_map]
  rfl

theorem sourced_append : Sourced (parts ++ parts') ↔ Sourced parts ∧ Sourced parts' :=
  List.forall_mem_append

theorem sourced_shift (srcOffset offset : Nat) :
    Sourced (parts.map (Field.shift srcOffset offset)) ↔ Sourced parts := by
  rw [Sourced, List.forall_mem_map]
  refine forall₂_congr fun field _ => not_congr ?_
  exact Option.map_eq_none_iff

theorem total_le {size : Nat} (h : Placed 0 size parts) : total parts ≤ size := by
  have hsum := @Intervals.sum_le (parts.map place) size
    (List.pairwise_map.mpr h.apart) (List.forall_mem_map.mpr fun field hfield =>
      (h.inside field hfield).2)
  rwa [List.map_map] at hsum

/-- The elements of an array. -/
theorem full_array {size srcSize count : Nat} (hcount : 0 < count) :
    Full (count * size) ((List.range count).flatMap fun i =>
      parts.map (Field.shift (i * srcSize) (i * size))) ↔ Full size parts := by
  have htotal : total ((List.range count).flatMap fun i =>
      parts.map (Field.shift (i * srcSize) (i * size))) = count * total parts := by
    induction count with
    | zero => rw [Nat.zero_mul]; rfl
    | succ count ih =>
        rw [List.range_succ, List.flatMap_append, total_append, List.flatMap_singleton, total_shift]
        rcases Nat.eq_zero_or_pos count with rfl | hpos
        · rw [Nat.one_mul]; exact Nat.zero_add _
        · rw [ih hpos, Nat.succ_mul]
  have hsourced : Sourced ((List.range count).flatMap fun i =>
      parts.map (Field.shift (i * srcSize) (i * size))) ↔ Sourced parts := by
    constructor
    · intro h
      apply (sourced_shift (0 * srcSize) (0 * size)).mp
      intro field hfield
      exact h field (List.mem_flatMap.mpr ⟨0, List.mem_range.mpr hcount, hfield⟩)
    · intro h field hfield
      obtain ⟨i, -, hfield⟩ := List.mem_flatMap.mp hfield
      exact (sourced_shift (i * srcSize) (i * size)).mpr h field hfield
  rw [Full, Full, htotal, hsourced, Nat.mul_left_cancel_iff hcount]

theorem full_convert {src dst : Datatype}
    (h : (lib.convert src dst).map (fun f => [⟨0, dst.size, some ⟨0, src.size, f⟩⟩]) = some parts) :
    Full dst.size parts := by
  obtain ⟨f, -, rfl⟩ := Option.map_eq_some_iff.mp h
  refine ⟨?_, rfl⟩
  rintro field hfield
  rw [List.mem_singleton.mp hfield]
  exact Option.some_ne_none _

/-- The fields of members are no longer than the members. -/
theorem total_memberFields_le (srcMembers : List (Text × Nat × Datatype)) :
    ∀ (members : List (Text × Nat × Datatype)) (parts : List Field), MembersWellFormed members →
      MembersApart members → memberFields lib srcMembers members = some parts →
      total parts ≤ (members.map fun m => m.2.2.size).sum
  | [], parts, _, _, h => by
      obtain rfl := Option.some.inj h
      exact Nat.le_refl _
  | (name, offset, memb) :: members, parts, hwell, hapart, h => by
      rw [memberFields] at h
      rw [List.map_cons, List.sum_cons]
      split at h
      · obtain ⟨rest, hrest, rfl⟩ := Option.map_eq_some_iff.mp h
        exact Nat.add_le_add_left
          (total_memberFields_le srcMembers members rest hwell.2 hapart.2 hrest) memb.size
      · next srcOffset srcMemb _ =>
          obtain ⟨basic, hbasic, h⟩ := Option.bind_eq_some_iff.mp h
          obtain ⟨rest, hrest, rfl⟩ := Option.map_eq_some_iff.mp h
          rw [total_append, total_shift]
          exact Nat.add_le_add
            (total_le (placed_fields memb srcMemb basic hwell.1 hapart.1 hbasic))
            (total_memberFields_le srcMembers members rest hwell.2 hapart.2 hrest)

mutual

/-- Where there is a conversion, the background need not be filled exactly when the fields give
every byte. -/
theorem rvNeedBkg_full : ∀ (dst src : Datatype) (parts : List Field), WellFormed dst →
    ConvertedRead.Apart dst → fields lib dst src = some parts →
    ∃ fill, rvNeedBkg src false dst = .ok (needsBackground dst, fill) ∧
      (fill = false ↔ Full dst.size parts)
  | .compound size members, src, parts, hwell, hapart, h => by
      rw [WellFormed] at hwell
      rw [ConvertedRead.Apart] at hapart
      cases src with
      | compound srcSize srcMembers =>
          obtain ⟨fill, hfill, hiff⟩ := needBkgOfMembers_full srcSize srcMembers members size 0 parts
            (by rw [Nat.zero_add]; exact hwell.2.1) hwell.2.2 hapart.2.2 h
          rw [Nat.zero_add] at hiff
          refine ⟨fill, ?_, hiff⟩
          rw [rvNeedBkg, if_neg hwell.1.ne', hfill]
          rfl
      | integer | float | string | enum | array | reference | other => cases h
  | .array base dims, src, parts, hwell, hapart, h => by
      rw [WellFormed] at hwell
      rw [ConvertedRead.Apart] at hapart
      cases src with
      | array srcBase srcDims =>
          rw [fields] at h
          split at h
          · obtain ⟨basic, hbasic, rfl⟩ := Option.map_eq_some_iff.mp h
            obtain ⟨fill, hfill, hiff⟩ := rvNeedBkg_full base srcBase basic hwell.2 hapart hbasic
            refine ⟨fill, ?_, hiff.trans (full_array (Nat.pos_of_mul_pos_right hwell.1)).symm⟩
            rw [rvNeedBkg, if_neg hwell.1.ne']
            exact hfill
          · cases h
      | integer | float | string | enum | compound | reference | other => cases h
  | .integer _, _, _, hwell, _, h | .float _ _, _, _, hwell, _, h | .string _ _ _, _, _, hwell, _, h
  | .enum _ _, _, _, hwell, _, h | .reference _, _, _, hwell, _, h | .other _, _, _, hwell, _, h =>
      ⟨false, if_neg (Nat.ne_of_gt hwell), iff_of_true rfl (full_convert h)⟩

/-- The loop over the members, with the bytes of those before. -/
theorem needBkgOfMembers_full (srcSize : Nat) (srcMembers : List (Text × Nat × Datatype)) :
    ∀ (members : List (Text × Nat × Datatype)) (dstSize sizeUsed : Nat) (parts : List Field),
      sizeUsed + (members.map fun m => m.2.2.size).sum ≤ dstSize → MembersWellFormed members →
      MembersApart members → memberFields lib srcMembers members = some parts →
      ∃ fill, needBkgOfMembers (.compound srcSize srcMembers) dstSize sizeUsed false members =
          .ok fill ∧ (fill = false ↔ Sourced parts ∧ sizeUsed + total parts = dstSize)
  | [], dstSize, sizeUsed, parts, hsize, _, _, h => by
      obtain rfl := Option.some.inj h
      refine ⟨_, if_neg (by simpa using hsize), ?_⟩
      simp [Sourced, total]
  | (name, offset, memb) :: members, dstSize, sizeUsed, parts, hsize, hwell, hapart, h => by
      rw [MembersWellFormed] at hwell
      rw [List.map_cons, List.sum_cons] at hsize
      dsimp only at hsize
      rw [memberFields] at h
      rw [needBkgOfMembers, memberType]
      split at h
      · next hfind =>
          obtain ⟨rest, hrest, rfl⟩ := Option.map_eq_some_iff.mp h
          rw [hfind]
          refine ⟨true, rfl, iff_of_false Bool.noConfusion fun hfull => ?_⟩
          exact hfull.1 _ List.mem_cons_self rfl
      · next srcName srcOffset srcMemb hfind =>
          obtain ⟨basic, hbasic, h⟩ := Option.bind_eq_some_iff.mp h
          obtain ⟨rest, hrest, rfl⟩ := Option.map_eq_some_iff.mp h
          obtain ⟨fill, hfill, hiff⟩ :=
            rvNeedBkg_full memb srcMemb basic hwell.1 hapart.1 hbasic
          have hle := total_le (placed_fields memb srcMemb basic hwell.1 hapart.1 hbasic)
          have hrestLe := total_memberFields_le srcMembers members rest hwell.2 hapart.2 hrest
          rw [hfind, sourced_append, sourced_shift, total_append, total_shift]
          simp only [Option.map_some, hfill, Outcome.ok_bind]
          cases fill with
          | true =>
              refine ⟨true, rfl, iff_of_false Bool.noConfusion fun hfull => ?_⟩
              -- the member has a gap, which the others cannot make up for
              have hgap : total basic ≠ memb.size :=
                fun heq => Bool.noConfusion (hiff.mpr ⟨hfull.1.1, heq⟩)
              omega
          | false =>
              have hbasicFull := hiff.mp rfl
              obtain ⟨fill, hfill, hiff⟩ := needBkgOfMembers_full srcSize srcMembers members dstSize
                (sizeUsed + memb.size) rest (by omega) hwell.2 hapart.2 hrest
              refine ⟨fill, hfill, hiff.trans ?_⟩
              rw [hbasicFull.2, Nat.add_assoc]
              exact ⟨fun hfull => ⟨⟨hbasicFull.1, hfull.1⟩, hfull.2⟩,
                fun hfull => ⟨hfull.1.2, hfull.2⟩⟩

end

/-! ## What the flag says -/

/-- A field with a source has a byte of the element. -/
def Given (parts : List Field) (address : Nat) : Prop :=
  ∃ field ∈ parts, field.source ≠ none ∧ field.offset ≤ address ∧
    address < field.offset + field.size

/-- Fields that do not overlap give every byte when none is left to the background and they are as
long as the element. -/
theorem full_iff {size : Nat} (h : Placed 0 size parts) :
    Full size parts ↔ ∀ address < size, Given parts address := by
  have hcover (chosen : List Field) (hsub : List.Sublist chosen parts) :
      Intervals.Cover size (chosen.map place) ↔ total chosen = size := by
    have hpairwise : (chosen.map place).Pairwise Intervals.Disjoint :=
      List.pairwise_map.mpr (h.apart.sublist hsub)
    have hinside : ∀ interval ∈ chosen.map place, interval.1 + interval.2 ≤ size :=
      List.forall_mem_map.mpr fun field hfield => (h.inside field (hsub.subset hfield)).2
    rw [Intervals.cover_iff hpairwise hinside, List.map_map]
    rfl
  constructor
  · rintro ⟨hsourced, htotal⟩ address haddress
    obtain ⟨interval, hinterval, hle, hlt⟩ := (hcover parts (.refl _)).mpr htotal address haddress
    obtain ⟨field, hfield, rfl⟩ := List.mem_map.mp hinterval
    exact ⟨field, hfield, hsourced field hfield, hle, hlt⟩
  · intro hgiven
    have hsub : List.Sublist (parts.filter fun field => field.source.isSome) parts :=
      List.filter_sublist
    have htotal : total (parts.filter fun field => field.source.isSome) = size := by
      apply (hcover _ hsub).mp
      intro address haddress
      obtain ⟨field, hfield, hsource, hle, hlt⟩ := hgiven address haddress
      exact ⟨place field, List.mem_map_of_mem (List.mem_filter.mpr
        ⟨hfield, Option.isSome_iff_ne_none.mpr hsource⟩), hle, hlt⟩
    have hall : ∀ field ∈ parts, field.source ≠ none := by
      intro field hfield hnone
      -- a byte of the field would be in a second one
      have hpos := h.size_pos field hfield
      have hbyte := (h.inside field hfield).2
      obtain ⟨other, hother, hsource, hle, hlt⟩ := hgiven field.offset (by omega)
      have hne : field ≠ other := fun heq => hsource (heq ▸ hnone)
      have hsymm : Std.Symm fun first second : Field =>
          first.offset + first.size ≤ second.offset ∨ second.offset + second.size ≤ first.offset :=
        ⟨fun _ _ => Or.symm⟩
      rcases h.apart.forall hfield hother hne with hbefore | hbefore <;> omega
    rw [List.filter_eq_self.mpr fun field hfield =>
      Option.isSome_iff_ne_none.mpr (hall field hfield)] at htotal
    exact ⟨hall, htotal⟩

section Bytes

variable {dst : Datatype} {element : List UInt8} {background background' : Memory UInt8}

/-- The memory behind a converted element. -/
def written (parts : List Field) (element : List UInt8) (background : Memory UInt8) :
    Memory UInt8 :=
  background.writeAll (parts.map fun field => (field.offset, field.value element background))

/-- A byte of a field with a source has no background. -/
theorem written_of_given {size address : Nat} (h : Placed 0 size parts)
    (hgiven : Given parts address) :
    written parts element background address = written parts element background' address := by
  obtain ⟨field, hfield, hsource, hle, hlt⟩ := hgiven
  have hread (background : Memory UInt8) :
      (written parts element background).read field.offset field.size =
        field.value element background := by
    have hapart : (parts.map fun field => (field.offset, field.value element background)).Pairwise
        Memory.Apart := by
      refine List.pairwise_map.mpr (h.apart.imp_of_mem fun hfirst hsecond hapart => ?_)
      rw [Memory.Apart, length_value h hfirst, length_value h hsecond]
      exact hapart
    have hread := @Memory.read_writeAll _ background _ hapart _
      (List.mem_map.mpr ⟨field, hfield, rfl⟩)
    rwa [length_value h hfield] at hread
  have hvalue : field.value element background = field.value element background' := by
    rw [Field.value, Field.value]
    cases hcase : field.source with
    | none => exact absurd hcase hsource
    | some source => rfl
  have hsame := (hread background).trans (hvalue.trans (hread background').symm)
  obtain ⟨k, rfl⟩ := Nat.exists_eq_add_of_le hle
  have hentry := congrArg (fun bytes => bytes[k]?) hsame
  have hk : k < field.size := Nat.lt_of_add_lt_add_left hlt
  simpa [Memory.read, hk] using hentry

/-- Any other byte is that of the background. -/
theorem written_of_not_given {size address : Nat} (h : Placed 0 size parts)
    (hnot : ¬ Given parts address) : written parts element background address =
      background address := by
  by_contra hne
  obtain ⟨store, hstore, k, hk, rfl, hbyte⟩ := Memory.exists_store_of_ne hne
  obtain ⟨field, hfield, rfl⟩ := List.mem_map.mp hstore
  have hlength := length_value h hfield element background
  cases hsource : field.source with
  | some source =>
      apply hnot
      refine ⟨field, hfield, ?_, Nat.le_add_right _ _, ?_⟩
      · rw [hsource]
        exact Option.some_ne_none _
      · exact Nat.add_lt_add_left (hlength ▸ hk) _
  | none =>
      apply hne
      rw [written, hbyte]
      simp [Field.value, hsource, Memory.read]

end Bytes

/-- Where there is a conversion, `RV_need_bkg` finds it, and it leaves `fill_bkg` unset exactly when
no converted element depends on the background. -/
theorem fillBkg_iff {dst src : Datatype} (hwell : WellFormed dst) (hapart : ConvertedRead.Apart dst)
    (hfields : fields lib dst src = some parts) :
    ∃ fill, rvNeedBkg src false dst = .ok (needsBackground dst, fill) ∧
      (fill = false ↔ ∀ element background background',
        convertElement parts dst.size element background =
          convertElement parts dst.size element background') := by
  obtain ⟨fill, hfill, hfull⟩ := rvNeedBkg_full dst src parts hwell hapart hfields
  have hplaced := placed_fields dst src parts hwell hapart hfields
  refine ⟨fill, hfill, hfull.trans ((full_iff hplaced).trans ⟨?_, ?_⟩)⟩
  · intro hgiven element background background'
    rw [convertElement, convertElement, ← written, ← written]
    refine List.map_congr_left fun address haddress => ?_
    have hlt := (List.mem_range'_1.mp haddress).2
    rw [Nat.zero_add] at hlt
    exact written_of_given hplaced (hgiven address hlt)
  · intro hsame address haddress
    by_contra hnot
    have hbytes := hsame [] (fun _ => 0) fun _ => 1
    rw [convertElement, convertElement, ← written, ← written] at hbytes
    have hentry := congrArg (fun bytes => bytes[address]?) hbytes
    simp [Memory.read, haddress, written_of_not_given hplaced hnot] at hentry

theorem fillBkg_iff_addedMember : ∃ parts fill,
    fields sameLibrary addedMember.mem addedMember.file = some parts ∧
      rvNeedBkg addedMember.file false addedMember.mem = .ok (true, fill) ∧
      (fill = false ↔ ∀ element background background',
        convertElement parts addedMember.mem.size element background =
          convertElement parts addedMember.mem.size element background') := by
  obtain ⟨fill, hfill, hiff⟩ := @fillBkg_iff sameLibrary _ addedMember.mem addedMember.file
    addedMember.wellFormed addedMember.apart rfl
  exact ⟨_, fill, rfl, hfill, hiff⟩

end XHDF5.Client.Background
