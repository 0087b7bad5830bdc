/-
# Reads with a conversion

`rv_dataset_read_cb` converts the elements that the server sent from the datatype of the file to
the one in memory. `RV_tconv_init` tells whether that is done in the response buffer or in a new
one, and whether the response buffer is the background. The response buffer was allocated for
elements of the datatype in memory. The flag that says that the background must be filled is read
by nobody, and the converted elements are scattered as a whole.

`H5Tconvert` and `H5Dscatter` are the library's, as they are documented: members are converted by
name, a member that the source does not have is taken from the background, and what is behind the
converted elements is left open. How numbers and strings are converted is a parameter. Allocations
succeed, a null pointer is a buffer with no room, and a reply in JSON has been turned into packed
elements.
-/

import XHDF5.Client.ConvertedWrite
import XHDF5.Math.Stores

namespace XHDF5.Client.ConvertedRead

open XHDF5.Math ConvertedWrite

/-! ## The library -/

/-- The conversions between datatypes that have no parts, where there are any. -/
structure Library where
  convert : Datatype → Datatype → Option (List UInt8 → List UInt8)
  length_convert : ∀ src dst f, convert src dst = some f → ∀ bytes, (f bytes).length = dst.size

/-- Where the value of a field comes from: the bytes of the element and their conversion. -/
structure FieldSource where
  offset : Nat
  size : Nat
  convert : List UInt8 → List UInt8

/-- A field of the destination. A member that the source does not have is one field. -/
structure Field where
  offset : Nat
  size : Nat
  source : Option FieldSource

/-- The field in a part of the element. -/
def Field.shift (srcOffset offset : Nat) (field : Field) : Field :=
  ⟨offset + field.offset, field.size,
    field.source.map fun source => ⟨srcOffset + source.offset, source.size, source.convert⟩⟩

variable (lib : Library)

mutual

/-- The fields of a destination for a source, if there is a conversion. -/
def fields : Datatype → Datatype → Option (List Field)
  | .compound _ members, src =>
      match src with
      | .compound _ srcMembers => memberFields srcMembers members
      | _ => none
  | .array base dims, src =>
      match src with
      | .array srcBase srcDims =>
          if srcDims = dims then
            (fields base srcBase).map fun fields => (List.range dims.prod).flatMap fun i =>
              fields.map (Field.shift (i * srcBase.size) (i * base.size))
          else none
      | _ => none
  | dst, src => (lib.convert src dst).map fun f => [⟨0, dst.size, some ⟨0, src.size, f⟩⟩]

/-- The fields of some members. -/
def memberFields (srcMembers : List (Text × Nat × Datatype)) :
    List (Text × Nat × Datatype) → Option (List Field)
  | [] => some []
  | (name, offset, memb) :: members =>
      match srcMembers.find? fun m => m.1 = name with
      | none => (memberFields srcMembers members).map (⟨offset, memb.size, none⟩ :: ·)
      | some (_, srcOffset, srcMemb) =>
          (fields memb srcMemb).bind fun first =>
            (memberFields srcMembers members).map (first.map (Field.shift srcOffset offset) ++ ·)

end

/-- The value of a field, with the background of the element. -/
def Field.value (field : Field) (element : List UInt8) (background : Memory UInt8) : List UInt8 :=
  match field.source with
  | some source => source.convert ((element.drop source.offset).take source.size)
  | none => background.read field.offset field.size

/-- An element after its conversion. -/
def convertElement (fields : List Field) (dstSize : Nat) (element : List UInt8)
    (background : Memory UInt8) : List UInt8 :=
  (background.writeAll (fields.map fun field =>
    (field.offset, field.value element background))).read 0 dstSize

/-- The memory with all elements converted. -/
def converted (behind : Memory UInt8) (fields : List Field) (src dst : Datatype) (nelmts : Nat)
    (elements background : Memory UInt8) : Memory UInt8 :=
  behind.write 0 ((List.range nelmts).map fun k => convertElement fields dst.size
    (elements.read (k * src.size) src.size)
    fun address => background (k * dst.size + address)).flatten

/-- `H5Tconvert` of packed elements at the start of a buffer. -/
def h5Tconvert (behind : Memory UInt8) (src dst : Datatype) (nelmts : Nat)
    (buffer background : Buffer UInt8) : Outcome (Buffer UInt8) :=
  match fields lib dst src with
  | none => .fail
  | some fields =>
      if buffer.Within 0 (nelmts * max src.size dst.size) ∧
          (needsBackground dst = true → background.Within 0 (nelmts * dst.size)) then
        .ok ⟨converted behind fields src dst nelmts buffer.bytes background.bytes, buffer.size⟩
      else .undefined

/-- The memory with packed elements at some positions. -/
def scattered (size : Nat) (positions : List Nat) (elements buf : Memory UInt8) : Memory UInt8 :=
  buf.writeAll (positions.zipIdx.map fun entry =>
    (entry.1 * size, elements.read (entry.2 * size) size))

/-- `H5Dscatter` of the packed elements of a buffer to some positions of the memory. -/
def h5Dscatter (size : Nat) (positions : List Nat) (source : Buffer UInt8) (buf : Memory UInt8) :
    Outcome (Memory UInt8) :=
  (source.load 0 (positions.length * size)).bind fun _ =>
    .ok (scattered size positions source.bytes buf)

/-! ## The code -/

/-- `RV_tconv_reuse_t`. -/
inductive Reuse
  | none
  | tconv
  | bkg
deriving DecidableEq

/-- A null pointer. -/
def null : Buffer UInt8 := ⟨fun _ => 0, 0⟩

/-- What `RV_tconv_init` sets. -/
structure TconvBuffers where
  tconvBuf : Buffer UInt8
  bkgBuf : Buffer UInt8
  reuse : Reuse

/-- `RV_tconv_init` for a destination in memory, with a buffer to reuse. -/
def rvTconvInit (src dst : Datatype) (numElem : Nat) : Outcome TconvBuffers :=
  if numElem = 0 then .ok ⟨null, null, .none⟩
  else if src.size = 0 then .fail
  else
    (rvNeedBkg src false dst).bind fun (needBkg, _) =>
      let reuse := if src.size ≤ dst.size then Reuse.tconv else if needBkg then .bkg else .none
      .ok ⟨if reuse = .tconv then null else ⟨fun _ => 0, numElem * max src.size dst.size⟩,
        if needBkg = true ∧ reuse ≠ .bkg then ⟨fun _ => 0, numElem * dst.size⟩ else null, reuse⟩

/-- What the callback goes on with: the result of `RV_tconv_init` is not looked at. -/
def tconvBuffers (src dst : Datatype) (numElem : Nat) : Outcome TconvBuffers :=
  match rvTconvInit src dst numElem with
  | .fail => .ok ⟨null, null, .none⟩
  | result => result

/-- The conversion of the response: `resp_info.buffer` behind it. -/
def convertResponse (behind : Memory UInt8) (src dst : Datatype) (npoints : Nat)
    (response : Buffer UInt8) : Outcome (Buffer UInt8) :=
  (tconvBuffers src dst npoints).bind fun buffers =>
    match buffers.reuse with
    | .tconv => h5Tconvert lib behind src dst npoints response buffers.bkgBuf
    | .bkg =>
        (response.load 0 (npoints * src.size)).bind fun elements =>
          (buffers.tconvBuf.store 0 elements).bind fun tconvBuf =>
            h5Tconvert lib behind src dst npoints tconvBuf response
    | .none =>
        (response.load 0 (npoints * src.size)).bind fun elements =>
          (buffers.tconvBuf.store 0 elements).bind fun tconvBuf =>
            h5Tconvert lib behind src dst npoints tconvBuf buffers.bkgBuf

/-- What the elements are converted from: the response, whose buffer has room for some number of
points with the size of the datatype in memory, or the packed elements of a JSON reply. -/
inductive Reply
  | binary (nodePoints : Nat)
  | json

mutual

/-- The members of a compound lie in it and do not overlap. -/
def Apart : Datatype → Prop
  | .compound size members =>
      (∀ m ∈ members, m.2.1 + m.2.2.size ≤ size) ∧
        members.Pairwise (fun m m' =>
          m.2.1 + m.2.2.size ≤ m'.2.1 ∨ m'.2.1 + m'.2.2.size ≤ m.2.1) ∧ MembersApart members
  | .array base _ => Apart base
  | _ => True

/-- The members of a compound. -/
def MembersApart : List (Text × Nat × Datatype) → Prop
  | [] => True
  | (_, _, memb) :: members => Apart memb ∧ MembersApart members

end

/-- A read: `isVlen` tells variable-length datatypes from the others that the model does not tell
apart. Elements of equal datatypes may need no conversion. Object references have a path of their
own. -/
structure TypedRead where
  file : Datatype
  mem : Datatype
  isVlen : Bool
  needsTconv : Bool
  reply : Reply
  positions : List Nat
  same : needsTconv = false → file = mem
  nodup : positions.Nodup
  mem_ne : mem ≠ .reference .object
  file_size : 0 < file.size
  wellFormed : WellFormed mem
  apart : Apart mem

namespace TypedRead

variable (r : TypedRead)

/-- The number of selected elements. -/
def npoints : Nat := r.positions.length

/-- The size of the buffer that the elements are in. -/
def room : Nat :=
  match r.reply with
  | .binary nodePoints => nodePoints * r.mem.size
  | .json => r.npoints * r.file.size

/-- The class of the datatype in memory is neither reference nor variable-length. -/
def fixedLength : Bool :=
  match r.mem with
  | .reference _ => false
  | .string none _ _ => false
  | .other _ => !r.isVlen
  | _ => true

/-- `rv_dataset_read_cb`: the memory behind it. -/
def rvDatasetReadCb (response behind buf : Memory UInt8) : Outcome (Memory UInt8) :=
  if r.fixedLength then
    (if r.needsTconv then
      convertResponse lib behind r.file r.mem r.npoints ⟨response, r.room⟩
    else .ok ⟨response, r.room⟩).bind fun source => h5Dscatter r.mem.size r.positions source buf
  -- Other classes are not supported.
  else .fail

/-! ## The purpose -/

/-- Each selected element has the values of the file in the fields that the file has, and keeps the
others. Without a conversion it is the element of the file. -/
def Keeps (response buf buf' : Memory UInt8) : Prop :=
  ∀ k, ∀ position ∈ r.positions[k]?,
    if r.needsTconv then
      ∀ parts, fields lib r.mem r.file = some parts → ∀ field ∈ parts,
        buf'.read (position * r.mem.size + field.offset) field.size =
          field.value (response.read (k * r.file.size) r.file.size)
            fun address => buf (position * r.mem.size + address)
    else buf'.read (position * r.mem.size) r.mem.size =
      response.read (k * r.file.size) r.file.size

/-- Whatever is in the buffers, nothing outside of them is touched, and when the read succeeds the
elements are right. -/
def ReadsRight : Prop :=
  ∀ response behind buf : Memory UInt8, r.rvDatasetReadCb lib response behind buf ≠ .undefined ∧
    ∀ buf', r.rvDatasetReadCb lib response behind buf = .ok buf' → r.Keeps lib response buf buf'

/-- A conversion stays in the buffers and leaves no field to the background. -/
def ConvertsInside : Prop :=
  rvTconvInit r.file r.mem r.npoints ≠ .fail ∧
    (r.mem.size < r.file.size → r.npoints * r.file.size ≤ r.room) ∧
      ∀ parts, fields lib r.mem r.file = some parts →
        (r.file.size ≤ r.mem.size → r.npoints * r.mem.size ≤ r.room) ∧
          ∀ field ∈ parts, field.source ≠ none

end TypedRead

/-! ## Fields -/

section Fields

variable {lib} {parts : List Field} {start stop : Nat}

/-- Fields between two places. -/
structure Placed (start stop : Nat) (parts : List Field) : Prop where
  inside : ∀ field ∈ parts, start ≤ field.offset ∧ field.offset + field.size ≤ stop
  apart : parts.Pairwise fun field field' =>
    field.offset + field.size ≤ field'.offset ∨ field'.offset + field'.size ≤ field.offset
  size_pos : ∀ field ∈ parts, 0 < field.size
  converted : ∀ field ∈ parts, ∀ source ∈ field.source, ∀ bytes,
    (source.convert bytes).length = field.size

theorem Placed.shift (h : Placed start stop parts) (srcOffset offset : Nat) :
    Placed (offset + start) (offset + stop) (parts.map (Field.shift srcOffset offset)) where
  inside := by
    refine List.forall_mem_map.mpr fun field hfield => ?_
    have hinside := h.inside field hfield
    simp only [Field.shift]
    omega
  apart := by
    refine List.pairwise_map.mpr (h.apart.imp fun hapart => ?_)
    simp only [Field.shift]
    omega
  size_pos := List.forall_mem_map.mpr h.size_pos
  converted := by
    refine List.forall_mem_map.mpr fun field hfield source hsource bytes => ?_
    obtain ⟨original, horiginal, rfl⟩ := Option.map_eq_some_iff.mp hsource
    exact h.converted field hfield original horiginal bytes

theorem Placed.mono {start' stop' : Nat} (h : Placed start stop parts) (hstart : start' ≤ start)
    (hstop : stop ≤ stop') : Placed start' stop' parts where
  inside field hfield := by
    have hinside := h.inside field hfield
    omega
  apart := h.apart
  size_pos := h.size_pos
  converted := h.converted

theorem placed_singleton {field : Field} (hpos : 0 < field.size)
    (hconverted : ∀ source ∈ field.source, ∀ bytes, (source.convert bytes).length = field.size) :
    Placed field.offset (field.offset + field.size) [field] where
  inside := List.forall_mem_singleton.mpr ⟨Nat.le_refl _, Nat.le_refl _⟩
  apart := List.pairwise_singleton _ _
  size_pos := List.forall_mem_singleton.mpr hpos
  converted := List.forall_mem_singleton.mpr hconverted

/-- A datatype without parts is one field. -/
theorem placed_convert {src dst : Datatype} (hsize : 0 < dst.size)
    (h : (lib.convert src dst).map (fun f => [⟨0, dst.size, some ⟨0, src.size, f⟩⟩]) = some parts) :
    Placed 0 dst.size parts := by
  obtain ⟨f, hf, rfl⟩ := Option.map_eq_some_iff.mp h
  have hplaced := @placed_singleton ⟨0, dst.size, some ⟨0, src.size, f⟩⟩ hsize (by
    rintro source ⟨rfl⟩ bytes
    exact lib.length_convert src dst f hf bytes)
  rwa [Nat.zero_add] at hplaced

/-- The fields of the elements of an array. -/
theorem placed_array {size srcSize count : Nat} (h : Placed 0 size parts) :
    Placed 0 (count * size) ((List.range count).flatMap fun i =>
      parts.map (Field.shift (i * srcSize) (i * size))) where
  inside := by
    intro field hfield
    obtain ⟨i, hi, hfield⟩ := List.mem_flatMap.mp hfield
    obtain ⟨hstart, hstop⟩ := (h.shift (i * srcSize) (i * size)).inside field hfield
    rw [← Nat.succ_mul] at hstop
    exact ⟨Nat.zero_le _, hstop.trans (Nat.mul_le_mul_right _ (List.mem_range.mp hi))⟩
  apart := by
    refine List.pairwise_flatMap.mpr ⟨fun i _ => (h.shift _ _).apart, ?_⟩
    refine List.pairwise_lt_range.imp fun {i j} hlt field hfield field' hfield' => .inl ?_
    have hstop := ((h.shift (i * srcSize) (i * size)).inside field hfield).2
    have hstart := ((h.shift (j * srcSize) (j * size)).inside field' hfield').1
    rw [← Nat.succ_mul] at hstop
    exact hstop.trans ((Nat.mul_le_mul_right _ hlt).trans hstart)
  size_pos field hfield := by
    obtain ⟨i, -, hfield⟩ := List.mem_flatMap.mp hfield
    exact (h.shift _ _).size_pos field hfield
  converted field hfield := by
    obtain ⟨i, -, hfield⟩ := List.mem_flatMap.mp hfield
    exact (h.shift _ _).converted field hfield

/-- The fields of a member that does not overlap with the others. -/
theorem Placed.append {parts' : List Field} {size : Nat} (h : Placed start stop parts)
    (hstop : stop ≤ size) (h' : Placed 0 size parts')
    (hapart : ∀ field ∈ parts', stop ≤ field.offset ∨ field.offset + field.size ≤ start) :
    Placed 0 size (parts ++ parts') where
  inside := List.forall_mem_append.mpr
    ⟨(h.mono (Nat.zero_le _) hstop).inside, h'.inside⟩
  apart := by
    refine List.pairwise_append.mpr ⟨h.apart, h'.apart, fun field hfield field' hfield' => ?_⟩
    have hinside := h.inside field hfield
    have hother := hapart field' hfield'
    omega
  size_pos := List.forall_mem_append.mpr ⟨h.size_pos, h'.size_pos⟩
  converted := List.forall_mem_append.mpr ⟨h.converted, h'.converted⟩

theorem placed_nil {size : Nat} : Placed 0 size [] :=
  ⟨nofun, .nil, nofun, nofun⟩

mutual

/-- The fields of a datatype lie in it and do not overlap. -/
theorem placed_fields : ∀ (dst src : Datatype) (parts : List Field), WellFormed dst → Apart dst →
    fields lib dst src = some parts → Placed 0 dst.size parts
  | .compound size members, src, parts, hwell, hapart, h => by
      rw [WellFormed] at hwell
      rw [Apart] at hapart
      cases src with
      | compound _ srcMembers =>
          exact (placed_memberFields srcMembers members parts size hwell.2.2 hapart.2.2 hapart.1
            hapart.2.1 h).1
      | integer | float | string | enum | array | reference | other => cases h
  | .array base dims, src, parts, hwell, hapart, h => by
      rw [WellFormed] at hwell
      rw [Apart] at hapart
      cases src with
      | array srcBase srcDims =>
          rw [fields] at h
          split at h
          · obtain ⟨basic, hbasic, rfl⟩ := Option.map_eq_some_iff.mp h
            exact placed_array (placed_fields base srcBase basic hwell.2 hapart hbasic)
          · cases h
      | integer | float | string | enum | compound | reference | other => cases h
  | .integer _, _, _, hwell, _, h | .float _ _, _, _, hwell, _, h | .string _ _ _, _, _, hwell, _, h
  | .enum _ _, _, _, hwell, _, h | .reference _, _, _, hwell, _, h | .other _, _, _, hwell, _, h =>
      placed_convert (size_pos hwell) h

theorem placed_memberFields (srcMembers : List (Text × Nat × Datatype)) :
    ∀ (members : List (Text × Nat × Datatype)) (parts : List Field) (size : Nat),
      MembersWellFormed members → MembersApart members →
      (∀ m ∈ members, m.2.1 + m.2.2.size ≤ size) →
      members.Pairwise (fun m m' =>
        m.2.1 + m.2.2.size ≤ m'.2.1 ∨ m'.2.1 + m'.2.2.size ≤ m.2.1) →
      memberFields lib srcMembers members = some parts →
      Placed 0 size parts ∧ ∀ field ∈ parts, ∃ m ∈ members,
        m.2.1 ≤ field.offset ∧ field.offset + field.size ≤ m.2.1 + m.2.2.size
  | [], parts, size, _, _, _, _, h => by
      obtain rfl := Option.some.inj h
      exact ⟨placed_nil, nofun⟩
  | (name, offset, memb) :: members, parts, size, hwell, hapart, hinside, hpairwise, h => by
      obtain ⟨hfirst, hlater⟩ := List.pairwise_cons.mp hpairwise
      obtain ⟨hmemb, hmembers⟩ := List.forall_mem_cons.mp hinside
      -- the fields of this member and those of the others
      obtain ⟨first, rest, rfl, hfirstPlaced, hrest⟩ : ∃ first rest, parts = first ++ rest ∧
          Placed offset (offset + memb.size) first ∧
            memberFields lib srcMembers members = some rest := by
        rw [memberFields] at h
        split at h
        · obtain ⟨rest, hrest, rfl⟩ := Option.map_eq_some_iff.mp h
          exact ⟨[⟨offset, memb.size, none⟩], rest, rfl,
            @placed_singleton ⟨offset, memb.size, none⟩ (size_pos hwell.1) nofun, hrest⟩
        · next srcOffset srcMemb _ =>
            obtain ⟨basic, hbasic, h⟩ := Option.bind_eq_some_iff.mp h
            obtain ⟨rest, hrest, rfl⟩ := Option.map_eq_some_iff.mp h
            have hplaced := placed_fields memb srcMemb basic hwell.1 hapart.1 hbasic
            exact ⟨_, rest, rfl, hplaced.shift srcOffset offset, hrest⟩
      obtain ⟨hrestPlaced, hwhere⟩ := placed_memberFields srcMembers members rest size hwell.2
        hapart.2 hmembers hlater hrest
      constructor
      · refine hfirstPlaced.append hmemb hrestPlaced fun field hfield => ?_
        obtain ⟨m, hm, hstart, hstop⟩ := hwhere field hfield
        have hdisjoint := hfirst m hm
        dsimp only at hdisjoint
        omega
      · intro field hfield
        rcases List.mem_append.mp hfield with hfield | hfield
        · exact ⟨_, List.mem_cons_self, hfirstPlaced.inside field hfield⟩
        · obtain ⟨m, hm, hin⟩ := hwhere field hfield
          exact ⟨m, List.mem_cons_of_mem _ hm, hin⟩

end

end Fields

/-! ## Converted and scattered elements -/

section Elements

variable {lib} {parts : List Field} {field : Field} {src dst : Datatype} {npoints k : Nat}
  {behind elements background buf : Memory UInt8}

theorem length_value {start stop : Nat} (h : Placed start stop parts) (hfield : field ∈ parts)
    (element : List UInt8) (background : Memory UInt8) :
    (field.value element background).length = field.size := by
  rw [Field.value]
  cases hsource : field.source with
  | none => exact Memory.length_read _
  | some source => exact h.converted field hfield source hsource _

/-- Each field of a converted element has its value. -/
theorem read_converted (h : Placed 0 dst.size parts) (hfield : field ∈ parts) (hk : k < npoints) :
    (converted behind parts src dst npoints elements background).read
        (k * dst.size + field.offset) field.size =
      field.value (elements.read (k * src.size) src.size)
        fun address => background (k * dst.size + address) := by
  have hsize : ∀ piece ∈ (List.range npoints).map (fun k => convertElement parts dst.size
      (elements.read (k * src.size) src.size) fun address => background (k * dst.size + address)),
      piece.length = dst.size :=
    List.forall_mem_map.mpr fun _ _ => Memory.length_read _
  have hpiece := @Memory.read_write_flatten _ behind _ dst.size k hsize
    (by rwa [List.length_map, List.length_range])
  rw [List.getElem_map, List.getElem_range] at hpiece
  have hpart := Memory.read_of_read hpiece (h.inside field hfield).2
  have hlength := length_value h hfield (elements.read (k * src.size) src.size)
    fun address => background (k * dst.size + address)
  rw [converted, hpart, Nat.zero_add, ← hlength]
  refine Memory.read_writeAll (List.pairwise_map.mpr ?_)
    (List.mem_map.mpr ⟨field, hfield, rfl⟩)
  refine h.apart.imp_of_mem fun hfirst hsecond hapart => ?_
  rw [Memory.Apart, length_value h hfirst, length_value h hsecond]
  exact hapart

/-- Each selected position has its element. -/
theorem read_scattered {size : Nat} {positions : List Nat} (h : positions.Nodup) {position : Nat}
    (hposition : positions[k]? = some position) :
    (scattered size positions elements buf).read (position * size) size =
      elements.read (k * size) size := by
  have hpairwise : (positions.zipIdx.map fun entry =>
      (entry.1 * size, elements.read (entry.2 * size) size)).Pairwise Memory.Apart := by
    have hdistinct : positions.zipIdx.Pairwise fun entry other => entry.1 ≠ other.1 := by
      rw [← List.zipIdx_map_fst 0 positions] at h
      exact List.pairwise_map.mp h
    refine List.pairwise_map.mpr (hdistinct.imp fun {entry other} hne => ?_)
    rw [Memory.Apart, Memory.length_read, Memory.length_read, ← Nat.succ_mul, ← Nat.succ_mul]
    rcases Nat.lt_or_gt_of_ne hne with hlt | hgt
    · exact .inl (Nat.mul_le_mul_right _ hlt)
    · exact .inr (Nat.mul_le_mul_right _ hgt)
  have hmem : (position, k) ∈ positions.zipIdx := List.mk_mem_zipIdx_iff_getElem?.mpr hposition
  have hread := @Memory.read_writeAll _ buf _ hpairwise _
    (List.mem_map.mpr ⟨(position, k), hmem, rfl⟩)
  rwa [Memory.length_read] at hread

end Elements

/-! ## What `RV_tconv_init` chooses -/

mutual

/-- A background is made where one is needed, unless the check fails at an array. -/
theorem rvNeedBkg_cases : ∀ (dst src : Datatype) (fillBkg : Bool), WellFormed dst →
    rvNeedBkg src fillBkg dst = .fail ∨
      ∃ fill, rvNeedBkg src fillBkg dst = .ok (needsBackground dst, fill)
  | .compound size members, src, fillBkg, hwell => by
      rw [WellFormed] at hwell
      have hne : size ≠ 0 := Nat.pos_iff_ne_zero.mp hwell.1
      rw [rvNeedBkg, if_neg hne]
      rcases needBkgOfMembers_cases members src size 0 fillBkg
        (by rw [Nat.zero_add]; exact hwell.2.1) hwell.2.2 with hfail | ⟨fill, hfill⟩
      · exact .inl (by rw [hfail]; rfl)
      · exact .inr ⟨fill, by rw [hfill]; rfl⟩
  | .array base dims, src, fillBkg, hwell => by
      rw [WellFormed] at hwell
      have hne : dims.prod * base.size ≠ 0 := Nat.pos_iff_ne_zero.mp hwell.1
      cases src with
      | array srcBase srcDims =>
          have hbase : rvNeedBkg (.array srcBase srcDims) fillBkg (.array base dims) =
              rvNeedBkg srcBase fillBkg base := if_neg hne
          rw [hbase]
          exact rvNeedBkg_cases base srcBase fillBkg hwell.2
      | integer | float | string | enum | compound | reference | other => exact .inl (if_neg hne)
  | .integer _, _, fillBkg, hwell | .float _ _, _, fillBkg, hwell | .string _ _ _, _, fillBkg, hwell
  | .enum _ _, _, fillBkg, hwell | .reference _, _, fillBkg, hwell | .other _, _, fillBkg, hwell =>
      .inr ⟨fillBkg, if_neg (Nat.ne_of_gt hwell)⟩

theorem needBkgOfMembers_cases : ∀ (members : List (Text × Nat × Datatype)) (src : Datatype)
    (dstSize sizeUsed : Nat) (fillBkg : Bool),
    sizeUsed + (members.map fun m => m.2.2.size).sum ≤ dstSize → MembersWellFormed members →
    needBkgOfMembers src dstSize sizeUsed fillBkg members = .fail ∨
      ∃ fill, needBkgOfMembers src dstSize sizeUsed fillBkg members = .ok fill
  | [], _, _, _, _, hsize, _ => .inr ⟨_, if_neg (by simpa using hsize)⟩
  | (name, offset, memb) :: members, src, dstSize, sizeUsed, fillBkg, hsize, hwell => by
      rw [MembersWellFormed] at hwell
      rw [needBkgOfMembers]
      cases hsrc : memberType src name with
      | none => exact .inr ⟨true, rfl⟩
      | some srcMemb =>
          rcases rvNeedBkg_cases memb srcMemb fillBkg hwell.1 with hfail | ⟨fill, hfill⟩
          · exact .inl (by simp only [hfail, Outcome.fail_bind])
          · simp only [hfill, Outcome.ok_bind]
            cases fill with
            | true => exact .inr ⟨true, rfl⟩
            | false =>
                refine needBkgOfMembers_cases members src dstSize (sizeUsed + memb.size) false ?_
                  hwell.2
                simpa [Nat.add_assoc] using hsize

end

section Init

variable {src dst : Datatype} {npoints : Nat}

/-- What is chosen for some elements. -/
theorem rvTconvInit_cases (hsrc : 0 < src.size) (hdst : WellFormed dst) (hpoints : npoints ≠ 0) :
    rvTconvInit src dst npoints = .fail ∨
      (src.size ≤ dst.size ∧ ∃ bkgBuf, rvTconvInit src dst npoints = .ok ⟨null, bkgBuf, .tconv⟩ ∧
        bkgBuf.bytes = (fun _ => 0) ∧
          (needsBackground dst = true → npoints * dst.size ≤ bkgBuf.size)) ∨
      dst.size < src.size ∧ ∃ reuse, reuse ≠ .tconv ∧
        rvTconvInit src dst npoints = .ok ⟨⟨fun _ => 0, npoints * src.size⟩, null, reuse⟩ ∧
          (needsBackground dst = true → reuse = .bkg) := by
  rw [rvTconvInit, if_neg hpoints, if_neg (Nat.pos_iff_ne_zero.mp hsrc)]
  rcases rvNeedBkg_cases dst src false hdst with hfail | ⟨fill, hfill⟩
  · exact .inl (by rw [hfail]; rfl)
  · refine .inr ?_
    rw [hfill, Outcome.ok_bind]
    dsimp only
    by_cases hle : src.size ≤ dst.size
    · refine .inl ⟨hle, ?_⟩
      rw [if_pos hle]
      cases needsBackground dst with
      | true => exact ⟨⟨fun _ => 0, npoints * dst.size⟩, rfl, rfl, fun _ => Nat.le_refl _⟩
      | false => exact ⟨null, rfl, rfl, nofun⟩
    · have hlt := Nat.lt_of_not_le hle
      refine .inr ⟨hlt, ?_⟩
      rw [if_neg hle, Nat.max_eq_left (Nat.le_of_lt hlt)]
      cases needsBackground dst with
      | true => exact ⟨.bkg, by decide, rfl, fun _ => rfl⟩
      | false => exact ⟨.none, by decide, rfl, nofun⟩

/-! ## The conversion of the response -/

variable {lib} {behind : Memory UInt8} {parts : List Field} {response : Buffer UInt8}

theorem h5Tconvert_of_none (h : fields lib dst src = none) (buffer background : Buffer UInt8) :
    h5Tconvert lib behind src dst npoints buffer background = .fail := by
  rw [h5Tconvert, h]

theorem h5Tconvert_of_some (h : fields lib dst src = some parts) {buffer background : Buffer UInt8}
    (hbuffer : npoints * max src.size dst.size ≤ buffer.size)
    (hbackground : needsBackground dst = true → npoints * dst.size ≤ background.size) :
    h5Tconvert lib behind src dst npoints buffer background =
      .ok ⟨converted behind parts src dst npoints buffer.bytes background.bytes, buffer.size⟩ := by
  rw [h5Tconvert, h]
  refine if_pos ⟨.inr ?_, fun hneeds => .inr ?_⟩
  · rwa [Nat.zero_add]
  · rw [Nat.zero_add]
    exact hbackground hneeds

theorem h5Tconvert_of_lt (h : fields lib dst src = some parts) {buffer background : Buffer UInt8}
    (hpos : npoints * max src.size dst.size ≠ 0)
    (hlt : buffer.size < npoints * max src.size dst.size) :
    h5Tconvert lib behind src dst npoints buffer background = .undefined := by
  rw [h5Tconvert, h]
  refine if_neg fun hwithin => ?_
  rcases hwithin.1 with hzero | hle
  · exact hpos hzero
  · rw [Nat.zero_add] at hle
    exact absurd hle (Nat.not_le_of_lt hlt)

/-- The copy of the response holds the same elements. -/
theorem copied_elements {k : Nat} (hk : k < npoints) (elements : Memory UInt8) :
    (Memory.write (fun _ => 0) 0 (elements.read 0 (npoints * src.size))).read
        (k * src.size) src.size = elements.read (k * src.size) src.size := by
  refine Memory.read_write_read ?_
  rw [← Nat.succ_mul]
  exact Nat.mul_le_mul_right _ hk

/-- Without a selection nothing is touched. -/
theorem convertResponse_zero (behind : Memory UInt8) (response : Buffer UInt8) :
    convertResponse lib behind src dst 0 response ≠ .undefined := by
  have hzero : convertResponse lib behind src dst 0 response =
      h5Tconvert lib behind src dst 0 ⟨Memory.write (fun _ => 0) 0 [], 0⟩ null := by
    rw [convertResponse, tconvBuffers, rvTconvInit, if_pos rfl, Outcome.ok_bind]
    dsimp only
    rw [Buffer.load_of_within (.inl (Nat.zero_mul _)), Outcome.ok_bind, Nat.zero_mul]
    rfl
  rw [hzero]
  cases hparts : fields lib dst src with
  | none => exact h5Tconvert_of_none hparts _ _ ▸ nofun
  | some parts =>
      rw [h5Tconvert_of_some hparts (by rw [Nat.zero_mul]) fun _ => by rw [Nat.zero_mul]; rfl]
      exact nofun

/-- Where the elements are converted, and with which background. -/
theorem convertResponse_cases (hsrc : 0 < src.size) (hdst : WellFormed dst)
    (hpoints : npoints ≠ 0) (behind : Memory UInt8) (response : Buffer UInt8) :
    (rvTconvInit src dst npoints = .fail ∧
      convertResponse lib behind src dst npoints response = .undefined) ∨
    (rvTconvInit src dst npoints ≠ .fail ∧ src.size ≤ dst.size ∧ ∃ background,
      convertResponse lib behind src dst npoints response =
        h5Tconvert lib behind src dst npoints response background ∧
      background.bytes = (fun _ => 0) ∧
      (needsBackground dst = true → npoints * dst.size ≤ background.size)) ∨
    (rvTconvInit src dst npoints ≠ .fail ∧ dst.size < src.size ∧
      response.size < npoints * src.size ∧
      convertResponse lib behind src dst npoints response = .undefined) ∨
    rvTconvInit src dst npoints ≠ .fail ∧ dst.size < src.size ∧
      npoints * src.size ≤ response.size ∧ ∃ background,
      convertResponse lib behind src dst npoints response = h5Tconvert lib behind src dst npoints
        ⟨Memory.write (fun _ => 0) 0 (response.bytes.read 0 (npoints * src.size)),
          npoints * src.size⟩ background ∧
      (background.bytes = (fun _ => 0) ∨ background.bytes = response.bytes) ∧
      (needsBackground dst = true → npoints * dst.size ≤ background.size) := by
  have hbytes : npoints * src.size ≠ 0 := Nat.mul_ne_zero hpoints (Nat.pos_iff_ne_zero.mp hsrc)
  have hload (hle : npoints * src.size ≤ response.size) :
      response.load 0 (npoints * src.size) =
        .ok (response.bytes.read 0 (npoints * src.size)) :=
    Buffer.load_of_within (.inr (by rwa [Nat.zero_add]))
  have hloadNone (hlt : response.size < npoints * src.size) :
      response.load 0 (npoints * src.size) = .undefined :=
    Buffer.load_of_not_within fun hwithin =>
      hwithin.elim hbytes fun hle => absurd hle (by rw [Nat.zero_add]; exact Nat.not_le_of_lt hlt)
  rcases rvTconvInit_cases hsrc hdst hpoints with hfail | ⟨hle, bkgBuf, hinit, hzero, hneeds⟩ |
    ⟨hlt, reuse, hreuse, hinit, hneeds⟩
  · -- the null pointer has no room for the copy
    refine .inl ⟨hfail, ?_⟩
    rw [convertResponse, tconvBuffers, hfail]
    dsimp only
    rw [Outcome.ok_bind]
    dsimp only
    rcases Nat.lt_or_ge response.size (npoints * src.size) with hlt | hge
    · rw [hloadNone hlt]
      rfl
    · have hstore : null.store 0 (response.bytes.read 0 (npoints * src.size)) = .undefined := by
        refine if_neg fun hwithin => ?_
        rw [Buffer.Within, Memory.length_read, Nat.zero_add] at hwithin
        exact hwithin.elim hbytes fun hle => hbytes (Nat.le_zero.mp hle)
      rw [hload hge, Outcome.ok_bind, hstore]
      rfl
  · refine .inr (.inl ⟨by rw [hinit]; rintro ⟨⟩, hle, bkgBuf, ?_, hzero, hneeds⟩)
    rw [convertResponse, tconvBuffers, hinit]
    rfl
  · have hne : rvTconvInit src dst npoints ≠ .fail := by
      rw [hinit]
      rintro ⟨⟩
    rcases Nat.lt_or_ge response.size (npoints * src.size) with hshort | hfits
    · refine .inr (.inr (.inl ⟨hne, hlt, hshort, ?_⟩))
      rw [convertResponse, tconvBuffers, hinit]
      dsimp only
      rw [Outcome.ok_bind]
      dsimp only
      cases reuse with
      | tconv => exact absurd rfl hreuse
      | bkg | none => rw [hloadNone hshort]; rfl
    · refine .inr (.inr (.inr ⟨hne, hlt, hfits, ?_⟩))
      have hstore : Buffer.store ⟨fun _ => 0, npoints * src.size⟩ 0
          (response.bytes.read 0 (npoints * src.size)) =
          .ok ⟨Memory.write (fun _ => 0) 0 (response.bytes.read 0 (npoints * src.size)),
            npoints * src.size⟩ :=
        Buffer.store_of_within (.inr (by rw [Memory.length_read, Nat.zero_add]))
      rw [convertResponse, tconvBuffers, hinit]
      dsimp only
      rw [Outcome.ok_bind]
      dsimp only
      have hsmaller := (Nat.mul_le_mul_left npoints (Nat.le_of_lt hlt)).trans hfits
      cases reuse with
      | tconv => exact absurd rfl hreuse
      | bkg =>
          refine ⟨response, ?_, .inr rfl, fun _ => hsmaller⟩
          dsimp only
          rw [hload hfits, Outcome.ok_bind, hstore, Outcome.ok_bind]
      | none =>
          refine ⟨null, ?_, .inl rfl, fun h => absurd (hneeds h) (by decide)⟩
          dsimp only
          rw [hload hfits, Outcome.ok_bind, hstore, Outcome.ok_bind]

/-- The elements converted in a buffer, from those of the response. -/
theorem exists_converted (hsrc : 0 < src.size) (hdst : WellFormed dst) (hpoints : npoints ≠ 0)
    (behind : Memory UInt8) (hinit : rvTconvInit src dst npoints ≠ .fail)
    (hcopy : dst.size < src.size → npoints * src.size ≤ response.size)
    (hparts : fields lib dst src = some parts)
    (hroom : src.size ≤ dst.size → npoints * dst.size ≤ response.size) :
    ∃ elements background size, convertResponse lib behind src dst npoints response =
        .ok ⟨converted behind parts src dst npoints elements background, size⟩ ∧
      (∀ k < npoints, elements.read (k * src.size) src.size =
        response.bytes.read (k * src.size) src.size) ∧
      (background = (fun _ => 0) ∨ background = response.bytes) ∧ npoints * dst.size ≤ size := by
  rcases @convertResponse_cases lib _ _ _ hsrc hdst hpoints behind response with
    ⟨hfail, -⟩ | ⟨-, hle, background, heq, hzero, hneeds⟩ | ⟨-, hlt, hshort, -⟩ |
    ⟨-, hlt, hfits, background, heq, hbytes, hneeds⟩
  · exact absurd hfail hinit
  · refine ⟨response.bytes, background.bytes, response.size, ?_, fun _ _ => rfl, .inl hzero,
      hroom hle⟩
    rw [heq, h5Tconvert_of_some hparts (by rw [Nat.max_eq_right hle]; exact hroom hle) hneeds]
  · exact absurd hshort (Nat.not_lt_of_le (hcopy hlt))
  · refine ⟨_, background.bytes, npoints * src.size, ?_,
      fun k hk => copied_elements hk response.bytes, hbytes,
      Nat.mul_le_mul_left _ (Nat.le_of_lt hlt)⟩
    rw [heq, h5Tconvert_of_some hparts (by rw [Nat.max_eq_left (Nat.le_of_lt hlt)]) hneeds]

/-- Without a way to convert there is an error, if nothing was touched before that. -/
theorem convertResponse_of_none (hsrc : 0 < src.size) (hdst : WellFormed dst)
    (hpoints : npoints ≠ 0) (behind : Memory UInt8) (hinit : rvTconvInit src dst npoints ≠ .fail)
    (hcopy : dst.size < src.size → npoints * src.size ≤ response.size)
    (hparts : fields lib dst src = none) :
    convertResponse lib behind src dst npoints response = .fail := by
  rcases @convertResponse_cases lib _ _ _ hsrc hdst hpoints behind response with
    ⟨hfail, -⟩ | ⟨-, -, background, heq, -⟩ | ⟨-, hlt, hshort, -⟩ | ⟨-, -, -, background, heq, -⟩
  · exact absurd hfail hinit
  · rw [heq, h5Tconvert_of_none hparts]
  · exact absurd hshort (Nat.not_lt_of_le (hcopy hlt))
  · rw [heq, h5Tconvert_of_none hparts]

/-- What the conversion must not touch. -/
theorem inside_of_defined (hsrc : 0 < src.size) (hdst : WellFormed dst) (hpoints : npoints ≠ 0)
    (behind : Memory UInt8)
    (h : convertResponse lib behind src dst npoints response ≠ .undefined) :
    rvTconvInit src dst npoints ≠ .fail ∧
      (dst.size < src.size → npoints * src.size ≤ response.size) ∧
      (fields lib dst src ≠ none → src.size ≤ dst.size → npoints * dst.size ≤ response.size) := by
  rcases @convertResponse_cases lib _ _ _ hsrc hdst hpoints behind response with
    ⟨-, hundefined⟩ | ⟨hinit, hle, background, heq, -⟩ | ⟨-, -, -, hundefined⟩ |
    ⟨hinit, hlt, hfits, -⟩
  · exact absurd hundefined h
  · refine ⟨hinit, fun hlt => absurd hlt (Nat.not_lt_of_le hle), fun hne _ => ?_⟩
    obtain ⟨parts, hparts⟩ := Option.ne_none_iff_exists'.mp hne
    by_contra hshort
    refine h ?_
    have hpos : npoints * max src.size dst.size ≠ 0 := by
      rw [Nat.max_eq_right hle]
      exact Nat.mul_ne_zero hpoints (Nat.pos_iff_ne_zero.mp (size_pos hdst))
    rw [heq, h5Tconvert_of_lt hparts hpos]
    rw [Nat.max_eq_right hle]
    exact Nat.lt_of_not_le hshort
  · exact absurd hundefined h
  · exact ⟨hinit, fun _ => hfits, fun _ hle => absurd hlt (Nat.not_lt_of_le hle)⟩

end Init

/-! ## The read -/

namespace TypedRead

variable {lib} {r : TypedRead} {response behind buf : Memory UInt8}

theorem mem_size : 0 < r.mem.size := size_pos r.wellFormed

/-- The elements are loaded from a buffer that has them. -/
theorem h5Dscatter_of_le {source : Buffer UInt8} (h : r.npoints * r.mem.size ≤ source.size) :
    h5Dscatter r.mem.size r.positions source buf =
      .ok (scattered r.mem.size r.positions source.bytes buf) := by
  have hload : source.load 0 (r.positions.length * r.mem.size) =
      .ok (source.bytes.read 0 (r.positions.length * r.mem.size)) :=
    Buffer.load_of_within (.inr (by rw [Nat.zero_add]; exact h))
  rw [h5Dscatter, hload, Outcome.ok_bind]

theorem h5Dscatter_of_lt {source : Buffer UInt8} (hpoints : r.npoints ≠ 0)
    (h : source.size < r.npoints * r.mem.size) :
    h5Dscatter r.mem.size r.positions source buf = .undefined := by
  have hload : source.load 0 (r.positions.length * r.mem.size) = .undefined := by
    refine Buffer.load_of_not_within fun hwithin => ?_
    rcases hwithin with hzero | hle
    · exact Nat.mul_ne_zero hpoints (Nat.pos_iff_ne_zero.mp mem_size) hzero
    · rw [Nat.zero_add] at hle
      exact absurd hle (Nat.not_le_of_lt h)
  rw [h5Dscatter, hload]
  rfl

/-- A field of a selected element after the conversion. -/
theorem read_field {parts : List Field} {field : Field} {elements background : Memory UInt8}
    (hparts : fields lib r.mem r.file = some parts) (hfield : field ∈ parts) {k position : Nat}
    (hposition : r.positions[k]? = some position) :
    (scattered r.mem.size r.positions
        (converted behind parts r.file r.mem r.npoints elements background) buf).read
          (position * r.mem.size + field.offset) field.size =
      field.value (elements.read (k * r.file.size) r.file.size)
        fun address => background (k * r.mem.size + address) := by
  have hplaced := placed_fields r.mem r.file parts r.wellFormed r.apart hparts
  obtain ⟨hk, -⟩ := List.getElem?_eq_some_iff.mp hposition
  have helement := @read_scattered _
    (converted behind parts r.file r.mem r.npoints elements background) buf r.mem.size r.positions
    r.nodup position hposition
  rw [Memory.read_of_read helement (hplaced.inside field hfield).2]
  exact read_converted hplaced hfield hk

/-- A field that comes from the file does not look at the background. -/
theorem value_of_source {field : Field} (h : field.source ≠ none) (element : List UInt8)
    (background background' : Memory UInt8) :
    field.value element background = field.value element background' := by
  rw [Field.value, Field.value]
  cases hsource : field.source with
  | none => exact absurd hsource h
  | some source => rfl

theorem readsRight_of_fail (h : ∀ response behind buf : Memory UInt8,
    r.rvDatasetReadCb lib response behind buf = .fail) : r.ReadsRight lib := by
  intro response behind buf
  rw [h]
  exact ⟨nofun, nofun⟩

theorem rvDatasetReadCb_convert (hfixed : r.fixedLength = true) (hneeds : r.needsTconv = true)
    (response behind buf : Memory UInt8) : r.rvDatasetReadCb lib response behind buf =
      (convertResponse lib behind r.file r.mem r.npoints ⟨response, r.room⟩).bind fun source =>
        h5Dscatter r.mem.size r.positions source buf := by
  rw [rvDatasetReadCb, if_pos hfixed, if_pos hneeds]

theorem rvDatasetReadCb_plain (hfixed : r.fixedLength = true) (hneeds : r.needsTconv = false)
    (response behind buf : Memory UInt8) : r.rvDatasetReadCb lib response behind buf =
      h5Dscatter r.mem.size r.positions ⟨response, r.room⟩ buf := by
  rw [rvDatasetReadCb, if_pos hfixed, hneeds]
  rfl

/-- Nothing is selected. -/
theorem readsRight_of_zero (h : r.npoints = 0) : r.ReadsRight lib := by
  intro response behind buf
  have hnil : r.positions = [] := List.eq_nil_of_length_eq_zero h
  have hscatter (source : Buffer UInt8) : h5Dscatter r.mem.size r.positions source buf ≠
      .undefined := by
    rw [h5Dscatter_of_le (by rw [h, Nat.zero_mul]; exact Nat.zero_le _)]
    exact nofun
  refine ⟨?_, fun buf' _ k position hposition => ?_⟩
  · rw [rvDatasetReadCb]
    split
    · refine Outcome.bind_ne_undefined ?_ fun source _ => hscatter source
      split
      · rw [h]
        exact convertResponse_zero behind _
      · exact nofun
    · exact nofun
  · rw [hnil] at hposition
    cases hposition

/-- Elements of the same datatype are scattered. -/
theorem readsRight_of_plain (hfixed : r.fixedLength = true) (hneeds : r.needsTconv = false)
    (hroom : r.npoints * r.mem.size ≤ r.room) : r.ReadsRight lib := by
  intro response behind buf
  rw [rvDatasetReadCb_plain hfixed hneeds, h5Dscatter_of_le hroom]
  refine ⟨nofun, fun buf' hbuf' k position hposition => ?_⟩
  obtain rfl := Outcome.ok.inj hbuf'
  rw [if_neg (by rw [hneeds]; exact nofun), r.same hneeds]
  exact read_scattered r.nodup hposition

/-- A conversion that leaves no field to the background. -/
theorem readsRight_of_converts (hfixed : r.fixedLength = true) (hneeds : r.needsTconv = true)
    (hpoints : r.npoints ≠ 0) (h : r.ConvertsInside lib) : r.ReadsRight lib := by
  obtain ⟨hinit, hcopy, hfields⟩ := h
  cases hparts : fields lib r.mem r.file with
  | none =>
      refine readsRight_of_fail fun response behind buf => ?_
      rw [rvDatasetReadCb_convert hfixed hneeds, convertResponse_of_none r.file_size r.wellFormed
        hpoints behind hinit hcopy hparts]
      rfl
  | some parts =>
      obtain ⟨hroom, hsources⟩ := hfields parts hparts
      intro response behind buf
      obtain ⟨elements, background, size, hconvert, helements, -, hsize⟩ :=
        @exists_converted lib _ _ _ parts ⟨response, r.room⟩ r.file_size r.wellFormed hpoints behind
          hinit hcopy hparts hroom
      rw [rvDatasetReadCb_convert hfixed hneeds, hconvert, Outcome.ok_bind, h5Dscatter_of_le hsize]
      refine ⟨nofun, fun buf' hbuf' k position hposition => ?_⟩
      obtain rfl := Outcome.ok.inj hbuf'
      rw [if_pos hneeds]
      intro parts' hparts' field hfield
      obtain rfl := Option.some.inj (hparts.symm.trans hparts')
      obtain ⟨hk, -⟩ := List.getElem?_eq_some_iff.mp hposition
      rw [read_field hparts hfield hposition, helements k hk]
      exact value_of_source (hsources field hfield) _ _ _

/-- A field that the file does not have is overwritten. -/
theorem exists_source_of_readsRight (hfixed : r.fixedLength = true) (hneeds : r.needsTconv = true)
    (hpoints : r.npoints ≠ 0) (h : r.ReadsRight lib) {parts : List Field}
    (hparts : fields lib r.mem r.file = some parts)
    (hinit : rvTconvInit r.file r.mem r.npoints ≠ .fail)
    (hcopy : r.mem.size < r.file.size → r.npoints * r.file.size ≤ r.room)
    (hroom : r.file.size ≤ r.mem.size → r.npoints * r.mem.size ≤ r.room) :
    ∀ field ∈ parts, field.source ≠ none := by
  intro field hfield hnone
  obtain ⟨elements, background, size, hconvert, -, hbackground, hsize⟩ :=
    @exists_converted lib _ _ _ parts ⟨fun _ => 0, r.room⟩ r.file_size r.wellFormed hpoints
      (fun _ => 0) hinit hcopy hparts hroom
  have hzero : background = fun _ => 0 := hbackground.elim id id
  obtain ⟨position, hposition⟩ : ∃ position, r.positions[0]? = some position :=
    ⟨_, List.getElem?_eq_getElem (Nat.pos_of_ne_zero hpoints)⟩
  -- the memory is not zero, the background is
  have hkeeps := (h (fun _ => 0) (fun _ => 0) fun _ => 1).2 _ (by
    rw [rvDatasetReadCb_convert hfixed hneeds, hconvert, Outcome.ok_bind, h5Dscatter_of_le hsize])
    0 position hposition
  rw [if_pos hneeds] at hkeeps
  have hvalue := hkeeps parts hparts field hfield
  rw [read_field hparts hfield hposition, Field.value, Field.value, hnone, hzero] at hvalue
  dsimp only at hvalue
  have hsize := (placed_fields r.mem r.file parts r.wellFormed r.apart hparts).size_pos field hfield
  rw [Memory.read_const, Memory.read_const] at hvalue
  have hbyte := congrArg (fun bytes => bytes[0]?) hvalue
  rw [List.getElem?_replicate, List.getElem?_replicate, if_pos hsize, if_pos hsize] at hbyte
  exact absurd (Option.some.inj hbyte) (by decide)

/-- The conversion of a read stays in its buffers and keeps what is not in the file just when the
class of the datatype is refused, nothing is selected, elements that need no conversion have their
room, or the conversion has it and the file has all fields. -/
theorem readsRight_iff : r.ReadsRight lib ↔ r.fixedLength = false ∨ r.npoints = 0 ∨
    if r.needsTconv then r.ConvertsInside lib else r.npoints * r.mem.size ≤ r.room := by
  cases hfixed : r.fixedLength with
  | false =>
      refine iff_of_true (readsRight_of_fail fun response behind buf => ?_) (.inl rfl)
      rw [rvDatasetReadCb, hfixed]
      rfl
  | true =>
      rw [or_iff_right (by decide)]
      by_cases hpoints : r.npoints = 0
      · exact iff_of_true (readsRight_of_zero hpoints) (.inl hpoints)
      rw [or_iff_right hpoints]
      cases hneeds : r.needsTconv with
      | false =>
          refine ⟨fun h => ?_, fun h => readsRight_of_plain hfixed hneeds h⟩
          by_contra hshort
          refine (h (fun _ => 0) (fun _ => 0) fun _ => 0).1 ?_
          rw [rvDatasetReadCb_plain hfixed hneeds]
          exact h5Dscatter_of_lt hpoints (Nat.lt_of_not_le hshort)
      | true =>
          refine ⟨fun h => ?_, fun h => readsRight_of_converts hfixed hneeds hpoints h⟩
          have hdefined : convertResponse lib (fun _ => 0) r.file r.mem r.npoints
              ⟨fun _ => 0, r.room⟩ ≠ .undefined := by
            intro hundefined
            refine (h (fun _ => 0) (fun _ => 0) fun _ => 0).1 ?_
            rw [rvDatasetReadCb_convert hfixed hneeds, hundefined]
            rfl
          obtain ⟨hinit, hcopy, hroom⟩ :=
            inside_of_defined r.file_size r.wellFormed hpoints _ hdefined
          refine ⟨hinit, hcopy, fun parts hparts => ?_⟩
          have hroom := hroom (by rw [hparts]; exact nofun)
          exact ⟨hroom, exists_source_of_readsRight hfixed hneeds hpoints h hparts hinit hcopy
            hroom⟩

end TypedRead

/-! ## A member that the file does not have -/

/-- A library that knows only numbers of the same type. -/
def sameLibrary : Library where
  convert src dst :=
    match src, dst with
    | .integer base, .integer base' =>
        if base = base' then
          some fun bytes => (bytes ++ List.replicate base'.size 0).take base'.size
        else none
    | _, _ => none
  length_convert := by
    intro src dst f h bytes
    cases src with
    | integer base =>
        cases dst with
        | integer base' =>
            dsimp only at h
            split at h
            · obtain rfl := Option.some.inj h
              simp [Datatype.size]
            · cases h
        | float | string | enum | compound | array | reference | other => cases h
    | float | string | enum | compound | array | reference | other => cases h

/-- `int`. -/
def int : Datatype := .integer ⟨4, .little, true⟩

/-- `struct { int a; }` in the file, `struct { int a, b; }` in memory, and one element. -/
def addedMember : TypedRead where
  file := .compound 4 [(['a'], 0, int)]
  mem := .compound 8 [(['a'], 0, int), (['b'], 4, int)]
  isVlen := false
  needsTconv := true
  reply := .binary 1
  positions := [0]
  same := nofun
  nodup := by decide
  mem_ne := nofun
  file_size := by decide
  wellFormed := ⟨by decide, by decide, Nat.succ_pos 3, Nat.succ_pos 3, trivial⟩
  apart := ⟨by simp [int, Datatype.size], by simp [int, Datatype.size], trivial, trivial, trivial⟩

/-- The second member is zero after the read. -/
theorem not_readsRight_addedMember : ¬ addedMember.ReadsRight sameLibrary := by
  intro h
  have hinit : rvTconvInit addedMember.file addedMember.mem addedMember.npoints ≠ .fail := by
    have hok : ∃ buffers, rvTconvInit addedMember.file addedMember.mem addedMember.npoints =
        .ok buffers := ⟨_, rfl⟩
    obtain ⟨buffers, hok⟩ := hok
    rw [hok]
    exact nofun
  exact TypedRead.exists_source_of_readsRight rfl rfl (by decide) h rfl hinit (by decide)
    (by decide) ⟨4, 4, none⟩ (.tail _ (.head _)) rfl

end XHDF5.Client.ConvertedRead
