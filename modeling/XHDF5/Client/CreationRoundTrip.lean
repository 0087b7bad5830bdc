/-
# The round trip of creation properties

The properties come back exactly when the fill value and the filters are restorable, the dataset is
neither virtual nor external, and no text ends where the buffer does. What is read is looked up in the
document; a filter adds at most one filter to the property list, so all filters have to come back one
by one.
-/

import XHDF5.Client.CreationProperties

namespace XHDF5.Client

open XHDF5.Math

/-! ## Lookups -/

theorem yajlInteger_decimal {value : Nat} (h : value < 2 ^ 63) :
    yajlInteger (.word (decimal value)) = some (value : Int) := by
  have hread := @Json.readNumber_append (value : Int) [] nofun
  rw [List.append_nil, decimalInt_natCast] at hread
  rw [yajlInteger, hread, Option.bind_some, if_pos]
  refine ⟨rfl, ?_, ?_⟩ <;> (simp only; omega)

theorem toUnsigned_natCast {value : Nat} (h : value < 2 ^ 32) :
    toUnsigned (value : Int) = UInt32.ofNat value := by
  rw [toUnsigned, toSize_natCast (by omega)]

/-- The value of a property with the key. -/
theorem find?_presentMembers {properties : List (Text × Option Doc)} {key : Text} {value : Option Doc}
    (hkeys : (properties.map Prod.fst).Nodup) (h : (key, value) ∈ properties) :
    (presentMembers properties).find? (fun m => m.2.1 = key) =
      value.map fun x => (lit ", ", key, blank, x) := by
  induction properties with
  | nil => cases h
  | cons property properties ih =>
      rw [List.map_cons, List.nodup_cons] at hkeys
      have hcons : presentMembers (property :: properties) =
          property.2.toList.map (fun x => (lit ", ", property.1, blank, x)) ++
            presentMembers properties := by
        rw [presentMembers, List.flatMap_cons, presentMembers]
        cases property.2 <;> rfl
      rw [hcons, List.find?_append]
      rcases List.mem_cons.mp h with heq | hmem
      · -- no later property has the key
        have hlater : (presentMembers properties).find? (fun m => m.2.1 = key) = none := by
          rw [List.find?_eq_none]
          intro m hm
          obtain ⟨other, hother, hm⟩ := List.mem_flatMap.mp hm
          have hkey : other.1 ≠ key := by
            rintro rfl
            rw [← heq] at hkeys
            exact hkeys.1 (List.mem_map.mpr ⟨other, hother, rfl⟩)
          cases hvalue : other.2 with
          | none =>
              rw [hvalue] at hm
              cases hm
          | some x =>
              rw [hvalue] at hm
              rw [List.mem_singleton.mp hm]
              simpa using hkey
        rw [hlater, ← heq]
        cases value <;> simp
      · have hkey : property.1 ≠ key := by
          rintro rfl
          exact hkeys.1 (List.mem_map.mpr ⟨_, hmem, rfl⟩)
        rw [ih hkeys.2 hmem]
        cases property.2 <;> simp [hkey]

section Lookups

variable {cdValues : Nat → UInt32} {p : CreationProperties}

/-- The properties with the first one. -/
def allProperties (cdValues : Nat → UInt32) (p : CreationProperties) : List (Text × Option Doc) :=
  (lit "allocTime", some (.string p.allocTime.name)) :: laterProperties cdValues p

theorem nodup_allProperties : ((allProperties cdValues p).map Prod.fst).Nodup := by
  change List.Nodup [lit "allocTime", lit "attributeCreationOrder", lit "attributePhaseChange",
    lit "fillTime", lit "fillValue", lit "fillValue_encoding", lit "filters", lit "layout",
    lit "trackTimes"]
  repeat rw [lit_ofList]
  decide

/-- What the callback finds for a key. -/
theorem member_creationPropertiesDoc {key : Text} {value : Option Doc}
    (h : (key, value) ∈ allProperties cdValues p) :
    (creationPropertiesDoc cdValues p).bare.member key = value.map Doc.bare := by
  have hnodup := @nodup_allProperties cdValues p
  rw [Doc.member_bare, creationPropertiesDoc, Doc.member, List.find?_cons]
  rw [allProperties, List.map_cons, List.nodup_cons] at hnodup
  rcases List.mem_cons.mp h with heq | hmem
  · cases heq
    simp
  · have hkey : lit "allocTime" ≠ key := by
      rintro rfl
      exact hnodup.1 (List.mem_map.mpr ⟨_, hmem, rfl⟩)
    rw [decide_eq_false hkey, find?_presentMembers hnodup.2 hmem]
    cases value <;> rfl

end Lookups

/-! ## Sections that always come back -/

section Sections

variable {cdValues : Nat → UInt32} {p q : CreationProperties}

theorem allocTimeOf_name (allocTime : AllocTime) : allocTimeOf allocTime.name = allocTime := by
  unfold allocTimeOf
  cases allocTime <;> (unfold AllocTime.name; repeat rw [lit_ofList]) <;> decide

theorem allocTimeSection_doc :
    allocTimeSection (creationPropertiesDoc cdValues p).bare q =
      .ok { q with allocTime := p.allocTime } := by
  rw [allocTimeSection, member_creationPropertiesDoc (.head _)]
  simp only [Option.map_some, Option.bind_some, Doc.bare, Doc.string?, allocTimeOf_name]

theorem creationOrderSection_doc (hp : p.Valid) (hq : q.crtOrderFlags = 0) :
    creationOrderSection (creationPropertiesDoc cdValues p).bare q =
      .ok { q with crtOrderFlags := p.crtOrderFlags } := by
  rw [creationOrderSection, member_creationPropertiesDoc (.tail _ (.head _)), crtOrderDoc]
  rcases hp.crtOrderFlags with hflags | hflags | hflags
  · rw [if_pos hflags, hflags, ← hq]
    rfl
  · have hname : lit "H5P_CRT_ORDER_" ++ crtOrderName 1 ≠ lit "H5P_CRT_ORDER_INDEXED" := by
      unfold crtOrderName
      repeat rw [lit_ofList]
      decide
    rw [hflags, if_neg (by decide)]
    simp only [Option.map_some, Option.bind_some, Doc.bare, Doc.string?, if_neg hname]
    rfl
  · have hname : lit "H5P_CRT_ORDER_" ++ crtOrderName crtOrderIndexed = lit "H5P_CRT_ORDER_INDEXED" := by
      unfold crtOrderName
      repeat rw [lit_ofList]
      decide
    rw [hflags, if_neg (by decide)]
    simp only [Option.map_some, Option.bind_some, Doc.bare, Doc.string?, if_pos hname]
    rfl

theorem threshold_natCast (value default : UInt32) : threshold (value.toNat : Int) default = value := by
  rw [threshold, if_pos (by omega), toUnsigned_natCast value.toNat_lt, UInt32.ofNat_toNat]

theorem phaseChangeSection_doc (hp : p.Valid) (hq : q.maxCompact = 8 ∧ q.minDense = 6) :
    phaseChangeSection (creationPropertiesDoc cdValues p).bare q =
      .ok { q with maxCompact := p.maxCompact, minDense := p.minDense } := by
  rw [phaseChangeSection, member_creationPropertiesDoc (.tail _ (.tail _ (.head _))), phaseChangeDoc]
  by_cases hdefault : p.maxCompact = 8 ∧ p.minDense = 6
  · rw [if_pos hdefault, hdefault.1, hdefault.2, ← hq.1, ← hq.2]
    rfl
  · have hkey : lit "maxCompact" ≠ lit "minDense" := by
      repeat rw [lit_ofList]
      decide
    have hbound (value : UInt32) : value.toNat < 2 ^ 63 :=
      value.toNat_lt.trans (by decide)
    rw [if_neg hdefault]
    simp only [Option.map_some, Option.bind_some, Doc.bare, Doc.bareMembers, Doc.object?, Doc.member,
      List.find?_cons, decide_true, decide_eq_false hkey, yajlInteger_decimal (hbound _),
      threshold_natCast]
    rw [if_pos, CreationProperties.h5pSetAttrPhaseChange, if_pos hp.phaseChange]
    by_contra hsame
    rw [not_or, not_not, not_not] at hsame
    exact hdefault hsame.symm

theorem fillTimeSection_doc (hq : q.fillTime = .ifset) :
    fillTimeSection (creationPropertiesDoc cdValues p).bare q =
      .ok { q with fillTime := p.fillTime } := by
  rw [fillTimeSection,
    member_creationPropertiesDoc (.tail _ (.tail _ (.tail _ (.head _)))), fillTimeDoc]
  have hname (fillTime : FillTime) (h : fillTime ≠ .ifset) : fillTimeOf (lit "H5D_FILL_TIME_" ++
      if fillTime = .alloc then lit "ALLOC" else lit "NEVER") = fillTime := by
    cases fillTime with
    | ifset => exact absurd rfl h
    | alloc | never =>
        unfold fillTimeOf
        repeat rw [lit_ofList]
        decide
  by_cases hifset : p.fillTime = .ifset
  · rw [if_pos hifset, hifset, ← hq]
    rfl
  · rw [if_neg hifset]
    simp only [Option.map_some, Option.bind_some, Doc.bare, Doc.string?, hname _ hifset]

theorem trackTimesSection_doc :
    trackTimesSection (creationPropertiesDoc cdValues p).bare q =
      .ok { q with trackTimes := p.trackTimes } := by
  have hfalse : lit "false" ≠ lit "true" := by
    repeat rw [lit_ofList]
    decide
  rw [trackTimesSection, member_creationPropertiesDoc (.tail _ (.tail _ (.tail _ (.tail _ (.tail _
    (.tail _ (.tail _ (.tail _ (.head _)))))))))]
  cases p.trackTimes <;>
    simp [trackTimesDoc, Doc.bare, Doc.string?, hfalse]

theorem bare_numbersDoc_items (values : List Nat) :
    (numbersDoc values).bare.items? = some (values.map fun value => .word (decimal value)) := by
  rw [numbersDoc, Doc.items?_bare, Doc.map_listed, List.map_map]
  rfl

theorem chunkDims_words {i : Nat} {dims : List Nat} (hdims : ∀ d ∈ dims, 0 < d ∧ d < 2 ^ 32)
    (hrank : i + dims.length ≤ maxChunkRank) :
    chunkDims i (dims.map fun value => .word (decimal value)) = .ok dims := by
  induction dims generalizing i with
  | nil => rfl
  | cons d dims ih =>
      have hd := (hdims d (by simp)).2
      rw [List.length_cons] at hrank
      rw [List.map_cons, chunkDims, yajlInteger_decimal (by omega),
        ih (fun e he => hdims e (by simp [he])) (by omega)]
      simp only [Outcome.ok_bind, Int.toNat_natCast]
      rw [if_neg (by omega), if_neg (by omega)]

theorem layoutSection_doc (hp : p.Valid) (hlayout : p.layout ≠ .virtual) :
    layoutSection (creationPropertiesDoc cdValues p).bare q = .ok { q with layout := p.layout } := by
  have hchunked : lit "H5D_CONTIGUOUS" ≠ lit "H5D_CHUNKED" ∧ lit "H5D_COMPACT" ≠ lit "H5D_CHUNKED" ∧
      lit "H5D_COMPACT" ≠ lit "H5D_CONTIGUOUS" := by
    repeat rw [lit_ofList]
    decide
  have hkeys : lit "class" ≠ lit "dims" ∧ lit "class" ≠ lit "externalStorage" := by
    repeat rw [lit_ofList]
    decide
  rw [layoutSection, member_creationPropertiesDoc (.tail _ (.tail _ (.tail _ (.tail _ (.tail _
    (.tail _ (.tail _ (.head _))))))))]
  cases hcase : p.layout with
  | virtual => exact absurd hcase hlayout
  | compact =>
      simp only [layoutDoc, Option.map_some, Option.bind_some, Doc.bare, Doc.bareMembers, Doc.object?,
        Doc.member, List.find?_cons, decide_true, Doc.string?, hchunked, if_false, if_true]
  | contiguous =>
      simp only [layoutDoc, Option.map_some, Option.bind_some, Doc.bare, Doc.bareMembers, Doc.object?,
        Doc.member, List.find?_cons, List.find?_nil, decide_true, decide_eq_false hkeys.2,
        Doc.string?, hchunked, if_false, if_true, Option.map_none, Option.bind_none,
        Option.isSome_none, Bool.false_eq_true]
  | chunked dims =>
      have hvalid := hp.chunk dims hcase
      simp only [layoutDoc, Option.map_some, Option.bind_some, Doc.bare, Doc.bareMembers, Doc.object?,
        Doc.member, List.find?_cons, decide_true, decide_eq_false hkeys.1, Doc.string?, if_true,
        bare_numbersDoc_items]
      rw [chunkDims_words hvalid.2.2.1 (by simpa using hvalid.2.1), Outcome.ok_bind,
        CreationProperties.h5pSetChunk, if_pos hvalid]

end Sections

/-! ## Fill values -/

theorem length_decodedBytes_eq (bytes : List UInt8) :
    (decodedBytes bytes).length = if bytes.length % 3 = 2 then bytes.length - 1 else bytes.length := by
  induction bytes using decodedBytes.induct with
  | case1 | case2 a | case3 a b => rfl
  | case4 a b c bytes ih =>
      simp only [decodedBytes, List.length_cons, ih]
      split_ifs <;> omega

/-- The bytes that the decoder finds are a beginning of the bytes. -/
theorem decodedBytes_eq_take (bytes : List UInt8) :
    decodedBytes bytes = bytes.take (decodedBytes bytes).length := by
  induction bytes using decodedBytes.induct with
  | case1 | case2 a | case3 a b => rfl
  | case4 a b c bytes ih =>
      rw [decodedBytes]
      simp only [List.length_cons, List.take_succ_cons]
      rw [← ih]

/-- The terminator stands for the last of two bytes at the end. -/
theorem take_decodedBytes_iff (bytes : List UInt8) :
    bytes.length ≤ (decodedBytes bytes ++ [0]).length ∧
      ((decodedBytes bytes ++ [0]).take bytes.length = bytes ↔
        (bytes.length % 3 = 2 → bytes.getLast? = some 0)) := by
  have hlength := length_decodedBytes_eq bytes
  by_cases htwo : bytes.length % 3 = 2
  · rw [if_pos htwo] at hlength
    have hall : (decodedBytes bytes ++ [0]).length = bytes.length := by
      rw [List.length_append, List.length_singleton, hlength]
      omega
    refine ⟨hall.ge, ?_⟩
    rw [List.take_of_length_le hall.le, decodedBytes_append_zero_iff, and_iff_right htwo]
    exact ⟨fun h _ => h, fun h => h htwo⟩
  · rw [if_neg htwo] at hlength
    have hall : decodedBytes bytes = bytes := by
      rw [decodedBytes_eq_take, hlength, List.take_length]
    refine ⟨by rw [hall, List.length_append]; omega, iff_of_true ?_ fun h => absurd h htwo⟩
    rw [hall, List.take_left]

/-- The bytes of a fill value come back exactly when they fit. -/
theorem decodedFillValue_eq_iff (bytes : List UInt8) :
    decodedFillValue (base64Text bytes) bytes.length = .ok (.userDefined bytes) ↔ FillFits bytes := by
  obtain ⟨hdecoded, hundefined⟩ :=
    decodeLoop_base64Text (base64Buffer_pos 0) bytes (filled_base64Buffer UInt8 0)
  obtain ⟨hle, htake⟩ := take_decodedBytes_iff bytes
  by_cases hlooked : ∀ d ∈ lookedUp bytes, d < 62
  · obtain ⟨decoded, hloop, hfilled, hbytes⟩ := hdecoded hlooked
    have hbytes : decoded.written = decodedBytes bytes := by simpa [base64Buffer] using hbytes
    have hdecode : rvBase64Decode (base64Text bytes) 0 = some (decoded.store 0) := by
      rw [rvBase64Decode, hloop, Option.map_some]
    have hroom : (decoded.store 0).inside = true ↔
        ∀ k, (decodedBytes bytes).length ≠ base64EncodeDefaultBufferSize * 2 ^ k := by
      rw [Growing.store_inside, hfilled.inside, Bool.true_and, decide_eq_true_iff,
        lt_iff_le_and_ne, and_iff_right hfilled.length.fits, Ne, hfilled.length.eq_iff, not_exists,
        hbytes]
      rfl
    rw [decodedFillValue, hdecode, FillFits, and_iff_right hlooked]
    simp only [Growing.store_written, hbytes]
    rw [← htake, ← hroom]
    by_cases hinside : (decoded.store 0).inside = true
    · rw [if_pos ⟨hinside, hle⟩, and_iff_left hinside]
      exact ⟨fun h => FillValue.userDefined.inj (Outcome.ok.inj h), fun h => by rw [h]⟩
    · rw [if_neg fun h => hinside h.1]
      exact iff_of_false (by rintro ⟨⟩) fun h => hinside h.2
  · have hnone : rvBase64Decode (base64Text bytes) 0 = none := by
      have hlarge : ∃ d ∈ lookedUp bytes, ¬ d < 62 := by
        by_contra hsmall
        exact hlooked fun d hd => not_not.mp fun hlarge => hsmall ⟨d, hd, hlarge⟩
      rw [rvBase64Decode, hundefined hlarge, Option.map_none]
    rw [decodedFillValue, hnone]
    exact iff_of_false (by rintro ⟨⟩) fun h => hlooked h.1

/-- What the callback makes of a fill value. -/
def readFillValue : FillValue → Outcome FillValue
  | .default => .ok .default
  | .undefined => .fail
  | .userDefined bytes => decodedFillValue (base64Text bytes) bytes.length

theorem fillValueSection_doc {cdValues : Nat → UInt32} {p q : CreationProperties}
    (hq : q.fillValue = .default) :
    fillValueSection p.fillValue.size (creationPropertiesDoc cdValues p).bare q =
      (readFillValue p.fillValue).bind fun fillValue => .ok { q with fillValue := fillValue } := by
  rw [fillValueSection, member_creationPropertiesDoc (.tail _ (.tail _ (.tail _ (.tail _ (.head _)))))]
  cases p.fillValue with
  | default =>
      rw [readFillValue, Outcome.ok_bind]
      change Outcome.ok q = _
      rw [← hq]
  | undefined => rfl
  | userDefined bytes =>
      simp only [fillValueDoc, Option.map_some, Doc.bare, Doc.string?, base64String_eq, FillValue.size,
        readFillValue]

/-! ## Filters -/

section Filters

variable {cdValues : Nat → UInt32} {f : Filter} {entry : FilterEntry} {more : Nat}

theorem warn_self (s : Parsing) (name : Text) : s.warn name name = s := by
  simp [Parsing.warn]

/-- The list with filters added. -/
def CreationProperties.addFilters (p : CreationProperties) (filters : List Filter) :
    CreationProperties :=
  { p with filters := p.filters ++ filters }

theorem addFilters_nil (p : CreationProperties) : p.addFilters [] = p := by
  rw [CreationProperties.addFilters, List.append_nil]

theorem addFilters_append (p : CreationProperties) (first second : List Filter) :
    (p.addFilters first).addFilters second = p.addFilters (first ++ second) := by
  simp only [CreationProperties.addFilters, List.append_assoc]

theorem member_entry_class (entry : FilterEntry) :
    entry.doc.bare.member (lit "class") = some (.string entry.className) := by
  rw [Doc.member_bare, FilterEntry.doc, Doc.member, List.find?_cons]
  simp [Doc.bare]

theorem member_entry_id (entry : FilterEntry) :
    entry.doc.bare.member (lit "id") = some (.word (decimal entry.id)) := by
  have hkey : lit "class" ≠ lit "id" := by
    repeat rw [lit_ofList]
    decide
  rw [Doc.member_bare, FilterEntry.doc, Doc.member, List.find?_cons, decide_eq_false hkey,
    List.find?_cons]
  simp [Doc.bare]

/-- The value of a field of a filter, under a key of its own. -/
theorem member_entry_field {key : Text} {value : FilterValue}
    (hkey : lit "class" ≠ key ∧ lit "id" ≠ key)
    (h : entry.fields.find? (fun field => field.1 = key) = some (key, value)) :
    entry.doc.bare.member key = some value.doc := by
  have hvalue : value.doc.bare = value.doc := by
    cases value <;> rfl
  have hfields : (entry.fields.map fun field => (lit ",", field.1, blank, field.2.doc)).find?
      (fun m => m.2.1 = key) = some (lit ",", key, blank, value.doc) := by
    rw [List.find?_map, Function.comp_def]
    exact congrArg _ h
  rw [Doc.member_bare, FilterEntry.doc, Doc.member, List.find?_cons, decide_eq_false hkey.1,
    List.find?_cons, decide_eq_false hkey.2, hfields]
  simp only [Option.map_some, hvalue]

theorem PrintedAs.id_lt {id : Int} (h : PrintedAs cdValues id entry more) :
    (entry.id : Int) = id ∧ entry.id < 2 ^ 63 := by
  cases h <;> (refine ⟨rfl, ?_⟩; simp only; decide)

theorem filterLoop_entry {id : Int} (h : PrintedAs cdValues id entry more) (filters : List Doc)
    (s : Parsing) : filterLoop (entry.doc.bare :: filters) s =
      (filterBranch entry.doc.bare entry.className id s).bind (filterLoop filters) := by
  rw [filterLoop, member_entry_class, member_entry_id, Option.bind_some, Option.bind_some,
    yajlInteger_decimal h.id_lt.2, h.id_lt.1]
  rfl

theorem set_eq_ok {s s' : Parsing} {dcpl : Outcome CreationProperties} (h : s.set dcpl = .ok s') :
    dcpl = .ok s'.dcpl ∧ s'.succeeds = s.succeeds := by
  obtain ⟨p, hp, hs⟩ := Outcome.bind_eq_ok_iff.mp h
  rw [← Outcome.ok.inj hs]
  exact ⟨hp, rfl⟩

theorem toUnsigned_toNat (value : UInt32) : toUnsigned (value.toNat : Int) = value := by
  rw [toUnsigned_natCast value.toNat_lt, UInt32.ofNat_toNat]

theorem yajlInteger_number (value : UInt32) :
    yajlInteger (FilterValue.number value).doc = some (value.toNat : Int) :=
  yajlInteger_decimal (value.toNat_lt.trans (by decide))

theorem deflateBranch_entry (s : Parsing) :
    deflateBranch (FilterEntry.mk (lit "H5Z_FILTER_DEFLATE") 1
      [(lit "level", .number (cdValues 0))]).doc.bare s = s.set (s.dcpl.h5pSetDeflate (cdValues 0)) := by
  have hkey : lit "class" ≠ lit "level" ∧ lit "id" ≠ lit "level" := by
    repeat rw [lit_ofList]
    decide
  have hlevel : [(lit "level", FilterValue.number (cdValues 0))].find?
      (fun field => field.1 = lit "level") = some (lit "level", .number (cdValues 0)) := by simp
  rw [deflateBranch, member_entry_field hkey hlevel,
    Option.bind_some, yajlInteger_number]
  simp only [toUnsigned_toNat]
  exact if_neg (by omega)

theorem szipBranch_entry {mask : Text} (hmask : szipOptionMask (cdValues 0) = some mask) (s : Parsing) :
    szipBranch (FilterEntry.mk (lit "H5Z_FILTER_SZIP") 4
      [(lit "bitsPerPixel", .number (cdValues 2)), (lit "coding", .name mask),
        (lit "pixelsPerBlock", .number (cdValues 1)),
        (lit "pixelsPerScanline", .number (cdValues 3))]).doc.bare s =
      s.set (s.dcpl.h5pSetSzip (cdValues 0) (cdValues 1)) := by
  have hkeys : lit "bitsPerPixel" ≠ lit "coding" ∧ lit "bitsPerPixel" ≠ lit "pixelsPerBlock" ∧
      lit "coding" ≠ lit "pixelsPerBlock" := by
    repeat rw [lit_ofList]
    decide
  have hnames : lit "H5_SZIP_NN_OPTION_MASK" ≠ lit "H5_SZIP_EC_OPTION_MASK" := by
    repeat rw [lit_ofList]
    decide
  have hcases : ¬ (mask ≠ lit "H5_SZIP_EC_OPTION_MASK" ∧ mask ≠ lit "H5_SZIP_NN_OPTION_MASK") ∧
      (if mask = lit "H5_SZIP_EC_OPTION_MASK" then 4 else 32) = cdValues 0 := by
    rw [szipOptionMask] at hmask
    split_ifs at hmask with hec hnn
    · cases hmask
      exact ⟨fun h => h.1 rfl, (if_pos rfl).trans hec.symm⟩
    · cases hmask
      exact ⟨fun h => h.2 rfl, (if_neg hnames).trans hnn.symm⟩
  have hcoding : lit "class" ≠ lit "coding" ∧ lit "id" ≠ lit "coding" := by
    repeat rw [lit_ofList]
    decide
  have hpixels : lit "class" ≠ lit "pixelsPerBlock" ∧ lit "id" ≠ lit "pixelsPerBlock" := by
    repeat rw [lit_ofList]
    decide
  have hmask : [(lit "bitsPerPixel", FilterValue.number (cdValues 2)), (lit "coding", .name mask),
        (lit "pixelsPerBlock", .number (cdValues 1)),
        (lit "pixelsPerScanline", .number (cdValues 3))].find? (fun field => field.1 = lit "coding") =
      some (lit "coding", .name mask) := by simp [hkeys]
  have hblock : [(lit "bitsPerPixel", FilterValue.number (cdValues 2)), (lit "coding", .name mask),
        (lit "pixelsPerBlock", .number (cdValues 1)),
        (lit "pixelsPerScanline", .number (cdValues 3))].find?
          (fun field => field.1 = lit "pixelsPerBlock") =
      some (lit "pixelsPerBlock", .number (cdValues 1)) := by simp [hkeys]
  rw [szipBranch, member_entry_field hcoding hmask]
  change (if _ then _ else _) = _
  rw [if_neg hcases.1, member_entry_field hpixels hblock, Option.bind_some, yajlInteger_number]
  simp only [toUnsigned_toNat, hcases.2]
  exact if_neg (by omega)

theorem scaleOffsetBranch_entry {type : Text} (htype : scaleType (cdValues 0) = some type)
    (s : Parsing) :
    scaleOffsetBranch (FilterEntry.mk (lit "H5Z_FILTER_SCALEOFFSET") 6
      [(lit "scaleType", .name type), (lit "scaleOffset", .number (cdValues 1))]).doc.bare s =
      if cdValues 0 < 2 then
        s.set (s.dcpl.h5pSetScaleoffset (cdValues 0) (toInt (cdValues 1).toNat))
      else .ok { s with succeeds := false } := by
  have hkeys : lit "scaleType" ≠ lit "scaleOffset" := by
    repeat rw [lit_ofList]
    decide
  have hcases : scaleTypeOf type = if cdValues 0 < 2 then some (cdValues 0) else none := by
    rw [scaleType] at htype
    split_ifs at htype with hd he hi
    · cases htype
      rw [hd, scaleTypeOf]
      repeat rw [lit_ofList]
      decide
    · cases htype
      rw [he, scaleTypeOf]
      repeat rw [lit_ofList]
      decide
    · cases htype
      rw [hi, scaleTypeOf]
      repeat rw [lit_ofList]
      decide
  have hsize : toSize ((cdValues 1).toNat : Int) = (cdValues 1).toNat :=
    toSize_natCast ((cdValues 1).toNat_lt.trans (by decide))
  have htypeKey : lit "class" ≠ lit "scaleType" ∧ lit "id" ≠ lit "scaleType" := by
    repeat rw [lit_ofList]
    decide
  have hoffsetKey : lit "class" ≠ lit "scaleOffset" ∧ lit "id" ≠ lit "scaleOffset" := by
    repeat rw [lit_ofList]
    decide
  have hoffset : [(lit "scaleType", FilterValue.name type),
        (lit "scaleOffset", .number (cdValues 1))].find? (fun field => field.1 = lit "scaleOffset") =
      some (lit "scaleOffset", .number (cdValues 1)) := by simp [hkeys]
  have hname : [(lit "scaleType", FilterValue.name type),
        (lit "scaleOffset", .number (cdValues 1))].find? (fun field => field.1 = lit "scaleType") =
      some (lit "scaleType", .name type) := by simp
  have htext : (FilterValue.name type).doc.string? = some type := rfl
  rw [scaleOffsetBranch, member_entry_field htypeKey hname, Option.bind_some, htext]
  simp only
  rw [hcases]
  split_ifs with hfloat
  · simp only
    rw [member_entry_field hoffsetKey hoffset, Option.bind_some, yajlInteger_number]
    simp only [hsize]
  · rfl

/-- The scale factor of a list is a natural number below two to the power of 31. -/
theorem h5pSetScaleoffset_eq_ok {p q : CreationProperties} {type factor : UInt32}
    (h : p.h5pSetScaleoffset type (toInt factor.toNat) = .ok q) :
    factor < 2 ^ 31 ∧ q = p.addFilters [⟨6, true, [type, factor]⟩] := by
  have hlt := factor.toNat_lt
  have hmod : factor.toNat % 2 ^ 32 = factor.toNat := Nat.mod_eq_of_lt hlt
  rw [CreationProperties.h5pSetScaleoffset] at h
  by_cases hsmall : factor.toNat < 2 ^ 31
  · have hint : toInt factor.toNat = factor.toNat := by
      rw [toInt_of_lt (by rw [hmod]; exact hsmall), hmod]
    rw [hint, if_neg (by omega)] at h
    refine ⟨UInt32.lt_iff_toNat_lt.mpr hsmall, ?_⟩
    rw [← Outcome.ok.inj h, Int.toNat_natCast, UInt32.ofNat_toNat]
    rfl
  · rw [if_pos (toInt_neg_of_le (by rw [hmod]; omega))] at h
    cases h

/-- A filter that is read adds one filter at most, and when that is the one that was printed, it is
restorable. -/
theorem filterBranch_adds (h : PrintedAs (f.get cdValues) f.id entry more) {s s' : Parsing}
    (hs : filterBranch entry.doc.bare entry.className f.id s = .ok s') :
    ∃ added, s'.dcpl = s.dcpl.addFilters added ∧ added.length ≤ 1 ∧ (added = [f] → f.Restorable) := by
  have hone {g : Filter} (hdcpl : s'.dcpl = s.dcpl.addFilters [g]) (hg : g = f → f.Restorable) :
      ∃ added, s'.dcpl = s.dcpl.addFilters added ∧ added.length ≤ 1 ∧ (added = [f] → f.Restorable) :=
    ⟨[g], hdcpl, Nat.le_refl 1, fun heq => hg (List.cons.inj heq).1⟩
  generalize hid : f.id = id at h hs
  unfold filterBranch at hs
  cases h with
  | deflate =>
      rw [if_pos rfl, warn_self, deflateBranch_entry] at hs
      obtain ⟨hset, -⟩ := set_eq_ok hs
      rw [CreationProperties.h5pSetDeflate] at hset
      split_ifs at hset with hlevel
      exact hone (Outcome.ok.inj hset).symm fun heq => .inl ⟨_, UInt32.not_lt.mp hlevel, heq.symm⟩
  | shuffle =>
      rw [if_neg (by decide), if_pos rfl, warn_self] at hs
      exact hone (Outcome.ok.inj (set_eq_ok hs).1).symm fun heq => .inr (.inl heq.symm)
  | fletcher32 =>
      rw [if_neg (by decide), if_neg (by decide), if_pos rfl, warn_self] at hs
      exact hone (Outcome.ok.inj (set_eq_ok hs).1).symm fun heq => .inr (.inr (.inl heq.symm))
  | szip hmask =>
      rw [if_neg (by decide), if_neg (by decide), if_neg (by decide), if_pos rfl, warn_self,
        szipBranch_entry hmask] at hs
      obtain ⟨hset, -⟩ := set_eq_ok hs
      rw [CreationProperties.h5pSetSzip] at hset
      split_ifs at hset
      refine hone (Outcome.ok.inj hset).symm fun heq => ?_
      -- the mask of the list has bits that no printed mask has
      have hget : f.get cdValues 0 = f.get cdValues 0 ||| 129 := by
        conv_lhs => rw [Filter.get, ← heq]
        rfl
      rw [szipOptionMask] at hmask
      split_ifs at hmask with hec hnn
      · rw [hec] at hget
        exact absurd hget (by decide)
      · rw [hnn] at hget
        exact absurd hget (by decide)
  | nbit =>
      rw [if_neg (by decide), if_neg (by decide), if_neg (by decide), if_neg (by decide), if_pos rfl,
        warn_self] at hs
      exact hone (Outcome.ok.inj (set_eq_ok hs).1).symm fun heq => .inr (.inr (.inr (.inl heq.symm)))
  | scaleOffset htype =>
      rw [if_neg (by decide), if_neg (by decide), if_neg (by decide), if_neg (by decide),
        if_neg (by decide), if_pos rfl, warn_self, scaleOffsetBranch_entry htype] at hs
      split_ifs at hs with hfloat
      · obtain ⟨hfactor, hdcpl⟩ := h5pSetScaleoffset_eq_ok (set_eq_ok hs).1
        exact hone hdcpl fun heq =>
          .inr (.inr (.inr (.inr (.inr ⟨_, _, hfloat, hfactor, heq.symm⟩))))
      · refine ⟨[], ?_, Nat.zero_le 1, (by rintro ⟨⟩)⟩
        rw [← Outcome.ok.inj hs, addFilters_nil]
  | lzf =>
      rw [if_neg (by decide), if_neg (by decide), if_neg (by decide), if_neg (by decide),
        if_neg (by decide), if_neg (by decide), if_pos rfl, warn_self] at hs
      exact hone (Outcome.ok.inj (set_eq_ok hs).1).symm fun heq =>
        .inr (.inr (.inr (.inr (.inl heq.symm))))

/-- The filters that are read are no more than those of the pipeline, and when they are those, each
is restorable. -/
theorem filterLoop_adds (filters : List Filter) {s s' : Parsing}
    (hs : filterLoop ((printedFilters cdValues filters).map fun entry => entry.doc.bare) s = .ok s') :
    ∃ added, s'.dcpl = s.dcpl.addFilters added ∧ added.length ≤ filters.length ∧
      (added = filters → ∀ f ∈ filters, f.Restorable) := by
  induction filters generalizing cdValues s with
  | nil =>
      refine ⟨[], ?_, Nat.le_refl 0, fun _ => nofun⟩
      rw [← Outcome.ok.inj hs, addFilters_nil]
  | cons f filters ih =>
      rw [printedFilters] at hs
      split at hs
      · next hcase =>
          have hprinted := filterCase_eq_entry hcase
          rw [List.map_cons, filterLoop_entry hprinted] at hs
          obtain ⟨t, ht, hrest⟩ := Outcome.bind_eq_ok_iff.mp hs
          obtain ⟨first, hfirst, hone, hrestorable⟩ := filterBranch_adds hprinted ht
          obtain ⟨later, hlater, hle, hall⟩ := ih hrest
          refine ⟨first ++ later, ?_, ?_, fun heq => ?_⟩
          · rw [hlater, hfirst, addFilters_append]
          · rw [List.length_append, List.length_cons]
            omega
          · have hlength := congrArg List.length heq
            rw [List.length_append, List.length_cons] at hlength
            obtain ⟨g, rfl⟩ := List.length_eq_one_iff.mp (by omega : first.length = 1)
            obtain ⟨rfl, rfl⟩ := List.cons.inj heq
            exact List.forall_mem_cons.mpr ⟨hrestorable rfl, hall rfl⟩
      · obtain ⟨later, hlater, hle, hall⟩ := ih hs
        refine ⟨later, hlater, ?_, fun heq => ?_⟩
        · rw [List.length_cons]
          omega
        · rw [heq, List.length_cons] at hle
          omega

/-- A restorable filter is printed, and read as it was. -/
theorem Filter.Restorable.restored (h : f.Restorable) (cdValues : Nat → UInt32) :
    ∃ entry more, filterCase f.id f.optional (f.get cdValues) = .entry entry more ∧
      ∀ s : Parsing, filterBranch entry.doc.bare entry.className f.id s =
        .ok { s with dcpl := s.dcpl.addFilters [f] } := by
  rcases h with ⟨level, hlevel, rfl⟩ | rfl | rfl | rfl | rfl | ⟨type, factor, htype, hfactor, rfl⟩
  · refine ⟨_, _, rfl, fun s => ?_⟩
    unfold filterBranch
    rw [if_pos rfl, warn_self, deflateBranch_entry, CreationProperties.h5pSetDeflate]
    exact if_neg (UInt32.not_lt.mpr hlevel) ▸ rfl
  · refine ⟨_, _, rfl, fun s => ?_⟩
    unfold filterBranch
    rw [if_neg (by decide), if_pos rfl, warn_self]
    rfl
  · refine ⟨_, _, rfl, fun s => ?_⟩
    unfold filterBranch
    rw [if_neg (by decide), if_neg (by decide), if_pos rfl, warn_self]
    rfl
  · refine ⟨_, _, rfl, fun s => ?_⟩
    unfold filterBranch
    rw [if_neg (by decide), if_neg (by decide), if_neg (by decide), if_neg (by decide), if_pos rfl,
      warn_self]
    rfl
  · refine ⟨_, _, rfl, fun s => ?_⟩
    unfold filterBranch
    rw [if_neg (by decide), if_neg (by decide), if_neg (by decide), if_neg (by decide),
      if_neg (by decide), if_neg (by decide), if_pos rfl, warn_self]
    rfl
  · have hcases : type = 0 ∨ type = 1 := by
      have htype := UInt32.lt_iff_toNat_lt.mp htype
      rw [← UInt32.toNat_inj, ← UInt32.toNat_inj]
      change type.toNat < 2 at htype
      change type.toNat = 0 ∨ type.toNat = 1
      omega
    have hset (p : CreationProperties) : p.h5pSetScaleoffset type (toInt factor.toNat) =
        .ok (p.addFilters [⟨6, true, [type, factor]⟩]) := by
      have hsmall : factor.toNat < 2 ^ 31 := UInt32.lt_iff_toNat_lt.mp hfactor
      have hmod : factor.toNat % 2 ^ 32 = factor.toNat := Nat.mod_eq_of_lt factor.toNat_lt
      rw [CreationProperties.h5pSetScaleoffset, toInt_of_lt (by rw [hmod]; exact hsmall), hmod,
        if_neg (by omega), Int.toNat_natCast, UInt32.ofNat_toNat]
      rfl
    have hbranch (name : Text) (hname : scaleType type = some name) (s : Parsing) :=
      @scaleOffsetBranch_entry ((Filter.mk 6 true [type, factor]).get cdValues) _ hname s
    have hread (name : Text) (hname : scaleType type = some name) (s : Parsing) :
        filterBranch (FilterEntry.mk (lit "H5Z_FILTER_SCALEOFFSET") 6
          [(lit "scaleType", .name name), (lit "scaleOffset", .number factor)]).doc.bare
          (lit "H5Z_FILTER_SCALEOFFSET") 6 s =
            .ok { s with dcpl := s.dcpl.addFilters [⟨6, true, [type, factor]⟩] } := by
      unfold filterBranch
      rw [if_neg (by decide), if_neg (by decide), if_neg (by decide), if_neg (by decide),
        if_neg (by decide), if_pos rfl, warn_self]
      refine (hbranch name hname s).trans ((if_pos htype).trans ?_)
      exact congrArg s.set (hset s.dcpl)
    rcases hcases with rfl | rfl
    · exact ⟨_, _, rfl, hread _ rfl⟩
    · exact ⟨_, _, rfl, hread _ rfl⟩

/-- Restorable filters are all printed, with no comma behind the last, and all read. -/
theorem filterLoop_restorable {filters : List Filter} (h : ∀ f ∈ filters, f.Restorable)
    (cdValues : Nat → UInt32) (s : Parsing) :
    filterLoop ((printedFilters cdValues filters).map fun entry => entry.doc.bare) s =
      .ok { s with dcpl := s.dcpl.addFilters filters } := by
  induction filters generalizing cdValues s with
  | nil => exact congrArg Outcome.ok (by rw [addFilters_nil])
  | cons f filters ih =>
      obtain ⟨entry, more, hcase, hread⟩ := (h f (by simp)).restored cdValues
      rw [printedFilters, hcase]
      simp only
      rw [List.map_cons, filterLoop_entry (filterCase_eq_entry hcase), hread, Outcome.ok_bind,
        ih fun g hg => h g (by simp [hg])]
      simp only [addFilters_append, List.singleton_append]

theorem filterSteps_restorable {filters : List Filter} (h : ∀ f ∈ filters, f.Restorable)
    (cdValues : Nat → UInt32) :
    .fail ∉ filterSteps cdValues filters ∧ .undefined ∉ filterSteps cdValues filters ∧
      filtersClose cdValues filters = [] ∧
        (filters ≠ [] → printedFilters cdValues filters ≠ []) := by
  induction filters generalizing cdValues with
  | nil => exact ⟨List.not_mem_nil, List.not_mem_nil, rfl, fun hnil => absurd rfl hnil⟩
  | cons f filters ih =>
      obtain ⟨entry, more, hcase, -⟩ := (h f (by simp)).restored cdValues
      obtain ⟨hfail, hundefined, hclose, hprinted⟩ :=
        ih (fun g hg => h g (by simp [hg])) (f.get cdValues)
      have hsymbol : .fail ∉ (if filters = [] then [] else symbol (lit ",")) ∧
          .undefined ∉ (if filters = [] then [] else symbol (lit ",")) := by
        split_ifs <;> simp [symbol]
      simp only [filterSteps, filtersClose, printedFilters, hcase, FilterEntry.steps, formatted,
        List.mem_append, List.mem_cons, not_or]
      refine ⟨⟨⟨⟨(by rintro ⟨⟩), (by rintro ⟨⟩), List.not_mem_nil⟩, hsymbol.1⟩, hfail⟩,
        ⟨⟨⟨(by rintro ⟨⟩), (by rintro ⟨⟩), List.not_mem_nil⟩, hsymbol.2⟩, hundefined⟩, ?_, fun _ => List.cons_ne_nil _ _⟩
      rw [if_neg fun hnone => hprinted hnone.2 hnone.1]
      exact hclose

theorem filtersSection_doc {p q : CreationProperties} :
    filtersSection (creationPropertiesDoc cdValues p).bare q =
      filterLoop ((printedFilters cdValues p.filters).map fun entry => entry.doc.bare) ⟨true, q⟩ := by
  rw [filtersSection, member_creationPropertiesDoc (.tail _ (.tail _ (.tail _ (.tail _ (.tail _
    (.tail _ (.head _))))))), filtersDoc]
  by_cases hnil : p.filters = []
  · rw [if_pos hnil, hnil]
    rfl
  · rw [if_neg hnil]
    by_cases hprinted : printedFilters cdValues p.filters = []
    · rw [if_pos hprinted, hprinted]
      rfl
    · rw [if_neg hprinted, Option.map_some, Option.bind_some, Doc.items?_bare, Doc.map_listed,
        List.map_map]
      rfl

end Filters

/-! ## Texts that are not JSON -/

section NotJson

variable {cdValues : Nat → UInt32} {p : CreationProperties}

theorem plain_allocTimeMember (members : List (Text × Text × Text × Doc))
    (h : Doc.PlainMembers false members) : Doc.PlainMembers true (allocTimeMember p :: members) := by
  rw [allocTimeMember, Doc.PlainMembers, Doc.Plain]
  refine ⟨Json.blank_nil, by rw [lit_ofList]; decide, blank_blank, ?_, h⟩
  cases p.allocTime <;> (unfold AllocTime.name; dsimp only; rw [lit_ofList]; decide)

/-- The members up to some property are plain when the filters are not among them or end without a
comma. -/
theorem plain_textUpTo {count : Nat} (h : count ≤ 5 ∨ filtersClose cdValues p.filters = []) :
    Doc.PlainMembers true
      (allocTimeMember p :: presentMembers ((laterProperties cdValues p).take count)) := by
  apply plain_allocTimeMember
  apply plainMembers_presentMembers
  intro property hproperty
  obtain ⟨hkey, hvalue⟩ := plain_laterProperties p property (List.mem_of_mem_take hproperty)
  refine ⟨hkey, ?_⟩
  rcases hvalue with rfl | hplain
  · rcases h with hcount | hclose
    · have hkeys : lit "filters" ∉ [lit "attributeCreationOrder", lit "attributePhaseChange",
          lit "fillTime", lit "fillValue", lit "fillValue_encoding"] := by
        repeat rw [lit_ofList]
        decide
      have hfive : (lit "filters", filtersDoc cdValues p.filters) ∈ (laterProperties cdValues p).take 5 :=
        (List.take_sublist_take_left hcount).subset hproperty
      exact absurd (List.mem_map_of_mem (f := Prod.fst) hfive) hkeys
    · exact plain_filtersDoc hclose
  · exact hplain

/-- What the scan knows behind the members of the object. -/
theorem run_textUpTo {count : Nat} (h : count ≤ 5 ∨ filtersClose cdValues p.filters = []) :
    ∃ comma, Scan.run ⟨none, false, 0, true⟩ ('{' :: textUpTo count cdValues p) =
      ⟨none, comma, 2, true⟩ := by
  have hopen : Scan.run ⟨none, false, 0, true⟩ ('{' :: (creationPropertiesKey ++ ['{'])) =
      ⟨none, false, 2, true⟩ := by
    unfold creationPropertiesKey blank
    repeat rw [lit_ofList]
    decide
  obtain ⟨comma, hcomma⟩ := Scan.run_plainMembers (plain_textUpTo h) false true 2
  refine ⟨comma, ?_⟩
  rw [textUpTo, ← List.cons_append, ← List.singleton_append (l := Doc.renderMembers _),
    ← List.append_assoc, List.cons_append, Scan.run_append, hopen, hcomma]

/-- A comma behind the last filter is followed by the bracket. -/
theorem not_jsonText_comma (h : filtersClose cdValues p.filters ≠ []) (rest : Text) :
    ¬ JsonText ('{' :: (textUpTo 6 cdValues p ++ rest)) := by
  intro hjson
  have hcomma : filtersClose cdValues p.filters = [','] := by
    have hcases (filters : List Filter) (cdValues : Nat → UInt32) :
        filtersClose cdValues filters = [] ∨ filtersClose cdValues filters = [','] := by
      induction filters generalizing cdValues with
      | nil => exact .inl rfl
      | cons f filters ih =>
          rw [filtersClose]
          split
          · split_ifs
            · exact .inr rfl
            · exact ih _
          · exact ih _
    exact (hcases _ _).resolve_left h
  have hnil : p.filters ≠ [] := by
    intro hnil
    rw [hnil] at h
    exact h rfl
  have hprinted : printedFilters cdValues p.filters ≠ [] := fun hnone => h (filtersClose_nil hnone)
  obtain ⟨comma, hrun⟩ := @run_textUpTo cdValues p 5 (.inl (Nat.le_refl 5))
  obtain ⟨comma', hitems⟩ := Scan.run_plainItems (plain_filterItems cdValues p.filters) false true 3
  have hlead : Scan.run ⟨none, comma, 2, true⟩ (lead (lit "filters") ++ ['[']) =
      ⟨none, false, 3, true⟩ := by
    unfold lead
    repeat rw [lit_ofList]
    cases comma <;> decide
  have hclose : Scan.run ⟨none, comma', 3, true⟩ [',', ']'] = ⟨none, false, 2, false⟩ := rfl
  have htext : propertyText (lit "filters") (filtersDoc cdValues p.filters) =
      (lead (lit "filters") ++ ['[']) ++ (Doc.renderItems (Doc.listed blank
        ((printedFilters cdValues p.filters).map FilterEntry.doc)) ++ [',', ']']) := by
    rw [filtersDoc, if_neg hnil, if_neg hprinted, hcomma]
    simp only [propertyText, Doc.render, List.append_assoc, List.cons_append, List.nil_append]
  have hunsound : (Scan.run ⟨none, false, 0, true⟩ ('{' :: (textUpTo 6 cdValues p ++ rest))).sound =
      false := by
    rw [@textUpTo_succ cdValues 5 p (lit "filters", filtersDoc cdValues p.filters) rfl, htext,
      ← List.cons_append, ← List.cons_append, Scan.run_append, Scan.run_append, hrun, Scan.run_append,
      hlead, Scan.run_append, hitems, hclose]
    exact Scan.run_unsound rfl rest
  rw [Scan.run_jsonText hjson] at hunsound
  cases hunsound

/-- A text that is cut behind the bracket of the external files leaves three containers open. -/
theorem not_jsonText_external (h : filtersClose cdValues p.filters = []) :
    ¬ JsonText ('{' :: (textUpTo 6 cdValues p ++
      (contiguousLayoutStr ++ externalStorageStr ++ ['}']))) := by
  intro hjson
  obtain ⟨comma, hrun⟩ := @run_textUpTo cdValues p 6 (.inr h)
  have hcut : (Scan.run ⟨none, comma, 2, true⟩ (contiguousLayoutStr ++ externalStorageStr ++ ['}'])).depth
      = 3 := by
    unfold contiguousLayoutStr externalStorageStr
    repeat rw [lit_ofList]
    cases comma <;> decide
  have hdepth := congrArg Scan.depth (Scan.run_jsonText hjson)
  rw [← List.cons_append, Scan.run_append, hrun, hcut] at hdepth
  cases hdepth

end NotJson

/-! ## The round trip -/

section RoundTrip

variable {parse : Text → Option Doc} {version : ServerApiVersion} {cdValues : Nat → UInt32}
  {p : CreationProperties}

/-- The response as a document. -/
def responseDoc (cdValues : Nat → UInt32) (p : CreationProperties) : Doc :=
  .object [([], lit "creationProperties", blank, creationPropertiesDoc cdValues p)] []

theorem render_responseDoc :
    (responseDoc cdValues p).render =
      responseOf (creationPropertiesKey ++ (creationPropertiesDoc cdValues p).render) := by
  simp only [responseDoc, responseOf, creationPropertiesKey, Doc.render, Doc.renderMembers,
    List.append_assoc, List.cons_append, List.nil_append, List.append_nil]

theorem plain_responseDoc (h : filtersClose cdValues p.filters = []) :
    (responseDoc cdValues p).Plain := by
  have hall := @plain_textUpTo cdValues p 8 (.inr h)
  rw [responseDoc, Doc.Plain, Doc.PlainMembers, creationPropertiesDoc, Doc.Plain]
  exact ⟨Json.blank_nil, Json.blank_nil, by rw [lit_ofList]; decide, blank_blank,
    ⟨Json.blank_nil, hall⟩, trivial⟩

/-- What the callback makes of the response: the fill value and the filters decide. -/
theorem rvParse_responseDoc (hparse : Doc.ReadsDocuments parse) (hp : p.Valid)
    (hlayout : p.layout ≠ .virtual) (hclose : filtersClose cdValues p.filters = []) :
    rvParseDatasetCreationPropertiesCallback parse p.fillValue.size (responseDoc cdValues p).render =
      (readFillValue p.fillValue).bind fun fillValue =>
        (filterLoop ((printedFilters cdValues p.filters).map fun entry => entry.doc.bare)
          ⟨true, { p with
            fillValue := fillValue
            filters := []
            layout := .contiguous
            externalFiles := []
            trackTimes := true }⟩).bind fun s =>
              if s.succeeds then
                .ok { s.dcpl with layout := p.layout, trackTimes := p.trackTimes }
              else .fail := by
  have hmember : (responseDoc cdValues p).bare.member (lit "creationProperties") =
      some (creationPropertiesDoc cdValues p).bare := by
    rw [Doc.member_bare, responseDoc, Doc.member]
    simp
  have hobject : (creationPropertiesDoc cdValues p).bare.object? =
      some (creationPropertiesDoc cdValues p).bare := rfl
  rw [rvParseDatasetCreationPropertiesCallback, hparse _ (plain_responseDoc hclose),
    Option.bind_some, hmember, Option.bind_some, hobject]
  simp only [allocTimeSection_doc, Outcome.ok_bind]
  rw [creationOrderSection_doc hp rfl, Outcome.ok_bind, phaseChangeSection_doc hp ⟨rfl, rfl⟩,
    Outcome.ok_bind, fillTimeSection_doc rfl, Outcome.ok_bind, fillValueSection_doc rfl]
  cases readFillValue p.fillValue with
  | undefined | fail => rfl
  | ok fillValue =>
      rw [Outcome.ok_bind, Outcome.ok_bind, Outcome.ok_bind, filtersSection_doc]
      simp only [layoutSection_doc hp hlayout, Outcome.ok_bind, trackTimesSection_doc]
      rfl

/-- With external files nothing can be read behind the bracket of the list. -/
theorem text_external {body : Text} (hlayout : p.layout = .contiguous) (hfiles : p.externalFiles ≠ [])
    (h : rvConvertDatasetCreationPropertiesToJson version cdValues p = .ok body) :
    body = textUpTo 6 cdValues p ++ (contiguousLayoutStr ++ externalStorageStr) := by
  obtain ⟨c, hc, hbody⟩ := Outcome.bind_eq_ok_iff.mp h
  obtain ⟨hfail, hundefined⟩ := fail_not_mem hc
  obtain ⟨hearlier, -, hample⟩ := alwaysAmple_of_defined hfail hundefined
  have hlong : AlwaysAmple [.reserve contiguousLayoutStr.length, .strncat contiguousLayoutStr,
      .reserve (contiguousLayoutStr.length + externalStorageStr.length),
      .strncat externalStorageStr] :=
    fun pos len => ⟨Nat.le_max_right _ _, by omega, trivial⟩
  have hcomplete := ((hample.append hlong) 0 0).complete
  rw [creationPropertiesSteps_eq, hlayout, layoutSteps, externalStorageSteps, if_neg hfiles] at hc
  simp only [List.cons_append, List.nil_append, List.append_assoc] at hc
  have hlength : 0 < contiguousLayoutStr.length := by
    unfold contiguousLayoutStr
    rw [lit_ofList]
    decide
  have hfirst := printAll_advance hcomplete hlength
    (⟨rfl, rfl⟩ : (Printed.empty datasetCreationPropertiesBodyDefaultSize).Whole)
    (by simpa only [List.append_assoc, List.cons_append, List.nil_append] using hc)
  rw [← Outcome.ok.inj hbody, hfirst, printedText_append, printedText_earlierSteps hearlier]
  simp only [printedText_cons, printedText_nil, PrintStep.text, List.nil_append, List.append_nil]
  rfl

/-- What is written begins with the properties in front of the layout. -/
theorem text_eq_textUpTo {body : Text}
    (h : rvConvertDatasetCreationPropertiesToJson version cdValues p = .ok body) :
    ∃ rest, body = textUpTo 6 cdValues p ++ rest := by
  by_cases hfiles : p.layout = .contiguous → p.externalFiles = []
  · obtain ⟨-, hbody⟩ := (creationProperties_eq_ok_iff hfiles).mp h
    rw [hbody, ← textUpTo_all, @textUpTo_succ cdValues 7 p _ rfl, @textUpTo_succ cdValues 6 p _ rfl,
      List.append_assoc, List.append_assoc]
    exact ⟨_, rfl⟩
  · rw [Classical.not_imp] at hfiles
    exact ⟨_, text_external hfiles.1 hfiles.2 h⟩

/-- Restorable properties stop no section. -/
theorem CreationProperties.Restorable.defined (hp : p.Valid) (h : p.Restorable version cdValues) :
    .fail ∉ creationPropertiesSteps version cdValues p ∧
      .undefined ∉ creationPropertiesSteps version cdValues p := by
  obtain ⟨hvalue, hfilters, hlayout, hfiles, -⟩ := h
  have hfill : .fail ∉ fillValueSteps version p.fillValue := by
    cases hcase : p.fillValue with
    | default => exact List.not_mem_nil
    | undefined =>
        rw [hcase] at hvalue
        exact hvalue.elim
    | userDefined bytes =>
        rw [hcase] at hvalue
        rw [fillValueSteps, if_neg (not_not.mpr hvalue.1)]
        simp [appended]
  have hlist : .fail ∉ filtersSteps cdValues p.filters ∧
      .undefined ∉ filtersSteps cdValues p.filters := by
    obtain ⟨hfail, hundefined, -⟩ := filterSteps_restorable hfilters cdValues
    rw [filtersSteps]
    split_ifs
    · exact ⟨List.not_mem_nil, List.not_mem_nil⟩
    · simp [appended, symbol, hfail, hundefined]
  have hsection : .fail ∉ layoutSteps p.externalFiles p.layout := by
    cases hcase : p.layout with
    | virtual => exact absurd hcase hlayout
    | compact => simp [layoutSteps, appended]
    | contiguous => simp [layoutSteps, hfiles, externalStorageSteps, symbol]
    | chunked dims =>
        obtain ⟨hnil, -, hdims, -⟩ := hp.chunk dims hcase
        have hparts : ∀ part ∈ shapeParts dims, part.length < maxNumLength := by
          have hdigits (d : Nat) (hd : d ∈ dims) : (decimal d).length ≤ 10 :=
            (length_decimal_le_iff (by decide)).mpr
              (Nat.lt_of_lt_of_le (hdims d hd).2 (by decide : 2 ^ 32 ≤ 10 ^ 10))
          obtain ⟨d, rest, rfl⟩ := List.exists_cons_of_ne_nil hnil
          rw [shapeParts, List.forall_mem_cons]
          refine ⟨(hdigits d (by simp)).trans_lt (by decide), fun part hpart => ?_⟩
          obtain ⟨e, he, rfl⟩ := List.mem_map.mp hpart
          have hlength := hdigits e (by simp [he])
          rw [List.length_cons, maxNumLength]
          omega
        simp only [layoutSteps, if_neg hnil, arrayShape, if_pos hparts]
        simp [formatted]
  exact (alwaysAmple_creationProperties (alwaysAmple_earlierSteps hfill hlist.1 hlist.2) hsection
    (fun _ => hfiles) 0 0).defined

theorem CreationProperties.RoundTrips.restorable (hparse : Doc.ReadsDocuments parse) (hp : p.Valid)
    (h : p.RoundTrips parse version cdValues) : p.Restorable version cdValues := by
  obtain ⟨body, hbody, hjson, hread⟩ := h
  obtain ⟨rest, hrest⟩ := text_eq_textUpTo hbody
  have hclose : filtersClose cdValues p.filters = [] := by
    by_contra hclose
    rw [hrest, responseOf, List.append_assoc] at hjson
    exact not_jsonText_comma hclose _ hjson
  have hfiles : p.layout = .contiguous → p.externalFiles = [] := by
    intro hlayout
    by_contra hfiles
    rw [text_external hlayout hfiles hbody, responseOf, List.append_assoc] at hjson
    exact not_jsonText_external hclose hjson
  obtain ⟨⟨hfail, hundefined, hends⟩, htext⟩ := (creationProperties_eq_ok_iff hfiles).mp hbody
  have hlayout : p.layout ≠ .virtual := by
    intro hlayout
    obtain ⟨-, hsection, -⟩ := alwaysAmple_of_defined hfail hundefined
    rw [hlayout] at hsection
    exact hsection (List.mem_singleton.mpr rfl)
  rw [htext, ← render_responseDoc, rvParse_responseDoc hparse hp hlayout hclose] at hread
  obtain ⟨fillValue, hfill, hread⟩ := Outcome.bind_eq_ok_iff.mp hread
  obtain ⟨s, hs, hread⟩ := Outcome.bind_eq_ok_iff.mp hread
  obtain ⟨added, hadded, -, hall⟩ := filterLoop_adds p.filters hs
  split_ifs at hread with hsucceeds
  have heq := Outcome.ok.inj hread
  rw [hadded, CreationProperties.addFilters] at heq
  have hvalue : fillValue = p.fillValue := congrArg CreationProperties.fillValue heq
  have hadds : added = p.filters := congrArg CreationProperties.filters heq
  have hexternal : [] = p.externalFiles := congrArg CreationProperties.externalFiles heq
  refine ⟨?_, hall hadds, hlayout, hexternal.symm, hends⟩
  rw [hvalue] at hfill
  cases hcase : p.fillValue with
  | default => trivial
  | undefined =>
      rw [hcase] at hfill
      cases hfill
  | userDefined bytes =>
      rw [hcase] at hfill
      refine ⟨?_, (decodedFillValue_eq_iff bytes).mp hfill⟩
      by_contra hversion
      rw [creationPropertiesSteps_eq, earlierSteps, hcase, fillValueSteps, if_pos hversion] at hfail
      simp at hfail

theorem CreationProperties.Restorable.roundTrips (hparse : Doc.ReadsDocuments parse) (hp : p.Valid)
    (h : p.Restorable version cdValues) : p.RoundTrips parse version cdValues := by
  obtain ⟨hfail, hundefined⟩ := h.defined hp
  obtain ⟨hvalue, hfilters, hlayout, hfiles, hends⟩ := h
  obtain ⟨-, -, hclose, -⟩ := filterSteps_restorable hfilters cdValues
  refine ⟨_, (creationProperties_eq_ok_iff fun _ => hfiles).mpr ⟨⟨hfail, hundefined, hends⟩, rfl⟩, ?_⟩
  rw [← render_responseDoc]
  refine ⟨(plain_responseDoc hclose).jsonText, ?_⟩
  have hfill : readFillValue p.fillValue = .ok p.fillValue := by
    cases hcase : p.fillValue with
    | default => rfl
    | undefined =>
        rw [hcase] at hvalue
        exact hvalue.elim
    | userDefined bytes =>
        rw [hcase] at hvalue
        exact (decodedFillValue_eq_iff bytes).mpr hvalue.2
  rw [rvParse_responseDoc hparse hp hlayout hclose, hfill, Outcome.ok_bind,
    filterLoop_restorable hfilters, Outcome.ok_bind, if_pos rfl]
  simp only [CreationProperties.addFilters, List.nil_append, ← hfiles]

/-- Properties that the library can hand out come back exactly when they are restorable. -/
theorem CreationProperties.creation_roundTrips_iff (hparse : Doc.ReadsDocuments parse)
    (hp : p.Valid) :
    p.RoundTrips parse version cdValues ↔ p.Restorable version cdValues :=
  ⟨fun h => h.restorable hparse hp, fun h => h.roundTrips hparse hp⟩

/-- Chunks of four by five elements, shuffled and deflated. -/
theorem roundTrips_deflate :
    { CreationProperties.default with
      allocTime := .incr
      filters := [⟨2, true, []⟩, ⟨1, true, [6]⟩]
      layout := .chunked [4, 5] }.RoundTrips Doc.readDocument ⟨0, 8, 0⟩ fun _ => 0 := by
  refine (CreationProperties.creation_roundTrips_iff Doc.readsDocuments_readDocument ?_).mpr ?_
  · refine ⟨nofun, .inl rfl, by decide, by decide, fun dims h => ?_⟩
    cases h
    decide
  · refine ⟨trivial, ?_, nofun, rfl, by decide +kernel⟩
    simp only [List.forall_mem_cons]
    exact ⟨.inr (.inl rfl), .inl ⟨6, by decide, rfl⟩, nofun⟩

/-- The scale type for integers is written under another name than it is read under. -/
theorem not_roundTrips_scaleOffset :
    ¬ { CreationProperties.default with
      allocTime := .incr
      filters := [⟨6, true, [2, 3]⟩]
      layout := .chunked [4] }.RoundTrips Doc.readDocument ⟨0, 8, 0⟩ fun _ => 0 := by
  intro h
  have hvalid : { CreationProperties.default with
      allocTime := .incr
      filters := [⟨6, true, [2, 3]⟩]
      layout := .chunked [4] }.Valid := by
    refine ⟨nofun, .inl rfl, by decide, by decide, fun dims hdims => ?_⟩
    cases hdims
    decide
  have hfilter := (h.restorable Doc.readsDocuments_readDocument hvalid).2.1 ⟨6, true, [2, 3]⟩ (by simp)
  rcases hfilter with ⟨level, -, heq⟩ | heq | heq | heq | heq | ⟨type, factor, htype, -, heq⟩
  · cases heq
  · cases heq
  · cases heq
  · cases heq
  · cases heq
  · have htwo : type = 2 := (List.cons.inj (Filter.mk.inj heq).2.2).1.symm
    rw [htwo] at htype
    exact absurd htype (by decide)

end RoundTrip

end XHDF5.Client
