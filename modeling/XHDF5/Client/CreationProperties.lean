/-
# Reading creation properties

`RV_parse_dataset_creation_properties_callback` reads the creation properties of a dataset out of a
response and sets them on a new property list. It reads the text that the client writes itself, with
other names for some modes, with other flags for some filters, and with no place for some states.

The JSON parser is a parameter, and so is the size of the datatype that `RV_parse_datatype` reads out
of the same response. The calls of the HDF5 library do what they do to valid property lists.
-/

import Mathlib.Data.UInt
import XHDF5.Client.CreateDocument
import XHDF5.Math.JsonGrammar

namespace XHDF5.Client

open XHDF5.Math

/-! ## Property lists -/

/-- `H5S_MAX_RANK` and `DATASPACE_MAX_RANK`. -/
def maxChunkRank : Nat := 32

/-- What `H5Pset_chunk` demands of the chunk dimensions. -/
def ValidChunk (dims : List Nat) : Prop :=
  dims ≠ [] ∧ dims.length ≤ maxChunkRank ∧ (∀ d ∈ dims, 0 < d ∧ d < 2 ^ 32) ∧ dims.prod < 2 ^ 32

instance (dims : List Nat) : Decidable (ValidChunk dims) :=
  inferInstanceAs (Decidable (_ ∧ _ ∧ _ ∧ _))

/-- What `H5Pset_attr_phase_change` demands of its arguments. -/
def ValidPhaseChange (maxCompact minDense : UInt32) : Prop :=
  minDense ≤ maxCompact ∧ maxCompact ≤ 65535

instance (maxCompact minDense : UInt32) : Decidable (ValidPhaseChange maxCompact minDense) :=
  inferInstanceAs (Decidable (_ ∧ _))

/-- A property list that the library can hand out: the allocation time is named, indexing comes with
tracking, and the identifiers of filters are in their range. -/
structure CreationProperties.Valid (p : CreationProperties) : Prop where
  allocTime : p.allocTime ≠ .default
  crtOrderFlags : p.crtOrderFlags = 0 ∨ p.crtOrderFlags = 1 ∨ p.crtOrderFlags = crtOrderIndexed
  phaseChange : ValidPhaseChange p.maxCompact p.minDense
  filters : ∀ f ∈ p.filters, 0 ≤ f.id ∧ f.id ≤ 65535
  chunk : ∀ dims, p.layout = .chunked dims → ValidChunk dims

/-- `H5Pcreate` for `H5P_DATASET_CREATE`. -/
def CreationProperties.default : CreationProperties where
  allocTime := .late
  crtOrderFlags := 0
  maxCompact := 8
  minDense := 6
  fillTime := .ifset
  fillValue := .default
  filters := []
  layout := .contiguous
  externalFiles := []
  trackTimes := true

namespace CreationProperties

variable (p : CreationProperties)

/-- `H5Pset_attr_creation_order`. -/
def h5pSetAttrCreationOrder (flags : Nat) : Outcome CreationProperties :=
  if flags = 2 then .fail else .ok { p with crtOrderFlags := flags }

/-- `H5Pset_attr_phase_change`. -/
def h5pSetAttrPhaseChange (maxCompact minDense : UInt32) : Outcome CreationProperties :=
  if ValidPhaseChange maxCompact minDense then
    .ok { p with maxCompact := maxCompact, minDense := minDense }
  else .fail

/-- `H5Pset_filter`. -/
def h5pSetFilter (id : Int) (optional : Bool) (cdValues : List UInt32) : CreationProperties :=
  { p with filters := p.filters ++ [⟨id, optional, cdValues⟩] }

/-- `H5Pset_deflate`. -/
def h5pSetDeflate (level : UInt32) : Outcome CreationProperties :=
  if 9 < level then .fail else .ok (p.h5pSetFilter 1 true [level])

/-- `H5Pset_szip`: two more options are set in the mask. -/
def h5pSetSzip (mask pixelsPerBlock : UInt32) : Outcome CreationProperties :=
  if pixelsPerBlock % 2 = 1 ∨ 32 < pixelsPerBlock then .fail
  else .ok (p.h5pSetFilter 4 true [mask ||| 129, pixelsPerBlock])

/-- `H5Pset_scaleoffset`, for one of its scale types. -/
def h5pSetScaleoffset (type : UInt32) (factor : Int) : Outcome CreationProperties :=
  if factor < 0 then .fail else .ok (p.h5pSetFilter 6 true [type, UInt32.ofNat factor.toNat])

/-- `H5Pset_chunk`. -/
def h5pSetChunk (dims : List Nat) : Outcome CreationProperties :=
  if ValidChunk dims then .ok { p with layout := .chunked dims } else .fail

end CreationProperties

/-! ## The sections of the callback -/

/-- `YAJL_IS_INTEGER` and `YAJL_GET_INTEGER`: a number without a fraction that fits a `long long`. -/
def yajlInteger : Doc → Option Int
  | .word text =>
      (Json.readNumber text).bind fun r =>
        if r.2 = [] ∧ -2 ^ 63 ≤ r.1 ∧ r.1 < 2 ^ 63 then some r.1 else none
  | _ => none

/-- A cast to `unsigned`. -/
def toUnsigned (value : Int) : UInt32 := UInt32.ofNat (toSize value)

/-- The space allocation time of a string. -/
def allocTimeOf (text : Text) : AllocTime :=
  if text = lit "H5D_ALLOC_TIME_EARLY" then .early
  else if text = lit "H5D_ALLOC_TIME_INCR" then .incr
  else if text = lit "H5D_ALLOC_TIME_LATE" then .late
  else .default

/-- The space allocation time section. -/
def allocTimeSection (obj : Doc) (p : CreationProperties) : Outcome CreationProperties :=
  match (obj.member (lit "allocTime")).bind Doc.string? with
  | none => .ok p
  | some text => .ok { p with allocTime := allocTimeOf text }

/-- The attribute creation order section. -/
def creationOrderSection (obj : Doc) (p : CreationProperties) : Outcome CreationProperties :=
  match (obj.member (lit "attributeCreationOrder")).bind Doc.string? with
  | none => .ok p
  | some text =>
      p.h5pSetAttrCreationOrder (if text = lit "H5P_CRT_ORDER_INDEXED" then crtOrderIndexed else 1)

/-- A threshold: what is not negative replaces the default. -/
def threshold (value : Int) (default : UInt32) : UInt32 :=
  if 0 ≤ value then toUnsigned value else default

/-- The attribute phase change threshold section. -/
def phaseChangeSection (obj : Doc) (p : CreationProperties) : Outcome CreationProperties :=
  match (obj.member (lit "attributePhaseChange")).bind Doc.object? with
  | none => .ok p
  | some thresholds =>
      match (thresholds.member (lit "maxCompact")).bind yajlInteger with
      | none => .fail
      | some maxCompact =>
          match (thresholds.member (lit "minDense")).bind yajlInteger with
          | none => .fail
          | some minDense =>
              if threshold minDense 6 ≠ 6 ∨ threshold maxCompact 8 ≠ 8 then
                p.h5pSetAttrPhaseChange (threshold maxCompact 8) (threshold minDense 6)
              else .ok p

/-- The fill time of a string. -/
def fillTimeOf (text : Text) : FillTime :=
  if text = lit "H5D_FILL_TIME_ALLOC" then .alloc
  else if text = lit "H5D_FILL_TIME_NEVER" then .never
  else .ifset

/-- The fill time section. -/
def fillTimeSection (obj : Doc) (p : CreationProperties) : Outcome CreationProperties :=
  match (obj.member (lit "fillTime")).bind Doc.string? with
  | none => .ok p
  | some text => .ok { p with fillTime := fillTimeOf text }

/-- `H5Pset_fill_value` with what the decoder left: it takes as many bytes as the datatype has. -/
def decodedFillValue (text : Text) (size : Nat) : Outcome FillValue :=
  match rvBase64Decode text 0 with
  | none => .undefined
  | some out =>
      if out.inside = true ∧ size ≤ out.written.length then .ok (.userDefined (out.written.take size))
      else .undefined

/-- The fill value section. -/
def fillValueSection (fillTypeSize : Nat) (obj : Doc) (p : CreationProperties) :
    Outcome CreationProperties :=
  match obj.member (lit "fillValue") with
  | none => .ok p
  | some value =>
      match value.string? with
      | none => .fail
      | some text =>
          (decodedFillValue text fillTypeSize).bind fun fillValue =>
            .ok { p with fillValue := fillValue }

/-- What the callback will return, and the property list. -/
structure Parsing where
  succeeds : Bool
  dcpl : CreationProperties

/-- A class that is not that of the identifier is a warning; it sets `ret_value` to `SUCCEED`. -/
def Parsing.warn (s : Parsing) (filterClass name : Text) : Parsing :=
  { s with succeeds := s.succeeds || decide (filterClass ≠ name) }

/-- The property list with another filter. -/
def Parsing.set (s : Parsing) (dcpl : Outcome CreationProperties) : Outcome Parsing :=
  dcpl.bind fun dcpl => .ok { s with dcpl := dcpl }

/-- The scale type of a string. -/
def scaleTypeOf (text : Text) : Option UInt32 :=
  if text = lit "H5Z_SO_FLOAT_DSCALE" then some 0
  else if text = lit "H5Z_SO_FLOAT_ESCALE" then some 1
  else if text = lit "H5Z_SO_INT" then some 2
  else none

/-- The branch for the deflate filter. -/
def deflateBranch (filter : Doc) (s : Parsing) : Outcome Parsing :=
  match (filter.member (lit "level")).bind yajlInteger with
  | none => .fail
  | some level => if level < 0 then .fail else s.set (s.dcpl.h5pSetDeflate (toUnsigned level))

/-- The branch for the SZIP filter. -/
def szipBranch (filter : Doc) (s : Parsing) : Outcome Parsing :=
  match (filter.member (lit "coding")).bind Doc.string? with
  | none => .fail
  | some mask =>
      if mask ≠ lit "H5_SZIP_EC_OPTION_MASK" ∧ mask ≠ lit "H5_SZIP_NN_OPTION_MASK" then
        .ok { s with succeeds := true }
      else
        match (filter.member (lit "pixelsPerBlock")).bind yajlInteger with
        | none => .fail
        | some pixels =>
            if pixels < 0 then .fail
            else
              s.set (s.dcpl.h5pSetSzip (if mask = lit "H5_SZIP_EC_OPTION_MASK" then 4 else 32)
                (toUnsigned pixels))

/-- The branch for the scale-offset filter. -/
def scaleOffsetBranch (filter : Doc) (s : Parsing) : Outcome Parsing :=
  match (filter.member (lit "scaleType")).bind Doc.string? with
  | none => .fail
  | some text =>
      match scaleTypeOf text with
      | none => .ok { s with succeeds := false }
      | some type =>
          match (filter.member (lit "scaleOffset")).bind yajlInteger with
          | none => .fail
          | some factor => s.set (s.dcpl.h5pSetScaleoffset type (toInt (toSize factor)))

/-- The branches for a filter. -/
def filterBranch (filter : Doc) (filterClass : Text) (id : Int) (s : Parsing) : Outcome Parsing :=
  if id = 1 then deflateBranch filter (s.warn filterClass (lit "H5Z_FILTER_DEFLATE"))
  else if id = 2 then
    let s := s.warn filterClass (lit "H5Z_FILTER_SHUFFLE")
    s.set (.ok (s.dcpl.h5pSetFilter 2 true []))
  else if id = 3 then
    let s := s.warn filterClass (lit "H5Z_FILTER_FLETCHER32")
    s.set (.ok (s.dcpl.h5pSetFilter 3 false []))
  else if id = 4 then szipBranch filter (s.warn filterClass (lit "H5Z_FILTER_SZIP"))
  else if id = 5 then
    let s := s.warn filterClass (lit "H5Z_FILTER_NBIT")
    s.set (.ok (s.dcpl.h5pSetFilter 5 true []))
  else if id = 6 then scaleOffsetBranch filter (s.warn filterClass (lit "H5Z_FILTER_SCALEOFFSET"))
  else if id = 32000 then
    let s := s.warn filterClass (lit "H5Z_FILTER_LZF")
    s.set (.ok (s.dcpl.h5pSetFilter 32000 true []))
  else .ok { s with succeeds := false }

/-- The loop over the filters. -/
def filterLoop : List Doc → Parsing → Outcome Parsing
  | [], s => .ok s
  | filter :: filters, s =>
      match (filter.member (lit "class")).bind Doc.string?, (filter.member (lit "id")).bind yajlInteger with
      | some filterClass, some id => (filterBranch filter filterClass id s).bind (filterLoop filters)
      | _, _ => .fail

/-- The filters section. -/
def filtersSection (obj : Doc) (p : CreationProperties) : Outcome Parsing :=
  match (obj.member (lit "filters")).bind Doc.items? with
  | none => .ok ⟨true, p⟩
  | some filters => filterLoop filters ⟨true, p⟩

/-- The loop over the chunk dimensions, into an array of `DATASPACE_MAX_RANK` elements. -/
def chunkDims : Nat → List Doc → Outcome (List Nat)
  | _, [] => .ok []
  | i, dim :: dims =>
      match yajlInteger dim with
      | none => .fail
      | some val =>
          if val < 0 then .fail
          else if maxChunkRank ≤ i then .undefined
          else (chunkDims (i + 1) dims).bind fun rest => .ok (val.toNat :: rest)

/-- The layout section. -/
def layoutSection (obj : Doc) (p : CreationProperties) : Outcome CreationProperties :=
  match (obj.member (lit "layout")).bind Doc.object? with
  | none => .ok p
  | some layout =>
      match (layout.member (lit "class")).bind Doc.string? with
      | none => .fail
      | some layoutClass =>
          if layoutClass = lit "H5D_CHUNKED" then
            match (layout.member (lit "dims")).bind Doc.items? with
            | none => .fail
            | some dims => (chunkDims 0 dims).bind p.h5pSetChunk
          else if layoutClass = lit "H5D_CONTIGUOUS" then
            if ((layout.member (lit "externalStorage")).bind Doc.items?).isSome then .fail
            else .ok { p with layout := .contiguous }
          else if layoutClass = lit "H5D_COMPACT" then .ok { p with layout := .compact }
          else .ok p

/-- The object time tracking section. -/
def trackTimesSection (obj : Doc) (p : CreationProperties) : Outcome CreationProperties :=
  match (obj.member (lit "trackTimes")).bind Doc.string? with
  | none => .ok p
  | some text => .ok { p with trackTimes := decide (text = lit "true") }

/-- `RV_parse_dataset_creation_properties_callback` on a new property list. -/
def rvParseDatasetCreationPropertiesCallback (parse : Text → Option Doc) (fillTypeSize : Nat)
    (response : Text) : Outcome CreationProperties :=
  match (parse response).bind fun tree => (tree.member (lit "creationProperties")).bind Doc.object? with
  | none => .fail
  | some obj =>
      (allocTimeSection obj .default).bind fun p => (creationOrderSection obj p).bind fun p =>
        (phaseChangeSection obj p).bind fun p => (fillTimeSection obj p).bind fun p =>
          (fillValueSection fillTypeSize obj p).bind fun p => (filtersSection obj p).bind fun s =>
            (layoutSection obj s.dcpl).bind fun p => (trackTimesSection obj p).bind fun p =>
              if s.succeeds then .ok p else .fail

/-! ## The round trip -/

/-- The size of the fill value. -/
def FillValue.size : FillValue → Nat
  | .userDefined bytes => bytes.length
  | _ => 0

/-- A response with the text of the creation properties. -/
def responseOf (body : Text) : Text := '{' :: (body ++ ['}'])

/-- The properties are written inside the buffer, what is written is JSON, and the callback restores
them from it. -/
def CreationProperties.RoundTrips (parse : Text → Option Doc) (version : ServerApiVersion)
    (cdValues : Nat → UInt32) (p : CreationProperties) : Prop :=
  ∃ body, rvConvertDatasetCreationPropertiesToJson version cdValues p = .ok body ∧
    JsonText (responseOf body) ∧
      rvParseDatasetCreationPropertiesCallback parse p.fillValue.size (responseOf body) = .ok p

/-- The decoder gives back the bytes of a fill value: no group of six bits is one of the last two, the
last of two bytes that are left at the end is zero, and the bytes do not fill the buffer. -/
def FillFits (bytes : List UInt8) : Prop :=
  (∀ d ∈ lookedUp bytes, d < 62) ∧ (bytes.length % 3 = 2 → bytes.getLast? = some 0) ∧
    ∀ k, (decodedBytes bytes).length ≠ base64EncodeDefaultBufferSize * 2 ^ k

/-- A fill value that is left to the library, or a defined one that survives the encoding. -/
def FillValue.Restorable (version : ServerApiVersion) : FillValue → Prop
  | .default => True
  | .undefined => False
  | .userDefined bytes => serverVersionMatchesOrExceeds version 0 8 1 ∧ FillFits bytes

/-- A filter as one of the library's functions sets it, other than SZIP and scale-offset for
integers. -/
def Filter.Restorable (f : Filter) : Prop :=
  (∃ level ≤ 9, f = ⟨1, true, [level]⟩) ∨ f = ⟨2, true, []⟩ ∨ f = ⟨3, false, []⟩ ∨
    f = ⟨5, true, []⟩ ∨ f = ⟨32000, true, []⟩ ∨
      ∃ type factor, type < 2 ∧ factor < 2 ^ 31 ∧ f = ⟨6, true, [type, factor]⟩

/-- The fill value and every filter come back, the dataset is neither virtual nor external, and no
text ends where the buffer does. -/
def CreationProperties.Restorable (version : ServerApiVersion) (cdValues : Nat → UInt32)
    (p : CreationProperties) : Prop :=
  p.fillValue.Restorable version ∧ (∀ f ∈ p.filters, f.Restorable) ∧ p.layout ≠ .virtual ∧
    p.externalFiles = [] ∧
      ¬ EndsAtBuffer datasetCreationPropertiesBodyDefaultSize
        (creationPropertiesSteps version cdValues p) 0 0

end XHDF5.Client
