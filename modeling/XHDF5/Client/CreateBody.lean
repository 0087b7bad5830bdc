/-
# The body of a dataset creation

The client describes a new dataset in one JSON text: its datatype, its shape, its creation
properties, and the link it is to get. `RV_convert_dataspace_shape_to_JSON` and
`RV_convert_dataset_creation_properties_to_JSON` print into buffers that double, and some of their
stores count no byte for the NUL.

The properties are those the library returns; its calls succeed. The name of the new link is not
escaped.
-/

import XHDF5.Client.Base64
import XHDF5.Client.Datatype
import XHDF5.Client.Url
import XHDF5.Math.Printing

namespace XHDF5.Client

open XHDF5.Math

/-- `CHECKED_REALLOC` for a text and its NUL, and `strncat`. -/
def appended (text : Text) : List PrintStep := [.reserve (text.length + 1), .strncat text]

/-! ## The dataspace -/

/-- `DATASPACE_SHAPE_BUFFER_DEFAULT_SIZE`. -/
def dataspaceShapeBufferDefaultSize : Nat := 256

/-- `H5S_UNLIMITED`. -/
def h5sUnlimited : Nat := 2 ^ 64 - 1

/-- The steps for the elements of a list, each with the comma before it. -/
def withCommas {α : Type*} (steps : Text → α → List PrintStep) : List α → List PrintStep
  | [] => []
  | x :: xs => steps [] x ++ xs.flatMap (steps [','])

/-- A dimension size; the length that `snprintf` would need is taken as it is. -/
def shapeEntry (comma : Text) (dim : Nat) : List PrintStep :=
  [.reserve (maxNumLength + 1), .unchecked (maxNumLength + 1) (comma ++ decimal dim)]

/-- A maximum dimension size. The limit of `snprintf` is a length less a pointer, which is larger
than every text. -/
def maxdimsEntry (comma : Text) (maxdim : Nat) : List PrintStep :=
  .reserve (maxNumLength + 1) ::
    if maxdim = h5sUnlimited then (if comma = [] then [] else [.strncat comma]) ++ [.strncat (lit "0")]
    else [.strncat (comma ++ decimal maxdim)]

/-- The steps of `RV_convert_dataspace_shape_to_JSON` for the shape. -/
def shapeSteps (dims : List Nat) : List PrintStep :=
  appended (lit "\"shape\": [") ++ withCommas shapeEntry dims ++ [.strncat (lit "]")]

/-- The steps of `RV_convert_dataspace_shape_to_JSON` for the maximum dimension sizes. -/
def maxdimsSteps (maxdims : List Nat) : List PrintStep :=
  appended (lit "\"maxdims\": [") ++ withCommas maxdimsEntry maxdims ++ [.strncat (lit "]")]

/-- `RV_convert_dataspace_shape_to_JSON` of a simple dataspace: the size and the maximum size of each
dimension. -/
def rvConvertDataspaceShapeToJson (extent : List (Nat × Nat)) : Outcome (Text × Text) :=
  if extent = [] then .fail
  else
    (printAll (shapeSteps (extent.map Prod.fst)) (.empty dataspaceShapeBufferDefaultSize)).bind
      fun shape =>
        (printAll (maxdimsSteps (extent.map Prod.snd))
          (.empty dataspaceShapeBufferDefaultSize)).bind fun maxdims =>
            .ok (shape.text, maxdims.text)

/-! ## Creation properties -/

/-- `H5D_alloc_time_t`. -/
inductive AllocTime
  | default
  | early
  | late
  | incr
deriving DecidableEq

/-- `H5D_fill_time_t`. -/
inductive FillTime
  | alloc
  | never
  | ifset
deriving DecidableEq

/-- `H5D_fill_value_t`, with the bytes of a value that the user defined. -/
inductive FillValue
  | undefined
  | default
  | userDefined (bytes : List UInt8)
deriving DecidableEq

/-- A filter of the pipeline. -/
structure Filter where
  id : Int
  optional : Bool
  cdValues : List UInt32
deriving DecidableEq

/-- The array `cd_values` after `H5Pget_filter2`: behind the values of the filter stands what stood
there before. -/
def Filter.get (f : Filter) (cdValues : Nat → UInt32) (i : Nat) : UInt32 :=
  f.cdValues.getD i (cdValues i)

/-- A file of an external storage. -/
structure ExternalFile where
  name : Text
  offset : Int
  size : Nat
deriving DecidableEq

/-- `H5D_layout_t`. -/
inductive Layout
  | compact
  | contiguous
  | chunked (dims : List Nat)
  | virtual
deriving DecidableEq

/-- A dataset creation property list. -/
structure CreationProperties where
  allocTime : AllocTime
  crtOrderFlags : Nat
  maxCompact : UInt32
  minDense : UInt32
  fillTime : FillTime
  fillValue : FillValue
  filters : List Filter
  layout : Layout
  externalFiles : List ExternalFile
  trackTimes : Bool
deriving DecidableEq

/-- `DATASET_CREATION_PROPERTIES_BODY_DEFAULT_SIZE`. -/
def datasetCreationPropertiesBodyDefaultSize : Nat := 512

/-- `CHECKED_REALLOC` for a format with so many more bytes and a NUL, and `snprintf`. -/
def formatted (format : Text) (more : Nat) (text : Text) : List PrintStep :=
  [.reserve (format.length + more + 1), .snprintf text]

/-- One byte is counted for a symbol, none for the NUL. -/
def symbol (text : Text) : List PrintStep := [.reserve 1, .strncat text]

def AllocTime.name : AllocTime → Text
  | .default => lit "H5D_ALLOC_TIME_DEFAULT"
  | .early => lit "H5D_ALLOC_TIME_EARLY"
  | .late => lit "H5D_ALLOC_TIME_LATE"
  | .incr => lit "H5D_ALLOC_TIME_INCR"

/-- The property that is always printed. -/
def allocTimeSteps (allocTime : AllocTime) : List PrintStep :=
  [.reserve ((lit "\"allocTime\": \"H5D_ALLOC_TIME_DEFAULT\"").length + 1),
    .strncat (lit "\"allocTime\": \"" ++ allocTime.name ++ lit "\"")]

/-- `H5P_CRT_ORDER_INDEXED` with `H5P_CRT_ORDER_TRACKED`. -/
def crtOrderIndexed : Nat := 3

def crtOrderName (flags : Nat) : Text :=
  if flags = crtOrderIndexed then lit "INDEXED" else lit "TRACKED"

/-- The attribute creation order section. -/
def crtOrderSteps (flags : Nat) : List PrintStep :=
  if flags = 0 then []
  else
    formatted (lit ", \"attributeCreationOrder\": \"H5P_CRT_ORDER_%s\"") (lit "INDEXED").length
      (lit ", \"attributeCreationOrder\": \"" ++ (lit "H5P_CRT_ORDER_" ++ crtOrderName flags) ++
        lit "\"")

/-- The attribute phase change threshold section. -/
def phaseChangeSteps (maxCompact minDense : UInt32) : List PrintStep :=
  if maxCompact = 8 ∧ minDense = 6 then []
  else
    formatted (lit ", \"attributePhaseChange\": \x7b\"maxCompact\": %u, \"minDense\": %u\x7d")
      (2 * maxNumLength)
      (lit ", \"attributePhaseChange\": \x7b\"maxCompact\": " ++ decimal maxCompact.toNat ++
        lit ", \"minDense\": " ++ decimal minDense.toNat ++ lit "\x7d")

/-- The fill time section. -/
def fillTimeSteps (fillTime : FillTime) : List PrintStep :=
  if fillTime = .ifset then []
  else
    formatted (lit ", \"fillTime\": \"H5D_FILL_TIME_%s\"") (lit "ALLOC").length
      (lit ", \"fillTime\": \"" ++ (lit "H5D_FILL_TIME_" ++
        if fillTime = .alloc then lit "ALLOC" else lit "NEVER") ++ lit "\"")

/-- The string that `RV_base64_encode` hands back. -/
def base64String (bytes : List UInt8) : Text :=
  (rvBase64Encode bytes 0).written.takeWhile (· ≠ '\x00')

/-- The fill value section. -/
def fillValueSteps (version : ServerApiVersion) : FillValue → List PrintStep
  | .default => []
  | .undefined => appended (lit ", \"fillValue\": null")
  | .userDefined bytes =>
      if ¬ serverVersionMatchesOrExceeds version 0 8 1 then [.fail]
      else
        appended (lit ", \"fillValue\": \"" ++ base64String bytes ++ lit "\"") ++
          [.reserve (lit ", \"fillValue_encoding\": \"base64\"").length,
            .strncat (lit ", \"fillValue_encoding\": \"base64\"")]

/-! ## Filters -/

/-- A number or a name that is printed for a filter. -/
inductive FilterValue
  | number (value : UInt32)
  | name (text : Text)

/-- What stands in the format. -/
def FilterValue.format : FilterValue → Text
  | .number _ => lit "%u"
  | .name _ => lit "\"%s\""

def FilterValue.text : FilterValue → Text
  | .number value => decimal value.toNat
  | .name text => quoted text

/-- The object of a filter. -/
def filterText (className id : Text) (fields : List (Text × Text)) : Text :=
  lit "\x7b\"class\": \"" ++ className ++ lit "\",\"id\": " ++ id ++
    fields.flatMap (fun field => lit ",\"" ++ field.1 ++ lit "\": " ++ field.2) ++ lit "\x7d"

/-- What is printed for a filter. -/
structure FilterEntry where
  className : Text
  id : Nat
  fields : List (Text × FilterValue)

def FilterEntry.text (entry : FilterEntry) : Text :=
  filterText entry.className (decimal entry.id)
    (entry.fields.map fun field => (field.1, field.2.text))

/-- The format, with room for each number and for the names. -/
def FilterEntry.steps (entry : FilterEntry) (more : Nat) : List PrintStep :=
  formatted (filterText entry.className (lit "%d")
    (entry.fields.map fun field => (field.1, field.2.format))) more entry.text

/-- What becomes of a filter: it is printed, left out, refused, or printed with the length of a
parameter string that is NULL. -/
inductive FilterCase
  | entry (entry : FilterEntry) (more : Nat)
  | skipped
  | refused
  | noParameters

/-- A filter that cannot be printed. -/
def unprintable (optional : Bool) : FilterCase := if optional then .skipped else .refused

/-- `szip_option_mask`. -/
def szipOptionMask (mask : UInt32) : Option Text :=
  if mask = 4 then some (lit "H5_SZIP_EC_OPTION_MASK")
  else if mask = 32 then some (lit "H5_SZIP_NN_OPTION_MASK")
  else none

/-- `scaleType`. -/
def scaleType (parameter : UInt32) : Option Text :=
  if parameter = 0 then some (lit "H5Z_SO_FLOAT_DSCALE")
  else if parameter = 1 then some (lit "H5Z_SO_FLOAT_ESCALE")
  else if parameter = 2 then some (lit "H5Z_FLOAT_SO_INT")
  else none

/-- The branches for a filter, with the array of its values. -/
def filterCase (id : Int) (optional : Bool) (cdValues : Nat → UInt32) : FilterCase :=
  if id = 1 then
    .entry ⟨lit "H5Z_FILTER_DEFLATE", 1, [(lit "level", .number (cdValues 0))]⟩ (2 * maxNumLength)
  else if id = 2 then .entry ⟨lit "H5Z_FILTER_SHUFFLE", 2, []⟩ maxNumLength
  else if id = 3 then .entry ⟨lit "H5Z_FILTER_FLETCHER32", 3, []⟩ maxNumLength
  else if id = 4 then
    match szipOptionMask (cdValues 0) with
    | none => unprintable optional
    | some mask =>
        .entry ⟨lit "H5Z_FILTER_SZIP", 4,
          [(lit "bitsPerPixel", .number (cdValues 2)), (lit "coding", .name mask),
            (lit "pixelsPerBlock", .number (cdValues 1)),
            (lit "pixelsPerScanline", .number (cdValues 3))]⟩ (4 * maxNumLength + mask.length)
  else if id = 5 then .entry ⟨lit "H5Z_FILTER_NBIT", 5, []⟩ maxNumLength
  else if id = 6 then
    match scaleType (cdValues 0) with
    | none => unprintable optional
    | some type =>
        .entry ⟨lit "H5Z_FILTER_SCALEOFFSET", 6,
          [(lit "scaleType", .name type), (lit "scaleOffset", .number (cdValues 1))]⟩
          (2 * maxNumLength + type.length)
  else if id = 32000 then .entry ⟨lit "H5Z_FILTER_LZF", 32000, []⟩ maxNumLength
  else if id < 0 then unprintable optional
  else .noParameters

/-- The loop over the filters. A comma follows every printed filter but the last of the pipeline. -/
def filterSteps (cdValues : Nat → UInt32) : List Filter → List PrintStep
  | [] => []
  | f :: filters =>
      let cdValues := f.get cdValues
      match filterCase f.id f.optional cdValues with
      | .entry entry more =>
          entry.steps more ++ (if filters = [] then [] else symbol (lit ",")) ++
            filterSteps cdValues filters
      | .skipped => filterSteps cdValues filters
      | .refused => .fail :: filterSteps cdValues filters
      | .noParameters => .undefined :: filterSteps cdValues filters

/-- The filters section. -/
def filtersSteps (cdValues : Nat → UInt32) (filters : List Filter) : List PrintStep :=
  if filters = [] then []
  else appended (lit ", \"filters\": [ ") ++ filterSteps cdValues filters ++ symbol (lit "]")

/-! ## Layouts -/

/-- `EXTERNAL_FILE_NAME_MAX_LENGTH`. -/
def externalFileNameMaxLength : Nat := 2048

/-- The entries of the external files. `bytes_to_print` is not set back between them. -/
def externalFileSteps (comma : Text) (bytesToPrint : Nat) : List ExternalFile → List PrintStep
  | [] => []
  | file :: files =>
      let fileName := file.name.take (externalFileNameMaxLength - 1)
      let bytesToPrint := bytesToPrint +
        (lit "%s\x7b\"name\": %s,\"offset\": %ld,\"size\": %llu\x7d").length + fileName.length +
          2 * maxNumLength + comma.length - 8
      [.reserve bytesToPrint,
        .snprintf (comma ++ lit "\x7b\"name\": " ++ fileName ++ lit ",\"offset\": " ++
          decimalInt file.offset ++ lit ",\"size\": " ++ decimal file.size ++ lit "\x7d")] ++
        externalFileSteps (lit ",") bytesToPrint files

/-- `contiguous_layout_str`. -/
def contiguousLayoutStr : Text := lit ", \"layout\": \x7b\"class\": \"H5D_CONTIGUOUS\""

/-- `external_storage_str`. -/
def externalStorageStr : Text := lit ", externalStorage: ["

/-- The external storage of a contiguous layout. The position moves by the length of the layout
string as well. -/
def externalStorageSteps (files : List ExternalFile) : List PrintStep :=
  if files = [] then []
  else
    let bytesToPrint := contiguousLayoutStr.length + externalStorageStr.length
    [.reserve bytesToPrint, .strncat externalStorageStr, .advance contiguousLayoutStr.length] ++
      externalFileSteps [] bytesToPrint files ++ symbol (lit "]")

/-- The layout section. -/
def layoutSteps (externalFiles : List ExternalFile) : Layout → List PrintStep
  | .compact => appended (lit ", \"layout\": \x7b\"class\": \"H5D_COMPACT\"\x7d")
  | .contiguous =>
      [.reserve contiguousLayoutStr.length, .strncat contiguousLayoutStr] ++
        externalStorageSteps externalFiles ++ symbol (lit "\x7d")
  | .chunked dims =>
      if dims = [] then [.fail]
      else
        match arrayShape dims with
        | .ok shape =>
            formatted (lit ", \"layout\": \x7b\"class\": \"H5D_CHUNKED\",\"dims\": %s\x7d")
              shape.length
              (lit ", \"layout\": \x7b\"class\": \"H5D_CHUNKED\",\"dims\": " ++ shape ++ lit "\x7d")
        | _ => [.fail]
  | .virtual => [.fail]

/-- The object time tracking section. -/
def trackTimesSteps (trackTimes : Bool) : List PrintStep :=
  appended (lit ", \"trackTimes\": \"" ++ (if trackTimes then lit "true" else lit "false") ++
    lit "\"")

/-- The steps of `RV_convert_dataset_creation_properties_to_JSON`; the array `cd_values` is not set at
first. -/
def creationPropertiesSteps (version : ServerApiVersion) (cdValues : Nat → UInt32)
    (p : CreationProperties) : List PrintStep :=
  appended (lit "\"creationProperties\": \x7b") ++ allocTimeSteps p.allocTime ++
    crtOrderSteps p.crtOrderFlags ++ phaseChangeSteps p.maxCompact p.minDense ++
    fillTimeSteps p.fillTime ++ fillValueSteps version p.fillValue ++
    filtersSteps cdValues p.filters ++
    layoutSteps p.externalFiles p.layout ++ trackTimesSteps p.trackTimes ++ symbol (lit "\x7d")

/-- `RV_convert_dataset_creation_properties_to_JSON`. -/
def rvConvertDatasetCreationPropertiesToJson (version : ServerApiVersion) (cdValues : Nat → UInt32)
    (p : CreationProperties) : Outcome Text :=
  (printAll (creationPropertiesSteps version cdValues p)
    (.empty datasetCreationPropertiesBodyDefaultSize)).bind fun b => .ok b.text

/-! ## The request -/

/-- `H5_rest_basename`. -/
def h5RestBasename (path : Text) : Text := (path.reverse.takeWhile (· ≠ '/')).reverse

/-- `H5_rest_dirname`. -/
def h5RestDirname (path : Text) : Text := path.take (path.length - (h5RestBasename path).length)

/-- The creation of a dataset with a link: where it is created from, what stands in the array
`cd_values` at first, and what `RV_find_object_by_path` answers for the path of a group. The creation
properties are absent for `H5P_DATASET_CREATE_DEFAULT`. -/
structure DatasetCreation where
  name : Text
  parentURI : Text
  datatype : Datatype
  extent : List (Nat × Nat)
  dcpl : Option CreationProperties
  cdValues : Nat → UInt32
  serverVersion : ServerApiVersion
  findGroup : Text → Option Text

/-- The creation properties, when there are any. -/
def creationPropertiesBody (version : ServerApiVersion) (cdValues : Nat → UInt32) :
    Option CreationProperties → Outcome (Option Text)
  | none => .ok none
  | some p =>
      if p.layout = .contiguous ∧ ¬ serverVersionMatchesOrExceeds version 0 8 0 then .fail
      else (rvConvertDatasetCreationPropertiesToJson version cdValues p).bind fun body => .ok (some body)

/-- The URI of the group that the link is created in. -/
def DatasetCreation.targetURI (r : DatasetCreation) : Option Text :=
  if h5RestDirname r.name = [] then some r.parentURI else r.findGroup (h5RestDirname r.name)

/-- `link_body`. -/
def linkBody (uri basename : Text) : Text :=
  lit "\"link\": \x7b\"id\": \"" ++ uri ++ lit "\", \"name\": \"" ++ basename ++ lit "\"\x7d"

/-- `RV_setup_dataset_create_request_body`. The lengths computed for the two last buffers are those
of the texts. -/
def rvSetupDatasetCreateRequestBody (r : DatasetCreation) : Outcome Text :=
  (rvConvertDatatypeToJson false r.datatype).bind fun datatypeBody =>
    (rvConvertDataspaceShapeToJson r.extent).bind fun space =>
      (creationPropertiesBody r.serverVersion r.cdValues r.dcpl).bind fun properties =>
        match r.targetURI with
        | none => .fail
        | some uri =>
            .ok (lit "\x7b" ++ datatypeBody ++ lit ", " ++ space.1 ++ lit ", " ++ space.2 ++
              (properties.elim [] fun body => lit ", " ++ body) ++
              lit ", " ++ linkBody uri (h5RestBasename r.name) ++ lit "\x7d")

end XHDF5.Client
