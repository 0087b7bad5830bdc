/-
# The description of a dataset

`Xrd_get_dataset_info` collects what a dataset is, and `Xrd_convert_dataset_to_json` concatenates it
to a JSON text. The current dimensions stand for the maximum ones, every layout is called chunked, the
creation properties are always empty, and the path of the file is copied as it is.

The calls of the HDF5 library are those on a dataset that exists.
-/

import XHDF5.Client.DataspaceJson
import XHDF5.Math.JsonGrammar
import XHDF5.Plugin.ElementType

namespace XHDF5.Plugin

open XHDF5.Math XHDF5.Client

/-! ## Datasets -/

/-- The classes of types other than integers and floats. -/
inductive TypeClass
  | time
  | string
  | bitfield
  | opaqueBytes
  | compound
  | reference
  | enumeration
  | vlen
  | array
deriving DecidableEq

/-- The type of a dataset. Of a type that is no number only its class is in the model, and which base
type, if any, the comparisons with its native type come to. -/
inductive StoredType
  | number (type : ElementType)
  | other (typeClass : TypeClass) (base : Option (Fin describedTypes.length))
deriving DecidableEq

/-- The number of dimensions of a dataspace. -/
def spaceRank : Dataspace → Nat
  | .simple extent => extent.length
  | _ => 0

/-- What `H5Sget_simple_extent_dims` stores. -/
def dimsOf : Dataspace → List Nat
  | .simple extent => extent.map Prod.fst
  | _ => []

/-- A dataset in a file: its dataspace, its type and its layout. Chunks have the rank of the dataset. -/
structure FileDataset where
  space : Dataspace
  type : StoredType
  layout : Layout
  valid : space.Valid
  chunkRank : ∀ dims, layout = .chunked dims → dims.length = spaceRank space

/-! ## The code -/

/-- `dataset_info`. -/
structure DatasetInfo where
  id : Text
  root : Text
  attributeCount : Nat
  created : Int
  lastModified : Int
  datasetPath : Text
  className : Text
  domain : Text
  hrefs : Text
  shape : Text
  type : Text
  layout : Text
deriving DecidableEq

/-- `h5type_to_string`. -/
def h5typeToString : StoredType → Text
  | .number (.integer _) => lit "H5T_INTEGER"
  | .number (.float _) => lit "H5T_FLOAT"
  | .other .time _ => lit "H5T_TIME"
  | .other .string _ => lit "H5T_STRING"
  | .other .bitfield _ => lit "H5T_BITFIELD"
  | .other _ _ => []

/-- `h5space_to_string`. -/
def h5spaceToString : Dataspace → Text
  | .scalar => lit "H5S_SCALAR"
  | .simple _ => lit "H5S_SIMPLE"
  | .null => lit "H5S_NULL"

/-- The name of the base type, empty when there is none. -/
def baseTypeName (nativeType : ElementType → ElementType) : StoredType → Text
  | .number type => h5basetypeToString nativeType type
  | .other _ none => []
  | .other _ (some k) => (describedTypes.get k).1

/-- The loop that prints an array. -/
def arrayToString (values : List Nat) : Text :=
  lit "[" ++ (lit ", ").intercalate (values.map decimal) ++ lit "]"

/-- The identifier of every dataset. -/
def datasetId : Text := lit "d-216ce93b-c0f0-4cfa-af65-15e59b4478ec"

/-- The identifier of every root group. -/
def rootId : Text := lit "g-009094ca-4e1594d1-8818-1c42c6-9d1c59"

/-- `dataset.hrefs`. -/
def hrefsText : Text :=
  lit "[\x7b\"rel\": \"self\", \"href\": \"https://hepslustretest02.ihep.ac.cn:1094/\"\x7d, " ++
  lit "\x7b\"rel\": \"database\", \"href\": \"https://hepslustretest02.ihep.ac.cn:1094/datasets\"\x7d, " ++
  lit "\x7b\"rel\": \"groupbase\", \"href\": \"https://hepslustretest02.ihep.ac.cn:1094/groups\"\x7d, " ++
  lit "\x7b\"rel\": \"typebase\", \"href\": \"https://hepslustretest02.ihep.ac.cn:1094/datatypes\"\x7d, " ++
  lit "\x7b\"rel\": \"root\", \"href\": \"https://hepslustretest02.ihep.ac.cn:1094/groups/" ++
  lit "g-009094ca-4e1594d1-8818-1c42c6-9d1c59\"\x7d, " ++
  lit "\x7b\"rel\": \"home\", \"href\": \"https://hepslustretest02.ihep.ac.cn:1094/\"\x7d, " ++
  lit "\x7b\"rel\": \"acls\", \"href\": \"https://hepslustretest02.ihep.ac.cn:1094/acls\"\x7d, " ++
  lit "\x7b\"rel\": \"parent\", \"href\": " ++
  lit "\"https://hepslustretest02.ihep.ac.cn:1094/?domain=hsds.test/home/fsc\"\x7d]"

/-- `Xrd_get_dataset_info` for a dataset that is there, with the times that `stat` reports. -/
def xrdGetDatasetInfo (nativeType : ElementType → ElementType) (created lastModified : Int)
    (filepath h5path : Text) (dataset : FileDataset) : DatasetInfo :=
  let dims := arrayToString (dimsOf dataset.space)
  let typeClass := h5typeToString dataset.type
  let base := baseTypeName nativeType dataset.type
  { id := datasetId
    root := rootId
    attributeCount := 0
    created
    lastModified
    datasetPath := h5path
    className := lit "dataset"
    domain := filepath
    hrefs := hrefsText
    shape := lit "\x7b \"class\":\"" ++ h5spaceToString dataset.space ++ lit "\",\"dims\":" ++ dims ++
      lit ",\"maxdims\":" ++ dims ++ lit "\x7d"
    type :=
      if base ≠ [] then
        lit "\x7b \"class\":\"" ++ typeClass ++ lit "\",\"base\":\"" ++ base ++ lit "\"\x7d"
      else lit "\x7b \"class\":\"" ++ typeClass ++ lit "\"\x7d"
    layout :=
      match dataset.layout with
      | .chunked chunk =>
          lit "\x7b \"class\":\"H5D_CHUNKED\",\"dims\":" ++ arrayToString chunk ++ lit "\x7d"
      | _ => lit "\x7b \"class\":\"H5D_CHUNKED\",\"dims\":" ++ dims ++ lit "\x7d" }

/-- A cast to `float` of a whole number: 24 binary digits, halves to the even side. -/
def toFloat (value : Nat) : Nat :=
  let unit := 2 ^ (value.log2 - 23)
  let quotient := value / unit
  let remainder := value % unit
  if unit < 2 * remainder ∨ (2 * remainder = unit ∧ quotient % 2 = 1) then (quotient + 1) * unit
  else quotient * unit

/-- `timeToString`: `std::to_string` of a `float`. -/
def timeToString (time : Int) : Text :=
  (if time < 0 then ['-'] else []) ++ (decimal (toFloat time.natAbs) ++ lit ".000000")

/-- A part of the text that is left out when its value is empty. -/
def unlessEmpty (value part : Text) : Text := if value = [] then [] else part

/-- `Xrd_convert_dataset_to_json`. -/
def xrdConvertDatasetToJson (info : DatasetInfo) : Text :=
  lit "\x7b" ++
  (lit "\"id\": \"" ++ info.id ++ lit "\", ") ++
  (lit "\"root\": \"" ++ info.root ++ lit "\", ") ++
  (lit "\"attributeCount\": " ++ decimal info.attributeCount ++ lit ", ") ++
  (lit "\"created\": " ++ timeToString info.created ++ lit ", ") ++
  unlessEmpty info.domain (lit "\"domain\": \"" ++ info.domain ++ lit "\", ") ++
  unlessEmpty info.className (lit "\"class\": \"" ++ info.className ++ lit "\", ") ++
  unlessEmpty info.hrefs (lit "\"hrefs\": " ++ info.hrefs ++ lit ", ") ++
  (lit "\"shape\": " ++ info.shape ++ lit ", ") ++
  (lit "\"type\": " ++ info.type ++ lit ", ") ++
  (lit "\"layout\": " ++ info.layout ++ lit ",") ++
  lit "\"creationProperties\": \x7b\x7d, " ++
  (lit "\"lastModified\": " ++ timeToString info.lastModified) ++
  lit "\x7d"

/-! ## The document -/

/-- Items with a comma and a blank between them. -/
def spaced : List Doc → List (Text × Doc)
  | [] => []
  | x :: items => ([], x) :: items.map fun y => (lit ", ", y)

/-- An array of numbers. -/
def dimsDoc (values : List Nat) : Doc := .array (spaced (values.map fun value => .word (decimal value))) []

/-- The value of `shape`. -/
def shapeDoc (space : Dataspace) : Doc :=
  .object [(lit " ", lit "class", [], .string (h5spaceToString space)),
    (lit ",", lit "dims", [], dimsDoc (dimsOf space)),
    (lit ",", lit "maxdims", [], dimsDoc (dimsOf space))] []

/-- The value of `type`. -/
def typeDoc (typeClass base : Text) : Doc :=
  .object ((lit " ", lit "class", [], .string typeClass) ::
    if base ≠ [] then [(lit ",", lit "base", [], .string base)] else []) []

/-- The value of `layout`. -/
def describedLayout (dims : List Nat) : Doc :=
  .object [(lit " ", lit "class", [], .string (lit "H5D_CHUNKED")),
    (lit ",", lit "dims", [], dimsDoc dims)] []

/-- The dimensions that are printed for the layout. -/
def layoutDims (dataset : FileDataset) : List Nat :=
  match dataset.layout with
  | .chunked chunk => chunk
  | _ => dimsOf dataset.space

/-- The links in `hrefs`, by their name and their path. -/
def hrefs : List (Text × Text) :=
  [(lit "self", []), (lit "database", lit "datasets"), (lit "groupbase", lit "groups"),
    (lit "typebase", lit "datatypes"),
    (lit "root", lit "groups/g-009094ca-4e1594d1-8818-1c42c6-9d1c59"), (lit "home", []),
    (lit "acls", lit "acls"), (lit "parent", lit "?domain=hsds.test/home/fsc")]

/-- The value of `hrefs`. -/
def hrefsDoc : Doc :=
  .array (spaced (hrefs.map fun link =>
    .object [([], lit "rel", lit " ", .string link.1),
      (lit ", ", lit "href", lit " ",
        .string (lit "https://hepslustretest02.ihep.ac.cn:1094/" ++ link.2))] [])) []

/-- The description of a dataset as a document. -/
def descriptionDoc (nativeType : ElementType → ElementType) (created lastModified : Int)
    (filepath : Text) (dataset : FileDataset) : Doc :=
  .object [([], lit "id", lit " ", .string datasetId), (lit ", ", lit "root", lit " ", .string rootId),
    (lit ", ", lit "attributeCount", lit " ", .word (decimal 0)),
    (lit ", ", lit "created", lit " ", .word (timeToString created)),
    (lit ", ", lit "domain", lit " ", .string filepath),
    (lit ", ", lit "class", lit " ", .string (lit "dataset")), (lit ", ", lit "hrefs", lit " ", hrefsDoc),
    (lit ", ", lit "shape", lit " ", shapeDoc dataset.space),
    (lit ", ", lit "type", lit " ",
      typeDoc (h5typeToString dataset.type) (baseTypeName nativeType dataset.type)),
    (lit ", ", lit "layout", lit " ", describedLayout (layoutDims dataset)),
    (lit ",", lit "creationProperties", lit " ", .object [] []),
    (lit ", ", lit "lastModified", lit " ", .word (timeToString lastModified))] []

theorem renderItems_spaced (values : List Nat) :
    Doc.renderItems (spaced (values.map fun value => Doc.word (decimal value))) =
      (lit ", ").intercalate (values.map decimal) := by
  cases values with
  | nil => rfl
  | cons value values =>
      rw [List.map_cons, spaced, Doc.renderItems, List.map_cons, List.nil_append, Doc.render]
      induction values generalizing value with
      | nil => simp [Doc.renderItems, List.intercalate]
      | cons next values ih =>
          rw [List.map_cons, List.map_cons, Doc.renderItems, Doc.render, List.map_cons]
          have hnext := ih next
          simp only [List.intercalate, List.intersperse] at hnext ⊢
          rw [List.flatten_cons, List.flatten_cons, ← hnext]

theorem render_dimsDoc (values : List Nat) : (dimsDoc values).render = arrayToString values := by
  rw [dimsDoc, Doc.render, renderItems_spaced, List.nil_append, arrayToString]
  unfold lit
  rfl

set_option maxRecDepth 8000 in
theorem render_hrefsDoc : hrefsDoc.render = hrefsText := by
  simp only [hrefsDoc, hrefs, spaced, List.map_cons, List.map_nil, Doc.render, Doc.renderItems,
    Doc.renderMembers]
  unfold hrefsText
  repeat rw [lit_ofList]
  rfl

theorem render_shapeDoc (space : Dataspace) : (shapeDoc space).render =
    lit "\x7b \"class\":\"" ++ h5spaceToString space ++ lit "\",\"dims\":" ++
      arrayToString (dimsOf space) ++ lit ",\"maxdims\":" ++ arrayToString (dimsOf space) ++
        lit "\x7d" := by
  simp only [shapeDoc, Doc.render, Doc.renderMembers, render_dimsDoc]
  repeat rw [lit_ofList]
  simp only [List.cons_append, List.nil_append, List.append_assoc]

theorem render_typeDoc (typeClass base : Text) : (typeDoc typeClass base).render =
    if base ≠ [] then
      lit "\x7b \"class\":\"" ++ typeClass ++ lit "\",\"base\":\"" ++ base ++ lit "\"\x7d"
    else lit "\x7b \"class\":\"" ++ typeClass ++ lit "\"\x7d" := by
  unfold typeDoc
  split
  · simp only [Doc.render, Doc.renderMembers]
    repeat rw [lit_ofList]
    simp only [List.cons_append, List.nil_append, List.append_assoc]
  · simp only [Doc.render, Doc.renderMembers]
    repeat rw [lit_ofList]
    simp only [List.cons_append, List.nil_append, List.append_assoc]

theorem render_describedLayout (dims : List Nat) : (describedLayout dims).render =
    lit "\x7b \"class\":\"H5D_CHUNKED\",\"dims\":" ++ arrayToString dims ++ lit "\x7d" := by
  simp only [describedLayout, Doc.render, Doc.renderMembers, render_dimsDoc]
  repeat rw [lit_ofList]
  simp only [List.cons_append, List.nil_append, List.append_assoc]

theorem layout_xrdGetDatasetInfo (nativeType : ElementType → ElementType) (created lastModified : Int)
    (filepath h5path : Text) (dataset : FileDataset) :
    (xrdGetDatasetInfo nativeType created lastModified filepath h5path dataset).layout =
      (describedLayout (layoutDims dataset)).render := by
  rw [render_describedLayout, layoutDims]
  simp only [xrdGetDatasetInfo]
  cases dataset.layout <;> rfl

set_option maxRecDepth 4000 in
/-- The text of the description is that of the document. -/
theorem xrdConvertDatasetToJson_eq (nativeType : ElementType → ElementType)
    (created lastModified : Int) {filepath : Text} (h5path : Text) (dataset : FileDataset)
    (hpath : filepath ≠ []) :
    xrdConvertDatasetToJson
        (xrdGetDatasetInfo nativeType created lastModified filepath h5path dataset) =
      (descriptionDoc nativeType created lastModified filepath dataset).render := by
  have hshape := render_shapeDoc dataset.space
  have htype := render_typeDoc (h5typeToString dataset.type) (baseTypeName nativeType dataset.type)
  have hlayout := layout_xrdGetDatasetInfo nativeType created lastModified filepath h5path dataset
  have hclass : lit "dataset" ≠ [] := by unfold lit; decide
  have hhrefs : hrefsDoc.render ≠ [] := by simp [hrefsDoc, Doc.render]
  rw [xrdConvertDatasetToJson, hlayout]
  simp only [xrdGetDatasetInfo, ← hshape, ← htype, ← render_hrefsDoc, unlessEmpty, if_neg hclass,
    if_neg hhrefs, if_neg hpath, descriptionDoc, Doc.render, Doc.renderMembers]
  repeat rw [lit_ofList]
  simp only [List.cons_append, List.nil_append, List.append_assoc]

end XHDF5.Plugin
