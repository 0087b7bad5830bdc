/-
# Datatypes as JSON

`RV_convert_datatype_to_JSON` writes a datatype by string formatting, one level after the other.
`RV_convert_JSON_to_datatype` parses the whole text with a JSON library, but it takes the parts of
an array, an enumeration or a compound out of the text by a search for their keys and a count of
braces, puts them into braces of their own, and converts these texts in turn.

The parser is the library's, a parameter of the model. The datatypes are those of the HDF5 library:
predefined integers and floats, strings, compounds, enumerations, arrays and references. Neither
committed datatypes nor the fields of a derived integer or float are in the model.
-/

import XHDF5.Math.Bytes
import XHDF5.Math.CInt
import XHDF5.Math.Json
import XHDF5.Math.Run

namespace XHDF5.Client

open XHDF5.Math

/-! ## Datatypes -/

/-- `H5T_order_t` of a number. -/
inductive ByteOrder
  | little
  | big
  | vax
deriving DecidableEq

/-- An integer that uses all of its bytes. -/
structure IntegerType where
  size : Nat
  order : ByteOrder
  signed : Bool
deriving DecidableEq

/-- `H5T_str_t`. -/
inductive StrPad
  | nullterm
  | nullpad
  | spacepad
deriving DecidableEq

/-- `H5T_cset_t`. -/
inductive CharSet
  | ascii
  | utf8
deriving DecidableEq

/-- `H5T_STD_REF_OBJ`, `H5T_STD_REF_DSETREG` and `H5T_STD_REF`. -/
inductive RefKind
  | object
  | region
  | any
deriving DecidableEq

/-- A datatype. The length of a string is absent for `H5T_VARIABLE`; a member of a compound has its
name, its offset and its type; `other` stands for bit fields, opaque, variable-length and time
datatypes. -/
inductive Datatype
  | integer (base : IntegerType)
  | float (size : Nat) (order : ByteOrder)
  | string (length : Option Nat) (pad : StrPad) (charSet : CharSet)
  | compound (size : Nat) (members : List (Text × Nat × Datatype))
  | enum (base : IntegerType) (members : List (Text × Int))
  | array (base : Datatype) (dims : List Nat)
  | reference (kind : RefKind)
  | other (size : Nat)

/-- `H5Tget_size`; a variable-length string is a pointer. -/
def Datatype.size : Datatype → Nat
  | .integer base => base.size
  | .float size _ => size
  | .string length _ _ => length.getD 8
  | .compound size _ => size
  | .enum base _ => base.size
  | .array base dims => dims.prod * base.size
  | .reference .object => 8
  | .reference .region => 12
  | .reference .any => 64
  | .other size => size

/-! ## The writer -/

/-- `PREDEFINED_DATATYPE_NAME_MAX_LENGTH`. -/
def predefinedNameMaxLength : Nat := 20

/-- `MAX_NUM_LENGTH`. -/
def maxNumLength : Nat := 20

/-- What `snprintf` makes of `"H5T_%s_%s%zu%s"`. -/
def predefinedName (family kind : Text) (size : Nat) (order : ByteOrder) : Text :=
  lit "H5T_" ++ family ++ lit "_" ++ kind ++ decimal (wrap64 (size * 8)) ++
    if order = .little then lit "LE" else lit "BE"

/-- `RV_convert_predefined_datatype_to_string`. -/
def rvConvertPredefinedDatatypeToString (family kind : Text) (size : Nat) (order : ByteOrder) :
    Outcome Text :=
  let name := predefinedName family kind size order
  if predefinedNameMaxLength ≤ name.length then .fail else .ok name

/-- The name of an integer. -/
def IntegerType.name (base : IntegerType) : Outcome Text :=
  rvConvertPredefinedDatatypeToString (lit "STD") (if base.signed then lit "I" else lit "U")
    base.size base.order

/-- The bytes of a value of the integer type. -/
def IntegerType.bytes (base : IntegerType) (value : Int) : List UInt8 :=
  let bytes := littleEndian base.size (value % 256 ^ base.size).toNat
  if base.order = .little then bytes else bytes.reverse

/-- What `%llu` and `%lld` print for the zeroed eight bytes after `H5Tget_member_value`. -/
def enumValue (base : IntegerType) (value : Int) : Int :=
  let raw := ofLittleEndian (base.bytes value)
  if base.signed ∧ 2 ^ 63 ≤ raw then (raw : Int) - 2 ^ 64 else raw

/-- The text for each dimension of an array, with the comma before it. -/
def shapeParts : List Nat → List Text
  | [] => []
  | d :: dims => decimal d :: dims.map fun d => ',' :: decimal d

/-- `array_shape`. -/
def arrayShape (dims : List Nat) : Outcome Text :=
  if ∀ part ∈ shapeParts dims, part.length < maxNumLength then
    .ok ('[' :: ((shapeParts dims).flatten ++ [']']))
  else .fail

/-- `leading_string`, at the top. -/
def leading (nested : Bool) : Text := if nested then [] else lit "\"type\": "

/-- An invalid datatype has no size. -/
def sized (size : Nat) (body : Outcome Text) : Outcome Text := if size = 0 then .fail else body

mutual

/-- `RV_convert_datatype_to_JSON`. The buffer of a datatype at the top is filled with NUL characters
by the `strncpy` of the leading string. A nested compound without members appends to a buffer that
nothing was written to, an enumeration without members prints one, and the value of an enumeration
wider than eight bytes is copied past its buffer. -/
def rvConvertDatatypeToJson (nested : Bool) : Datatype → Outcome Text
  | .integer base => sized base.size <|
      base.name.bind fun name =>
        .ok (leading nested ++ (lit "\x7b\"class\": \"H5T_INTEGER\", \"base\": \"" ++ name ++
          lit "\"\x7d"))
  | .float size order => sized size <|
      (rvConvertPredefinedDatatypeToString (lit "IEEE") (lit "F") size order).bind fun name =>
        .ok (leading nested ++ (lit "\x7b\"class\": \"H5T_FLOAT\", \"base\": \"" ++ name ++
          lit "\"\x7d"))
  | .string none _ _ =>
      .ok (leading nested ++ (lit "\x7b\"class\": \"H5T_STRING\", \"charSet\": \"" ++
        lit "H5T_CSET_ASCII" ++ lit "\", \"strPad\": \"" ++ lit "H5T_STR_NULLTERM" ++
        lit "\", \"length\": \"H5T_VARIABLE\"\x7d"))
  | .string (some length) _ _ => sized length <|
      .ok (leading nested ++ (lit "\x7b\"class\": \"H5T_STRING\", \"charSet\": \"" ++
        lit "H5T_CSET_ASCII" ++ lit "\", \"strPad\": \"" ++ lit "H5T_STR_NULLPAD" ++
        lit "\", \"length\": " ++ decimal length ++ lit "\x7d"))
  | .compound size members => sized size <|
      (compoundMemberStrings members).bind fun strings =>
        if nested ∧ strings = [] then .undefined
        else .ok (leading nested ++ (lit "\x7b\"class\": \"H5T_COMPOUND\", \"fields\": [" ++
          (lit ", ").intercalate strings ++ lit "]\x7d"))
  | .enum base members => sized base.size <|
      if members = [] ∨ 8 < base.size then .undefined
      else
        base.name.bind fun name =>
          .ok (leading nested ++ (lit "\x7b\"class\": \"H5T_ENUM\", \"base\": \x7b" ++
            lit "\"class\": \"H5T_INTEGER\", \"base\": \"" ++ name ++
            lit "\"\x7d, \"mapping\": \x7b" ++
            (lit ", ").intercalate (members.map fun m =>
              lit "\"" ++ m.1 ++ lit "\": " ++ decimalInt (enumValue base m.2)) ++
            lit "\x7d\x7d"))
  | .array base dims => sized (dims.prod * base.size) <|
      if dims = [] then .fail
      else
        (arrayShape dims).bind fun shape =>
          (rvConvertDatatypeToJson true base).bind fun baseType =>
            .ok (leading nested ++ (lit "\x7b\"class\": \"H5T_ARRAY\", \"base\": " ++ baseType ++
              lit ", \"dims\": " ++ shape ++ lit "\x7d"))
  | .reference kind =>
      .ok (leading nested ++ (lit "\x7b\"class\": \"H5T_REFERENCE\",\"base\": \"" ++
        (if kind = .object then lit "H5T_STD_REF_OBJ" else lit "H5T_STD_REF_DSETREG") ++
        lit "\"\x7d"))
  | .other _ => .fail

/-- The texts of the members of a compound. -/
def compoundMemberStrings : List (Text × Nat × Datatype) → Outcome (List Text)
  | [] => .ok []
  | (name, _, memberType) :: members =>
      (rvConvertDatatypeToJson false memberType).bind fun body =>
        (compoundMemberStrings members).bind fun strings =>
          .ok ((lit "\x7b\"name\": \"" ++ name ++ lit "\", " ++ body ++ lit "\x7d") :: strings)

end

/-! ## Sections of a text -/

/-- The loop of `FIND_JSON_SECTION_END`: the text behind the brace that ends the section. A symbol
is `escaped` when a backslash before it is not skipped itself. -/
def sectionEnd : Bool → Bool → Nat → Text → Option Text
  | _, _, 0, text => some text
  | _, _, _ + 1, [] => none
  | suspended, escaped, depth + 1, c :: text =>
      if escaped ∧ (c = '\\' ∨ c = '"') then sectionEnd suspended false (depth + 1) text
      else if c = '\\' then sectionEnd suspended true (depth + 1) text
      else if c = '"' then sectionEnd (!suspended) false (depth + 1) text
      else if c = '{' ∧ suspended = false then sectionEnd suspended false (depth + 2) text
      else if c = '}' ∧ suspended = false then sectionEnd suspended false depth text
      else sectionEnd suspended false (depth + 1) text

theorem sectionEnd_suffix {suspended escaped : Bool} {depth : Nat} {text rest : Text}
    (h : sectionEnd suspended escaped depth text = some rest) : rest <:+ text := by
  fun_induction sectionEnd suspended escaped depth text with
  | case1 => cases h; exact List.suffix_rfl
  | case2 => cases h
  | case3 | case4 | case5 | case6 | case7 | case8 =>
      rename_i ih
      exact (ih h).trans (List.suffix_cons _ _)

/-- `FIND_JSON_SECTION_END` from an opening brace on. -/
def findJsonSectionEnd (start : Text) : Option Text := sectionEnd false false 1 start.tail

/-- The part of a text before one of its suffixes. -/
def before (text rest : Text) : Text := text.take (text.length - rest.length)

/-- The section that begins with a key: where the key stands, where its first brace stands, and the
text behind the section. -/
def findSection (key text : Text) : Option (Text × Text × Text) :=
  (strstr key text).bind fun sectionPtr =>
    (strstr (lit "\x7b") sectionPtr).bind fun sectionStart =>
      (findJsonSectionEnd sectionStart).map fun sectionEnd => (sectionPtr, sectionStart, sectionEnd)

/-! ## The reader -/

/-- `YAJL_IS_INTEGER` of a number. -/
def isInteger (value : Int) : Prop := -(2 ^ 63) ≤ value ∧ value < 2 ^ 63

instance (value : Int) : Decidable (isInteger value) := inferInstanceAs (Decidable (_ ∧ _))

/-- A character of a C string; the terminator is the last one. -/
def charAt (text : Text) (k : Nat) : Outcome Char :=
  match (text ++ ['\x00'])[k]? with
  | none => .undefined
  | some c => .ok c

/-- The sizes of `predefined_type` with the place of the symbol for the byte order. -/
def integerSize (digit : Char) : Option (Nat × Nat) :=
  if digit = '8' then some (1, 10)
  else if digit = '1' then some (2, 11)
  else if digit = '3' then some (4, 11)
  else if digit = '6' then some (8, 11)
  else none

/-- The predefined integer that `type_base` names. -/
def integerOfBase (typeBase : Text) : Outcome IntegerType :=
  (charAt typeBase 8).bind fun sign =>
    (charAt typeBase 9).bind fun digit =>
      match integerSize digit with
      | none => .fail
      | some (size, place) =>
          (charAt typeBase place).bind fun order =>
            .ok ⟨size, if order = 'L' then .little else .big, decide (sign ≠ 'U')⟩

/-- The predefined float that `type_base` names. -/
def floatOfBase (typeBase : Text) : Outcome Datatype :=
  (charAt typeBase 10).bind fun digit =>
    if digit = '3' ∨ digit = '6' then
      (charAt typeBase 12).bind fun order =>
        .ok (.float (if digit = '3' then 4 else 8) (if order = 'L' then .little else .big))
    else .fail

/-- The string of `type_base_keys`. -/
def typeBase (tree : Json) : Outcome Text :=
  match tree.at? [lit "type", lit "base"] with
  | some (.string base) => .ok base
  | _ => .fail

/-- The branch for strings. The length of a number that is no integer is not defined. -/
def convertString (tree : Json) : Outcome Datatype :=
  match tree.at? [lit "type", lit "length"], tree.at? [lit "type", lit "charSet"],
      tree.at? [lit "type", lit "strPad"] with
  | some length, some (.string charSet), some (.string strPad) =>
      if charSet ≠ lit "H5T_CSET_ASCII" then .fail
      else
        match length with
        | .string _ =>
            if strPad ≠ lit "H5T_STR_NULLTERM" then .fail else .ok (.string none .nullterm .ascii)
        | .number value =>
            if strPad ≠ lit "H5T_STR_NULLPAD" then .fail
            else if ¬ isInteger value then .undefined
            else if value ≤ 0 then .fail
            else .ok (.string (some value.toNat) .nullpad .ascii)
        | _ => if strPad ≠ lit "H5T_STR_NULLPAD" then .fail else .undefined
  | _, _, _ => .fail

/-- The last `name` among the members of a field. -/
def lastName : Option Text → List (Text × Json) → Outcome (Option Text)
  | found, [] => .ok found
  | found, (key, x) :: members =>
      if key = lit "name" then
        match x with
        | .string name => lastName (some name) members
        | _ => .fail
      else lastName found members

/-- The names of the fields. `YAJL_GET_OBJECT` of a field that is no object is NULL. -/
def compoundMemberNames : List Json → Outcome (List (Option Text))
  | [] => .ok []
  | .object _ _ members :: fields =>
      (lastName none members).bind fun name =>
        (compoundMemberNames fields).bind fun names => .ok (name :: names)
  | _ :: _ => .undefined

/-- The types of as many fields, each converted from the next section of the text. The search goes
on behind the symbol after a section, which must be inside the text. -/
def compoundMemberTypes (convert : Text → Outcome Datatype) : Nat → Text → Outcome (List Datatype)
  | 0, _ => .ok []
  | count + 1, text =>
      match findSection (lit "\"type\"") text with
      | none => .fail
      | some (sectionPtr, _, rest) =>
          (convert (lit "\x7b" ++ before sectionPtr rest ++ lit "\x7d")).bind fun memberType =>
            if rest = [] ∧ count ≠ 0 then .undefined
            else (compoundMemberTypes convert count rest.tail).bind fun types =>
              .ok (memberType :: types)

/-- The `H5Tinsert` of the fields behind those that are there. -/
def insertFields : List (Text × Nat × Datatype) → Nat → List (Option Text) → List Datatype →
    Outcome (List (Text × Nat × Datatype))
  | inserted, offset, name :: names, memberType :: types =>
      match name with
      | none => .fail
      | some name =>
          if name = [] ∨ name ∈ inserted.map Prod.fst then .fail
          else insertFields (inserted ++ [(name, offset, memberType)]) (offset + memberType.size)
            names types
  | inserted, _, _, _ => .ok inserted

/-- The branch for compounds. -/
def convertCompound (convert : Text → Outcome Datatype) (text : Text) (tree : Json) :
    Outcome Datatype :=
  match tree.at? [lit "type", lit "fields"] with
  | some (.array _ fields) =>
      if fields = [] then .fail
      else
        (compoundMemberNames fields).bind fun names =>
          match strstr (lit "\"fields\"") text with
          | none => .fail
          | some sectionPtr =>
              (compoundMemberTypes convert fields.length sectionPtr).bind fun types =>
                (insertFields [] 0 names types).bind fun members =>
                  .ok (.compound (types.map Datatype.size).sum members)
  | _ => .fail

/-- The text of the `base` section, as a datatype of its own. -/
def convertBase (convert : Text → Outcome Datatype) (text : Text) : Outcome Datatype :=
  match findSection (lit "\"base\"") text with
  | none => .fail
  | some (_, sectionStart, rest) =>
      convert (lit "\x7b\"type\":" ++ before sectionStart rest ++ lit "\x7d")

/-- `array_dims`; a dimension that is no integer is left as it was. -/
def arrayDims : List Json → Outcome (List Nat)
  | [] => .ok []
  | .number value :: items =>
      if isInteger value then (arrayDims items).bind fun dims => .ok (toSize value :: dims)
      else .undefined
  | _ :: _ => .undefined

/-- The branch for arrays, with the checks of `H5Tarray_create2`. -/
def convertArray (convert : Text → Outcome Datatype) (text : Text) (tree : Json) :
    Outcome Datatype :=
  match tree.at? [lit "type", lit "dims"] with
  | some (.array _ items) =>
      if items = [] then .fail
      else
        (convertBase convert text).bind fun base =>
          (arrayDims items).bind fun dims =>
            if 32 < dims.length ∨ 0 ∈ dims then .fail else .ok (.array base dims)
  | _ => .fail

/-- `H5Tconvert` from `H5T_NATIVE_LLONG`: a value outside the range becomes the nearest one. -/
def clip (base : IntegerType) (value : Int) : Int :=
  if base.signed then
    max (-(2 ^ (8 * base.size - 1))) (min value (2 ^ (8 * base.size - 1) - 1))
  else max 0 (min value (2 ^ (8 * base.size) - 1))

/-- The `H5Tenum_insert` of the members of a mapping behind those that are there. -/
def insertValues (base : IntegerType) : List (Text × Int) → List (Text × Json) →
    Outcome (List (Text × Int))
  | inserted, [] => .ok inserted
  | inserted, (name, .number value) :: members =>
      if ¬ isInteger value then .fail
      else if name = [] ∨ name ∈ inserted.map Prod.fst ∨
          clip base value ∈ inserted.map Prod.snd then .fail
      else insertValues base (inserted ++ [(name, clip base value)]) members
  | _, _ :: _ => .fail

/-- The branch for enumerations. -/
def convertEnum (convert : Text → Outcome Datatype) (text : Text) (tree : Json) :
    Outcome Datatype :=
  (convertBase convert text).bind fun
    | .integer base =>
        match tree.at? [lit "type", lit "mapping"] with
        | some (.object _ _ mapping) =>
            (insertValues base [] mapping).bind fun members => .ok (.enum base members)
        | _ => .fail
    | _ => .fail

/-- The branch for references. -/
def referenceOfBase (typeBase : Text) : Outcome Datatype :=
  if typeBase = lit "H5T_STD_REF_OBJ" then .ok (.reference .object)
  else if typeBase = lit "H5T_STD_REF_DSETREG" then .ok (.reference .region)
  else .fail

/-- The branches for the classes. -/
def convertClass (convert : Text → Outcome Datatype) (text : Text) (tree : Json)
    (datatypeClass : Text) : Outcome Datatype :=
  if datatypeClass = lit "H5T_INTEGER" then
    (typeBase tree).bind fun base => (integerOfBase base).bind fun base => .ok (.integer base)
  else if datatypeClass = lit "H5T_FLOAT" then (typeBase tree).bind floatOfBase
  else if datatypeClass = lit "H5T_STRING" then convertString tree
  else if datatypeClass = lit "H5T_COMPOUND" then convertCompound convert text tree
  else if datatypeClass = lit "H5T_ARRAY" then convertArray convert text tree
  else if datatypeClass = lit "H5T_ENUM" then convertEnum convert text tree
  else if datatypeClass = lit "H5T_REFERENCE" then (typeBase tree).bind referenceOfBase
  else .fail

section Reader

variable (parse : Text → Option Json)

/-- `RV_convert_JSON_to_datatype`, with a bound on its depth. -/
def rvConvertJsonToDatatype : Nat → Text → Outcome Datatype
  | 0, _ => .undefined
  | depth + 1, text =>
      match parse text with
      | none => .fail
      | some tree =>
          match tree.at? [lit "type", lit "class"] with
          | some (.string datatypeClass) =>
              convertClass (rvConvertJsonToDatatype depth) text tree datatypeClass
          | _ => .fail

/-- `RV_parse_datatype` of a text that may hold more than the datatype. Every text converted inside
another is shorter. -/
def rvParseDatatype (text : Text) : Outcome Datatype :=
  match findSection (lit "\"type\"") text with
  | none => .fail
  | some (sectionPtr, _, rest) =>
      let typeString := lit "\x7b" ++ before sectionPtr rest ++ lit "\x7d"
      rvConvertJsonToDatatype parse typeString.length typeString

end Reader

end XHDF5.Client
