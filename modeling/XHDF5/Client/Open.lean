/-
# Opening a dataset

`RV_dataset_open` takes everything from the one response that describes the dataset: where it is, its
dataspace, its datatype and its creation properties. A dataspace of an open dataset with the same
identifier is taken instead of the described one.

The JSON parser is a parameter. It hands back a tree of values; the parts of the connector that know
only whole numbers look at the tree without what follows them.
-/

import XHDF5.Client.CreationProperties
import XHDF5.Client.DataspaceJson

namespace XHDF5.Client

open XHDF5.Math

/-- `URI_MAX_LENGTH`. -/
def uriMaxLength : Nat := 256

/-- `loc_info`: the path of the file and the identifier of the object. -/
structure LocInfo where
  domain : Text
  uri : Text
deriving DecidableEq

/-- What `RV_dataset_open` sets up. -/
structure OpenedDataset (S : Type) where
  loc : LocInfo
  space : S
  type : Datatype
  dcpl : CreationProperties

section Open

variable (yajl : Text → Option Doc)

/-- The string at a key, or at a key in the value at another key. -/
def stringAt (tree : Doc) : List Text → Option Text
  | [key] => (tree.member key).bind Doc.string?
  | [outer, key] => (tree.member outer).bind fun x => (x.member key).bind Doc.string?
  | _ => none

/-- The parser for the parts that look only for strings and whole numbers. -/
def yajlTreeParse (text : Text) : Option Json := (yajl text).bind Doc.json?

/-- `RV_copy_object_URI_callback` for a new object. A link that is not hard leaves its URI empty; there
is no NUL behind a URI that fills the array. -/
def rvCopyObjectUriCallback (response : Text) : Outcome Text :=
  match yajl response with
  | none => .fail
  | some tree =>
      if stringAt tree [lit "link", lit "class"] ∈
          [some (lit "H5L_TYPE_SOFT"), some (lit "H5L_TYPE_EXTERNAL"), some (lit "H5L_TYPE_UD")] then
        .ok []
      else
        match (stringAt tree [lit "link", lit "id"]).or
            ((stringAt tree [lit "id"]).or (stringAt tree [lit "root"])) with
        | none => .fail
        | some uri => if uriMaxLength ≤ uri.length then .undefined else .ok uri

/-- `RV_copy_object_loc_info_callback`. -/
def rvCopyObjectLocInfo (response : Text) : Outcome LocInfo :=
  match yajl response with
  | none => .fail
  | some tree =>
      match stringAt tree [lit "domain"], stringAt tree [lit "root"] with
      | some domain, some root =>
          if uriMaxLength < root.length then .fail
          else (rvCopyObjectUriCallback yajl response).bind fun uri => .ok ⟨domain, uri⟩
      | _, _ => .fail

/-- The dataspace of an opened dataset: that of the first other one with the same URI, if there is
one, and else a new one. -/
def openedSpace {S : Type} (others : List (Text × S)) (register : Dataspace → S) (uri response : Text) :
    Outcome S :=
  match others.find? fun other => other.1 = uri with
  | some other => .ok other.2
  | none => (rvParseDataspace (yajlTreeParse yajl) response).bind fun space => .ok (register space)

/-- `RV_dataset_open` behind the search for the dataset. The other open datasets come in the order of
the hash table with their URIs and their dataspaces. -/
def rvDatasetOpenDescribed {S : Type} (others : List (Text × S)) (register : Dataspace → S) (response : Text) :
    Outcome (OpenedDataset S) :=
  (rvCopyObjectLocInfo yajl response).bind fun loc =>
    (openedSpace yajl others register loc.uri response).bind fun space =>
      (rvParseDatatype (yajlTreeParse yajl) response).bind fun type =>
        (rvParseDatasetCreationPropertiesCallback yajl type.size response).bind fun dcpl =>
          .ok ⟨loc, space, type, dcpl⟩

end Open

end XHDF5.Client
