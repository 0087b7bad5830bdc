/-
# The plugin's dataset creation

`Xrd_create_dataset` does not look at the structure of the JSON text. It goes through the tokens in
steps of two, takes every token it lands on for a key, at whatever depth, and the token behind it
for the value.
-/

import XHDF5.Plugin.Jsmn
import XHDF5.Plugin.Write

namespace XHDF5.Plugin

open XHDF5.Math XHDF5.Client

/-- What the loop over the tokens has found so far. -/
structure Found where
  h5path : Text
  baseType : Text
  rank : Nat
  shape : List Int
deriving DecidableEq

/-- `jsoneq`, for success. -/
def jsoneq (text : Text) (token : JsmnTok) (key : Text) : Bool :=
  token.type = .string ∧ tokenText text token = key

/-- The loop over the tokens from the token `i` on, with a bound on its rounds. There is no result
when a token beyond the parsed ones is read, or when `std::stoi` throws. -/
def walkTokens (text : Text) (t : List JsmnTok) : Nat → Nat → Found → Option Found
  | 0, _, found => some found
  | rounds + 1, i, found =>
      match t[i]? with
      | none => some found
      | some key =>
          if jsoneq text key (lit "name") then
            t[i + 1]?.bind fun value =>
              walkTokens text t rounds (i + 2) { found with h5path := tokenText text value }
          else if jsoneq text key (lit "shape") then
            t[i + 1]?.bind fun value =>
              if value.type ≠ .array then walkTokens text t rounds (i + 1) found
              else
                ((List.range value.size).mapM fun j =>
                  t[i + j + 2]?.bind fun g => stoi (tokenText text g)).bind fun sizes =>
                    walkTokens text t rounds (i + 2)
                      { found with rank := value.size, shape := found.shape ++ sizes }
          else if jsoneq text key (lit "base") then
            t[i + 1]?.bind fun value =>
              walkTokens text t rounds (i + 2) { found with baseType := tokenText text value }
          else walkTokens text t rounds (i + 2) found

/-- The base types of `h5basetype_string_to_id` with the sizes of their elements. -/
def baseTypes : List (Text × Nat) :=
  [(lit "H5T_STD_I8LE", 1), (lit "H5T_STD_I16LE", 2), (lit "H5T_STD_I32LE", 4),
    (lit "H5T_STD_I64LE", 8), (lit "H5T_IEEE_F32LE", 4), (lit "H5T_IEEE_F64LE", 8),
    (lit "H5T_STD_U16LE", 2), (lit "H5T_STD_U32LE", 4), (lit "H5T_STD_U64LE", 8)]

/-- `h5basetype_string_to_id`, with the element size in place of the identifier. -/
def h5basetypeStringToId (baseType : Text) : Option Nat :=
  (baseTypes.find? fun entry => entry.1 = baseType).map Prod.snd

/-- The dataset that `Xrd_create_dataset` asks the library for. -/
structure NewDataset where
  h5path : Text
  baseType : Text
  size : Nat
  dims : List Nat
deriving DecidableEq

/-- `t[128]`. -/
def maxTokens : Nat := 128

/-- `Xrd_create_dataset` up to the calls of the library: no defined result, an answer without an
identifier, or the dataset to create. -/
def xrdCreateDataset (text : Text) : Option (Option NewDataset) :=
  match jsmnParse maxTokens text with
  | .error _ => some none
  | .ok t =>
      (walkTokens text t t.length 1 ⟨[], [], 0, []⟩).map fun found =>
        if found.h5path = [] ∨ found.baseType = [] ∨ found.rank = 0 then none
        else
          (h5basetypeStringToId found.baseType).map fun size =>
            { h5path := found.h5path
              baseType := found.baseType
              size
              dims := (found.shape.map toSize).take found.rank }

/-- A dataset of zeros, the default fill value. -/
def StoredDataset.zeros (dims : List Nat) (size : Nat) : StoredDataset where
  dims := dims
  size := size
  elements := List.replicate dims.prod (List.replicate size 0)
  length_elements := List.length_replicate

/-- `H5Dcreate2` from the root, if the library creates the dataset; it never does where a link of
that name exists, and a path without a name is the root itself. -/
def h5dcreate (granted : Bool) (file : H5File) (new : NewDataset) : H5File :=
  if h : granted ∧ file.dataset (components new.h5path) = none ∧ components new.h5path ≠ [] then
    file.replace (components new.h5path) (.zeros new.dims new.size) h.2.2
  else file

/-- A creation leaves the datasets that are there. -/
theorem h5dcreate_dataset {granted : Bool} {file : H5File} {new : NewDataset} {path : List Text}
    {stored : StoredDataset} (h : file.dataset path = some stored) :
    (h5dcreate granted file new).dataset path = some stored := by
  rw [h5dcreate]
  split
  · next hnew =>
      have hne : path ≠ components new.h5path := by
        rintro rfl
        rw [hnew.2.1] at h
        cases h
      exact (Function.update_of_ne hne _ _).trans h
  · exact h

end XHDF5.Plugin
