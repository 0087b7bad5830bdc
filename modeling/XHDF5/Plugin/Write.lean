/-
# The plugin's write

A PUT for the value of a dataset hands the request body to `Xrd_write_to_dataset`, which writes
the whole dataset from it. How many bytes that takes depends on the dataset alone, and the
selection of the request is not looked at.
-/

import XHDF5.Client.Url
import XHDF5.Plugin.Route

namespace XHDF5.Plugin

open XHDF5.Math XHDF5.Client

/-- A dataset in a file: its extent, the size of its elements, and the elements in row-major
order. -/
structure StoredDataset where
  dims : List Nat
  size : Nat
  elements : List (List UInt8)
  length_elements : elements.length = dims.prod

/-- The datasets of a file by the links that lead to them. The root is a group. -/
structure H5File where
  dataset : List Text → Option StoredDataset
  root : dataset [] = none

/-- `H5Dwrite` with `H5S_ALL` on both sides. -/
def StoredDataset.fill (stored : StoredDataset) (buffer : Memory UInt8) : StoredDataset where
  dims := stored.dims
  size := stored.size
  elements := (List.range stored.dims.prod).map fun k => buffer.read (k * stored.size) stored.size
  length_elements := by simp

theorem H5File.ne_nil (file : H5File) {path : List Text} {stored : StoredDataset}
    (h : file.dataset path = some stored) : path ≠ [] := by
  rintro rfl
  rw [file.root] at h
  cases h

/-- The file after one dataset was replaced. -/
def H5File.replace (file : H5File) (path : List Text) (stored : StoredDataset) (h : path ≠ []) :
    H5File where
  dataset := Function.update file.dataset path (some stored)
  root := by rw [Function.update_of_ne h.symm, file.root]

/-- `Xrd_write_to_dataset`: the file afterwards, and how many bytes of the buffer became data. A
path that leads to no dataset makes every call of the library fail, which nothing checks. -/
def xrdWriteToDataset (file : H5File) (h5path : Text) (buffer : Memory UInt8) : H5File × Nat :=
  match h : file.dataset (components h5path) with
  | none => (file, 0)
  | some stored =>
      (file.replace (components h5path) (stored.fill buffer) (file.ne_nil h),
        stored.dims.prod * stored.size)

/-- What a PUT for a value does to the file; `none` when `std::stoi` throws. -/
def putValue (file : H5File) (h5path : Text) (body : Body) : Option (H5File × Nat) :=
  body.terminated.map (xrdWriteToDataset file h5path)

/-! ## Spec lemmas -/

section Write

variable {file : H5File} {h5path : Text} {buffer : Memory UInt8}

theorem xrdWriteToDataset_other (path : List Text) (hne : path ≠ components h5path) :
    (xrdWriteToDataset file h5path buffer).1.dataset path = file.dataset path := by
  rw [xrdWriteToDataset]
  split
  · rfl
  · exact Function.update_of_ne hne _ _

theorem xrdWriteToDataset_same {stored : StoredDataset}
    (h : file.dataset (components h5path) = some stored) :
    (xrdWriteToDataset file h5path buffer).1.dataset (components h5path) =
        some (stored.fill buffer) ∧
      (xrdWriteToDataset file h5path buffer).2 = stored.dims.prod * stored.size := by
  rw [xrdWriteToDataset]
  split
  · next hnone =>
      rw [hnone] at h
      cases h
  · next stored' hstored =>
      obtain rfl := Option.some.inj (hstored.symm.trans h)
      exact ⟨Function.update_self _ _ _, rfl⟩

end Write

end XHDF5.Plugin
