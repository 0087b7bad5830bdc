/-
# The routes of the plugin

`ProcessReq` decides what to do with a request by a cascade of tests on the verb, the resource and
the two parameters it knows. The third segment of the resource is taken for the identifier of a
dataset, whatever the other segments are.
-/

import XHDF5.Math.CInt
import XHDF5.Math.Region
import XHDF5.Plugin.Query

namespace XHDF5.Plugin

open XHDF5.Math

/-- The ends of the cascade. -/
inductive Route
  | notHdf5
  | createFile
  | writeValue
  | deleteFile
  | createDataset
  | rootInfo
  | datasetInfo
  | readValue
  | readSelection
  | parameterError
deriving DecidableEq

/-- The parts of the resource between the slashes. -/
def partsOf (resource : Text) : List Text := getlines '/' resource

/-- `parts[2]`, if there is one. -/
def idOf (resource : Text) : Text := ((partsOf resource)[2]?).getD []

/-- The cascade. A file that is not HDF5 is only met by a PUT. -/
def route (isHdf5File : Bool) (verb resource h5path select : Text) : Route :=
  if verb ≠ lit "PUT" ∧ !isHdf5File then .notHdf5
  else if verb = lit "PUT" ∧ resource = lit "/" then .createFile
  else if verb = lit "PUT" ∧ idOf resource ≠ [] then .writeValue
  else if verb = lit "DELETE" ∧ resource = lit "/" then .deleteFile
  else if verb = lit "POST" ∧ resource = lit "/datasets" then .createDataset
  else if verb = lit "GET" then
    if h5path = [] ∧ idOf resource = [] then .rootInfo
    else if idOf resource = [] then .datasetInfo
    else if select = [] then .readValue
    else .readSelection
  else .parameterError

/-- The body of a request: its bytes, how many of them `BuffgetData` had at hand when it was
asked, and what else the buffer holds. -/
structure Body where
  bytes : List UInt8
  available : Nat
  behind : Memory UInt8

/-- The buffer of `BuffgetData`. -/
def Body.buffgetData (b : Body) : Memory UInt8 := b.behind.write 0 (b.bytes.take b.available)

/-- The buffer after the terminator was stored behind `Content-Length` bytes; `none` when
`std::stoi` throws. -/
def Body.terminated (b : Body) : Option (Memory UInt8) :=
  (stoi (decimal b.bytes.length)).map fun len => b.buffgetData.write len.toNat [0]

/-! ## Spec lemmas -/

/-- The verbs that the cascade knows are different texts. -/
theorem verbs_ne : lit "PUT" ≠ lit "DELETE" ∧ lit "PUT" ≠ lit "POST" ∧ lit "PUT" ≠ lit "GET" ∧
    lit "DELETE" ≠ lit "POST" ∧ lit "DELETE" ≠ lit "GET" ∧ lit "POST" ≠ lit "GET" := by
  unfold lit
  decide

/-- The parts of the resource of a value. -/
theorem partsOf_value {id : Text} (hid : '/' ∉ id) :
    partsOf (lit "/datasets/" ++ (id ++ lit "/value")) = [[], lit "datasets", id, lit "value"] := by
  have hwords : lit "/datasets/" ++ (id ++ lit "/value") =
      ['/'].intercalate [[], lit "datasets", id, lit "value"] := by
    have hfirst : lit "/datasets/" = '/' :: (lit "datasets" ++ ['/']) := by
      unfold lit
      decide
    have hlast : lit "/value" = '/' :: lit "value" := by
      unfold lit
      decide
    rw [hfirst, hlast]
    simp [List.intercalate]
  have hlits : '/' ∉ lit "datasets" ∧ '/' ∉ lit "value" ∧ lit "value" ≠ [] := by
    unfold lit
    decide
  rw [hwords]
  apply getlines_intercalate
  · simp [hlits.1, hlits.2.1, hid]
  · simp
  · simpa using hlits.2.2

theorem Body.terminated_eq (b : Body) :
    b.terminated = if b.bytes.length < 2 ^ 31 then
      some (b.buffgetData.write b.bytes.length [0]) else none := by
  rw [Body.terminated, stoi_decimal]
  split <;> simp

/-- The bytes that are at hand are those of the body. -/
theorem Body.read_terminated {b : Body} {first size : Nat} (hbody : first + size ≤ b.bytes.length)
    (havailable : first + size ≤ b.available) :
    (b.buffgetData.write b.bytes.length [0]).read first size =
      (b.behind.write 0 b.bytes).read first size := by
  refine List.map_congr_left fun address haddress => ?_
  have hlt := (List.mem_range'_1.mp haddress).2
  have htake : address < (b.bytes.take b.available).length := by
    rw [List.length_take]
    omega
  have hfirst := @Memory.write_add _ b.behind 0 _ _ htake
  have hsecond := @Memory.write_add _ b.behind 0 _ _ (show address < b.bytes.length by omega)
  rw [Nat.zero_add] at hfirst hsecond
  rw [Memory.write_of_lt (by omega), Body.buffgetData, hfirst, hsecond, List.getElem_take]

/-- A dataset's value is written by any PUT whose resource has a third part. -/
theorem route_put {isHdf5File : Bool} {resource h5path select : Text} (hroot : resource ≠ lit "/")
    (hid : idOf resource ≠ []) : route isHdf5File (lit "PUT") resource h5path select = .writeValue := by
  rw [route, if_neg fun h => h.1 rfl, if_neg fun h => hroot h.2, if_pos ⟨rfl, hid⟩]

end XHDF5.Plugin
