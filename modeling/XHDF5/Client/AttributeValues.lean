/-
# Attribute values

`RV_attr_write` sends the memory of the elements as it is, and `RV_attr_read` copies as many bytes of the
response as the elements have in the memory datatype of the read. Neither converts anything, and the second
does not look at how much arrived: it copies from the response buffer whatever is there.

The user's buffers have the size of their elements. Headers and the options of cURL are left out.
-/

import XHDF5.Client.Perform
import XHDF5.Client.Url
import XHDF5.Math.JsonGrammar

namespace XHDF5.Client.AttributeValues

open XHDF5.Math XHDF5.Client

/-! ## The requests -/

/-- `parent_obj_type`. -/
inductive ParentType
  | file
  | group
  | datatype
  | dataset
  | other
deriving DecidableEq

/-- The collection that a parent object is in. -/
def ParentType.collection : ParentType → Option Text
  | .file | .group => some (lit "/groups/")
  | .datatype => some (lit "/datatypes/")
  | .dataset => some (lit "/datasets/")
  | .other => none

/-- The object that is passed as an attribute, with the number of points of its dataspace. -/
structure Attribute where
  isAttr : Bool
  writeIntent : Bool
  npoints : Nat
  parentType : ParentType
  parentURI : Text
  attrName : Text

/-- A datatype in memory: its size, and whether it is a variable-length one or a variable string. -/
structure MemoryType where
  size : Nat
  isVariable : Bool
  size_pos : 0 < size

/-- `is_transfer_binary`. -/
def MemoryType.isTransferBinary (m : MemoryType) : Bool := !m.isVariable

section Requests

variable (baseURL : Text) (e : EasyEscape) (a : Attribute) (m : MemoryType)

/-- The URL of the value. -/
def valueUrl : Option Text :=
  a.parentType.collection.bind fun collection =>
    checkUrl (baseURL ++ collection ++ a.parentURI ++ lit "/attributes/" ++
      curlEasyEscape e a.attrName ++ lit "/value")

/-- A PUT request for the value. -/
structure AttrPut where
  url : Text
  isTransferBinary : Bool
  body : List UInt8

/-- `RV_attr_write`, up to the request. -/
def rvAttrWrite (buf : Option (List UInt8)) : Outcome AttrPut :=
  if a.isAttr = false then .fail
  else
    match buf with
    | none => .fail
    | some values =>
        if a.writeIntent = false then .fail
        else
          match valueUrl baseURL e a with
          | none => .fail
          | some url =>
              let writeBodyLen := a.npoints * m.size
              if values.length < writeBodyLen then .undefined
              else .ok ⟨url, m.isTransferBinary, values.take writeBodyLen⟩

/-- `RV_attr_read` into a buffer that is there: the response buffer behind it, and what is copied. -/
def rvAttrRead (response : Response) (b : SharedBuffer) : SharedBuffer × Outcome (List UInt8) :=
  if a.isAttr = false ∨ valueUrl baseURL e a = none then (b, .fail)
  else
    let result := curlPerform true response b
    (result.1, result.2.bind fun _ =>
      if result.1.bufferSize < a.npoints * m.size then .undefined
      else .ok (result.1.memory.read 0 (a.npoints * m.size)))

end Requests

/-! ## Round trips -/

/-- What the library does to one element between the memory datatypes of a write and a read and the
datatype of the attribute. -/
structure AttrConversion (m₁ m₂ : MemoryType) where
  toAttr : List UInt8 → List UInt8
  fromAttr : List UInt8 → List UInt8
  length_fromAttr : ∀ element, (fromAttr element).length = m₂.size

/-- The elements of a buffer. -/
def elements (size count : Nat) (values : List UInt8) : List (List UInt8) :=
  (List.range count).map fun k => (values.drop (k * size)).take size

/-- The values of a buffer, each converted to the attribute's datatype and from there. -/
def AttrConversion.converted {m₁ m₂ : MemoryType} (c : AttrConversion m₁ m₂) (count : Nat)
    (values : List UInt8) : List UInt8 :=
  ((elements m₁.size count values).map fun element => c.fromAttr (c.toAttr element)).flatten

section RoundTrips

variable (baseURL : Text) (e : EasyEscape) (a : Attribute) {m₁ m₂ : MemoryType}
  (c : AttrConversion m₁ m₂)

/-- A read of a response of some length copies only what was received, as many bytes as the elements have,
or fails; and if the response is what a write sent, the read gives the values of the write, converted. -/
def ReadsBack (len : Nat) : Prop :=
  ∀ b, Ready b → ∀ response : Response, response.body.length = len →
    (rvAttrRead baseURL e a m₂ response b).2 ≠ .undefined ∧
      ∀ bytes, (rvAttrRead baseURL e a m₂ response b).2 = .ok bytes →
        bytes.length = a.npoints * m₂.size ∧ bytes <+: response.body ∧
          ∀ values request, values.length = a.npoints * m₁.size →
            rvAttrWrite baseURL e a m₁ (some values) = .ok request → response.body = request.body →
              bytes = c.converted a.npoints values

/-- What is announced as JSON is a JSON text. -/
def SendsJson (m₁ : MemoryType) : Prop :=
  ∀ values request, values.length = a.npoints * m₁.size →
    rvAttrWrite baseURL e a m₁ (some values) = .ok request → request.isTransferBinary = false →
      request.body ≠ [] → JsonText (request.body.map fun byte => Char.ofNat byte.toNat)

/-- Attribute values go through the server, whatever the length of the response to the read. -/
def RoundTrips (len : Nat) : Prop :=
  SendsJson baseURL e a m₁ ∧ ReadsBack baseURL e a c len

/-! ## What they need -/

/-- The read is refused before its request. -/
def ReadRefused : Prop := a.isAttr = false ∨ valueUrl baseURL e a = none

/-- The write is refused before its request. -/
def WriteRefused : Prop := ReadRefused baseURL e a ∨ a.writeIntent = false

/-- Converting an element cuts it off: it is the identity, or it keeps the first bytes of the only one. -/
def KeepsBytes (count : Nat) : Prop :=
  (m₁.size = m₂.size ∨ count = 1) ∧
    ∀ element : List UInt8, element.length = m₁.size →
      c.fromAttr (c.toAttr element) = element.take m₂.size

/-- There is no write, there are no elements, or nothing is announced as JSON; and there is no read, or as
much is received as is copied, and it is what the conversions make of it. -/
def CopiesValues (len : Nat) : Prop :=
  (WriteRefused baseURL e a ∨ a.npoints = 0 ∨ m₁.isVariable = false) ∧
    (ReadRefused baseURL e a ∨
      a.npoints * m₂.size ≤ len ∧
        (len = a.npoints * m₁.size → WriteRefused baseURL e a ∨ a.npoints = 0 ∨ KeepsBytes c a.npoints))

end RoundTrips

/-! ## JSON texts -/

/-- A value does not begin with a NUL. -/
theorem head_ne_of_jsonValue {text : Text} (h : JsonValue text) :
    ∃ c rest, text = c :: rest ∧ c ≠ '\x00' := by
  have hdigits {digits : Text} (hdigits : Digits digits) :
      ∃ c rest, digits = c :: rest ∧ c ≠ '\x00' := by
    obtain ⟨c, rest, rfl⟩ := List.exists_cons_of_ne_nil hdigits.1
    refine ⟨c, rest, rfl, fun hzero => ?_⟩
    have hdigit := hdigits.2 c List.mem_cons_self
    rw [hzero] at hdigit
    revert hdigit
    decide
  cases h with
  | word h =>
      rcases h with rfl | rfl | rfl | ⟨sign, whole, fraction, exponent, rfl, hsign, hwhole, -⟩
      · exact ⟨'t', ['r', 'u', 'e'], by rw [lit_ofList], by decide⟩
      · exact ⟨'f', ['a', 'l', 's', 'e'], by rw [lit_ofList], by decide⟩
      · exact ⟨'n', ['u', 'l', 'l'], by rw [lit_ofList], by decide⟩
      · rcases hsign with rfl | rfl
        · obtain ⟨c, rest, rfl, hc⟩ := hdigits hwhole
          exact ⟨c, _, rfl, hc⟩
        · exact ⟨'-', _, rfl, by decide⟩
  | string _ => exact ⟨'"', _, rfl, by decide⟩
  | emptyArray _ | array _ => exact ⟨'[', _, rfl, by decide⟩
  | emptyObject _ | object _ => exact ⟨'\x7b', _, rfl, by decide⟩

/-- Neither does a text. -/
theorem not_jsonText_of_nul {rest : Text} : ¬ JsonText ('\x00' :: rest) := by
  rintro ⟨before, x, after, heq, hbefore, hx, -⟩
  cases before with
  | nil =>
      obtain ⟨c, tail, rfl, hc⟩ := head_ne_of_jsonValue hx
      exact hc (List.cons.inj heq).1.symm
  | cons c before =>
      obtain rfl := (List.cons.inj heq).1
      rcases hbefore _ List.mem_cons_self with h | h | h | h <;> revert h <;> decide

/-! ## Elements -/

section Elements

variable {m₁ m₂ : MemoryType} {c : AttrConversion m₁ m₂}

theorem elements_succ {size count : Nat} {element rest : List UInt8} (h : element.length = size) :
    elements size (count + 1) (element ++ rest) = element :: elements size count rest := by
  unfold elements
  rw [List.range_succ_eq_map, List.map_cons, List.map_map]
  congr 1
  · simp [← h]
  · refine List.map_congr_left fun k _ => ?_
    rw [Function.comp_apply, Nat.succ_mul, Nat.add_comm, ← List.drop_drop, ← h, List.drop_left]

theorem converted_succ {count : Nat} {element rest : List UInt8} (h : element.length = m₁.size) :
    c.converted (count + 1) (element ++ rest) =
      c.fromAttr (c.toAttr element) ++ c.converted count rest := by
  rw [AttrConversion.converted, elements_succ h]
  rfl

theorem flatten_elements (size count : Nat) (values : List UInt8) :
    (elements size count values).flatten = values.take (count * size) := by
  induction count with
  | zero => simp [elements]
  | succ count ih =>
      rw [elements, List.range_succ, List.map_append, List.flatten_append, ← elements, ih,
        Nat.succ_mul, List.take_add]
      simp

/-- What the conversions keep of the values is what is copied. -/
theorem converted_of_keepsBytes {count : Nat} (h : KeepsBytes c count) {values : List UInt8}
    (hlen : values.length = count * m₁.size) :
    c.converted count values = values.take (count * m₂.size) := by
  obtain ⟨hsizes, hkeeps⟩ := h
  have hpieces : ∀ element ∈ elements m₁.size count values,
      c.fromAttr (c.toAttr element) = element.take m₂.size := by
    intro element helement
    obtain ⟨k, hk, rfl⟩ := List.mem_map.mp helement
    refine hkeeps _ ?_
    have hlt := List.mem_range.mp hk
    have hle : k * m₁.size + m₁.size ≤ values.length := by
      rw [hlen, ← Nat.succ_mul]
      exact Nat.mul_le_mul_right _ hlt
    rw [List.length_take, List.length_drop]
    omega
  rw [AttrConversion.converted, List.map_congr_left hpieces]
  rcases hsizes with hsize | rfl
  · rw [← hsize, ← flatten_elements]
    congr 1
    refine (List.map_congr_left fun element helement => ?_).trans (List.map_id _)
    obtain ⟨k, -, rfl⟩ := List.mem_map.mp helement
    exact List.take_of_length_le (List.length_take_le _ _)
  · rw [Nat.one_mul] at hlen
    simp [elements, ← hlen]

/-- If the copied bytes are the converted values for all values, the conversions keep bytes. -/
theorem keepsBytes_of_forall {count : Nat} (hpos : count ≠ 0) (hle : m₂.size ≤ m₁.size)
    (h : ∀ values : List UInt8, values.length = count * m₁.size →
      values.take (count * m₂.size) = c.converted count values) : KeepsBytes c count := by
  obtain ⟨more, rfl⟩ := Nat.exists_eq_succ_of_ne_zero hpos
  have hlength (element : List UInt8) (helement : element.length = m₁.size) :
      (element ++ List.replicate (more * m₁.size) 0).length = (more + 1) * m₁.size := by
    rw [List.length_append, helement, List.length_replicate, Nat.succ_mul, Nat.add_comm]
  have hbytes : ∀ element : List UInt8, element.length = m₁.size →
      c.fromAttr (c.toAttr element) = element.take m₂.size := by
    intro element helement
    have hvalues := congrArg (List.take m₂.size) (h _ (hlength element helement))
    rw [converted_succ helement, List.take_take, List.take_append_of_le_length (by
      rw [Nat.min_eq_left (Nat.le_mul_of_pos_left _ (Nat.succ_pos _))]
      omega), Nat.min_eq_left (Nat.le_mul_of_pos_left _ (Nat.succ_pos _)),
      List.take_left' (c.length_fromAttr _)] at hvalues
    exact hvalues.symm
  refine ⟨?_, hbytes⟩
  by_contra hne
  obtain ⟨hsize, hmany⟩ := not_or.mp hne
  obtain ⟨others, rfl⟩ := Nat.exists_eq_succ_of_ne_zero (fun hzero => hmany (by omega) : more ≠ 0)
  -- The byte behind the first converted element belongs to the first element.
  have hmark : (List.replicate m₂.size (0 : UInt8) ++ 1 ::
      List.replicate (m₁.size - m₂.size - 1) 0).length = m₁.size := by
    simp
    omega
  have hvalues := congrArg (fun bytes => bytes[m₂.size]?) (h _ (hlength _ hmark))
  have hpos := m₂.size_pos
  have hzeros : List.replicate ((others + 1) * m₁.size) (0 : UInt8) =
      List.replicate m₁.size 0 ++ List.replicate (others * m₁.size) 0 := by
    rw [List.replicate_append_replicate, Nat.succ_mul, Nat.add_comm]
  have hright : (c.converted (others + 1 + 1) ((List.replicate m₂.size (0 : UInt8) ++ 1 ::
      List.replicate (m₁.size - m₂.size - 1) 0) ++ List.replicate ((others + 1) * m₁.size) 0))[m₂.size]? =
        some 0 := by
    rw [converted_succ hmark, List.getElem?_append_right (by rw [c.length_fromAttr]),
      c.length_fromAttr, Nat.sub_self, hzeros, converted_succ List.length_replicate,
      hbytes _ List.length_replicate, List.take_replicate, Nat.min_eq_left hle,
      List.getElem?_append_left (by simpa using hpos), List.getElem?_replicate, if_pos hpos]
  have hleft : (((List.replicate m₂.size (0 : UInt8) ++ 1 ::
      List.replicate (m₁.size - m₂.size - 1) 0) ++ List.replicate ((others + 1) * m₁.size) 0).take
        ((others + 1 + 1) * m₂.size))[m₂.size]? = some 1 := by
    rw [List.getElem?_take_of_lt (by rw [Nat.succ_mul, Nat.succ_mul]; omega), List.append_assoc,
      List.getElem?_append_right (by simp), List.length_replicate, Nat.sub_self]
    rfl
  have hsame := hleft.symm.trans (hvalues.trans hright)
  exact absurd (Option.some.inj hsame) (by decide)

end Elements

/-! ## What is copied -/

section Copied

variable {baseURL : Text} {e : EasyEscape} {a : Attribute} {m : MemoryType} {b : SharedBuffer}
  {response : Response}

theorem rvAttrRead_of_refused (hread : ReadRefused baseURL e a) :
    rvAttrRead baseURL e a m response b = (b, .fail) :=
  if_pos hread

theorem rvAttrRead_of_not_refused (hread : ¬ ReadRefused baseURL e a) :
    (rvAttrRead baseURL e a m response b).2 = (curlPerform true response b).2.bind fun _ =>
      if (curlPerform true response b).1.bufferSize < a.npoints * m.size then .undefined
      else .ok ((curlPerform true response b).1.memory.read 0 (a.npoints * m.size)) :=
  congrArg Prod.snd (if_neg hread)

/-- A read that succeeds copies from the start of the response, if this is long enough. -/
theorem rvAttrRead_eq (hread : ¬ ReadRefused baseURL e a) (hb : Ready b)
    (hlen : a.npoints * m.size ≤ response.body.length) :
    (rvAttrRead baseURL e a m response b).2 = .fail ∨
      (rvAttrRead baseURL e a m response b).2 =
        .ok (response.body.take (a.npoints * m.size)) := by
  rw [rvAttrRead_of_not_refused hread]
  cases hresult : (curlPerform true response b).2 with
  | undefined =>
      unfold curlPerform handleResponse at hresult
      simp only at hresult
      split at hresult
      · cases hresult
      · split at hresult
        · split at hresult <;> cases hresult
        · cases hresult
  | fail => exact Or.inl rfl
  | ok value =>
      have htaken : (feed response.limit response.chunks b).2 = true := by
        unfold curlPerform at hresult
        simp only at hresult
        split at hresult
        · cases hresult
        · next htaken =>
            by_contra hrefused
            simp [hrefused] at htaken
      have hstored := hb.stored.feed response.chunks htaken
      rw [List.nil_append] at hstored
      have hinside : response.body.length < (curlPerform true response b).1.bufferSize :=
        hstored.inside
      rw [Outcome.ok_bind, if_neg (by omega)]
      refine Or.inr (congrArg Outcome.ok ?_)
      have hfront : (curlPerform true response b).1.memory.read 0 response.body.length =
          response.body := hstored.front
      obtain ⟨rest, hrest⟩ := Nat.exists_eq_add_of_le hlen
      rw [hrest, Memory.read_append] at hfront
      rw [← hfront, List.take_left' (Memory.length_read _)]

/-- Every body can be the response to a read that succeeds. -/
theorem exists_response (hread : ¬ ReadRefused baseURL e a) (body : List UInt8) :
    ∃ b response, Ready b ∧ response.body = body ∧
      (rvAttrRead baseURL e a m response b).2 ≠ .fail := by
  refine ⟨⟨fun _ => 0, 0, body.length + 1⟩, ⟨[body], true, 200, 0⟩, ⟨rfl, Nat.succ_pos _⟩,
    List.append_nil _, ?_⟩
  rw [rvAttrRead_of_not_refused hread]
  have hperform : (curlPerform true ⟨[body], true, 200, 0⟩
      ⟨fun _ => 0, 0, body.length + 1⟩).2 = .ok () := by
    have hgrow : grow (body.length + 1) 0 (body.length + 1) (body.length + 1) = body.length + 1 := by
      simp [grow]
    simp [curlPerform, feed, h5RestCurlWriteDataCallback, hgrow, handleResponse]
  rw [hperform, Outcome.ok_bind]
  split <;> rintro ⟨⟩

end Copied

section Exact

variable {baseURL : Text} {e : EasyEscape} {a : Attribute} {m₁ m₂ : MemoryType}
  {c : AttrConversion m₁ m₂}

theorem rvAttrWrite_of_refused (h : WriteRefused baseURL e a) (values : List UInt8) :
    rvAttrWrite baseURL e a m₁ (some values) = .fail := by
  unfold rvAttrWrite
  by_cases hattr : a.isAttr = false
  · rw [if_pos hattr]
  rw [if_neg hattr]
  by_cases hintent : a.writeIntent = false
  · simp only [if_pos hintent]
  have hurl : valueUrl baseURL e a = none := (h.resolve_right hintent).resolve_left hattr
  simp only [if_neg hintent, hurl]

/-- A write that is not refused sends the memory of its elements. -/
theorem rvAttrWrite_eq (h : ¬ WriteRefused baseURL e a) {values : List UInt8}
    (hlen : values.length = a.npoints * m₁.size) :
    ∃ url, rvAttrWrite baseURL e a m₁ (some values) = .ok ⟨url, m₁.isTransferBinary, values⟩ := by
  obtain ⟨hread, hintent⟩ := not_or.mp h
  obtain ⟨hattr, hurl⟩ := not_or.mp hread
  obtain ⟨url, hurl⟩ := Option.ne_none_iff_exists'.mp hurl
  refine ⟨url, ?_⟩
  rw [rvAttrWrite, if_neg hattr]
  simp only [if_neg hintent, hurl, hlen, Nat.lt_irrefl, if_false]
  rw [← hlen, List.take_length]

/-- Only types without a fixed length are announced as JSON, and their memory is none. -/
theorem sendsJson_iff : SendsJson baseURL e a m₁ ↔
    WriteRefused baseURL e a ∨ a.npoints = 0 ∨ m₁.isVariable = false := by
  constructor
  · intro h
    by_contra hnone
    obtain ⟨hwrite, hnone⟩ := not_or.mp hnone
    obtain ⟨hpos, hvariable⟩ := not_or.mp hnone
    have hmany : a.npoints * m₁.size ≠ 0 := Nat.mul_ne_zero hpos m₁.size_pos.ne'
    obtain ⟨more, hmore⟩ := Nat.exists_eq_succ_of_ne_zero hmany
    obtain ⟨url, hrequest⟩ := @rvAttrWrite_eq baseURL e a m₁ hwrite _
      (List.length_replicate : (List.replicate (a.npoints * m₁.size) (0 : UInt8)).length = _)
    have hjson := h _ _ List.length_replicate hrequest (by
      rw [MemoryType.isTransferBinary, Bool.eq_true_of_not_eq_false hvariable]
      rfl) (by simpa using hmany)
    rw [hmore, List.replicate_succ, List.map_cons] at hjson
    exact not_jsonText_of_nul hjson
  · rintro (hwrite | hzero | hfixed) values request hlen hrequest hbinary hne
    · rw [rvAttrWrite_of_refused hwrite] at hrequest
      cases hrequest
    · by_cases hwrite : WriteRefused baseURL e a
      · rw [rvAttrWrite_of_refused hwrite] at hrequest
        cases hrequest
      · obtain ⟨url, hsent⟩ := rvAttrWrite_eq hwrite hlen
        obtain rfl := Outcome.ok.inj (hsent.symm.trans hrequest)
        rw [hzero, Nat.zero_mul] at hlen
        exact absurd (List.length_eq_zero_iff.mp hlen) hne
    · by_cases hwrite : WriteRefused baseURL e a
      · rw [rvAttrWrite_of_refused hwrite] at hrequest
        cases hrequest
      · obtain ⟨url, hsent⟩ := rvAttrWrite_eq hwrite hlen
        obtain rfl := Outcome.ok.inj (hsent.symm.trans hrequest)
        simp [MemoryType.isTransferBinary, hfixed] at hbinary

/-- What a read gives back. -/
theorem readsBack_iff {len : Nat} : ReadsBack baseURL e a c len ↔
    ReadRefused baseURL e a ∨ a.npoints * m₂.size ≤ len ∧
      (len = a.npoints * m₁.size →
        WriteRefused baseURL e a ∨ a.npoints = 0 ∨ KeepsBytes c a.npoints) := by
  by_cases hread : ReadRefused baseURL e a
  · refine iff_of_true (fun b _ response _ => ?_) (Or.inl hread)
    rw [rvAttrRead_of_refused hread]
    exact ⟨nofun, nofun⟩
  rw [or_iff_right hread]
  constructor
  · intro h
    have hcopied {body : List UInt8} (hbody : body.length = len) : ∃ bytes : List UInt8,
        bytes.length = a.npoints * m₂.size ∧ bytes <+: body ∧
          ∀ values request, values.length = a.npoints * m₁.size →
            rvAttrWrite baseURL e a m₁ (some values) = .ok request → body = request.body →
              bytes = c.converted a.npoints values := by
      obtain ⟨b, response, hb, rfl, hok⟩ := exists_response (m := m₂) hread body
      obtain ⟨hdefined, hbytes⟩ := h b hb response hbody
      cases hresult : (rvAttrRead baseURL e a m₂ response b).2 with
      | undefined => exact absurd hresult hdefined
      | fail => exact absurd hresult hok
      | ok bytes => exact ⟨bytes, hbytes bytes hresult⟩
    have hle : a.npoints * m₂.size ≤ len := by
      obtain ⟨bytes, hlength, hprefixed, -⟩ :=
        hcopied (List.length_replicate : (List.replicate len (0 : UInt8)).length = len)
      have hlengths := hprefixed.length_le
      rwa [hlength, List.length_replicate] at hlengths
    refine ⟨hle, fun hlen => ?_⟩
    rw [or_iff_not_imp_left]
    intro hwrite
    rw [or_iff_not_imp_left]
    intro hpos
    refine keepsBytes_of_forall hpos ?_ fun values hvalues => ?_
    · rw [hlen] at hle
      exact Nat.le_of_mul_le_mul_left hle (Nat.pos_of_ne_zero hpos)
    · obtain ⟨bytes, hlength, hprefixed, hconverted⟩ := hcopied (hvalues.trans hlen.symm)
      obtain ⟨url, hrequest⟩ := rvAttrWrite_eq hwrite hvalues
      rw [← hconverted values _ hvalues hrequest rfl, ← hlength]
      exact (List.prefix_iff_eq_take.mp hprefixed).symm
  · rintro ⟨hle, hkeeps⟩ b hb response hbody
    rcases rvAttrRead_eq hread hb (hle.trans_eq hbody.symm) with hfail | hok
    · rw [hfail]
      exact ⟨nofun, nofun⟩
    · rw [hok]
      refine ⟨nofun, fun bytes hbytes => ?_⟩
      obtain rfl := Outcome.ok.inj hbytes
      refine ⟨?_, List.take_prefix _ _, fun values request hvalues hrequest hsame => ?_⟩
      · rw [List.length_take]
        omega
      · by_cases hwrite : WriteRefused baseURL e a
        · rw [rvAttrWrite_of_refused hwrite] at hrequest
          cases hrequest
        obtain ⟨url, hsent⟩ := rvAttrWrite_eq hwrite hvalues
        obtain rfl := Outcome.ok.inj (hsent.symm.trans hrequest)
        have hsame : response.body = values := hsame
        rw [hsame]
        rcases hkeeps (by rw [← hbody, hsame, hvalues]) with hrefused | hzero | hkeeps
        · exact absurd hrefused hwrite
        · simp [hzero, AttrConversion.converted, elements]
        · exact (converted_of_keepsBytes hkeeps hvalues).symm

end Exact

/-- Attribute values go through the server exactly when the conversions keep their bytes and as much is
received as is copied. -/
theorem attributeValues_roundTrip_iff (baseURL : Text) (e : EasyEscape) (a : Attribute) {m₁ m₂ : MemoryType}
    (c : AttrConversion m₁ m₂) (len : Nat) :
    RoundTrips baseURL e a c len ↔ CopiesValues baseURL e a c len :=
  and_congr sendsJson_iff readsBack_iff

/-! ## A wider read -/

/-- An attribute of one element of a group. -/
def scalarAttribute : Attribute := ⟨true, true, 1, .group, ['g'], ['a']⟩

theorem four_bytes : 0 < 4 := by decide

/-- Integers of two bytes that are read as integers of four, all in the order of the low byte first. -/
def widened : AttrConversion ⟨2, false, Nat.two_pos⟩ ⟨4, false, four_bytes⟩ where
  toAttr element := element
  fromAttr element := (element ++ [0, 0, 0, 0]).take 4
  length_fromAttr _ := by simp

/-- An encoder for a name of letters. -/
def plainEscape : EasyEscape where
  percent _ := ['%', '2', '0']
  percent_eq _ := ⟨'2', '0', rfl, by decide, by decide⟩

theorem not_roundTrips_widened : ¬ RoundTrips ['h'] plainEscape scalarAttribute widened 2 := by
  intro h
  rcases readsBack_iff.mp h.2 with hrefused | ⟨hle, -⟩
  · rcases hrefused with hattr | hurl
    · cases hattr
    · revert hurl
      decide +kernel
  · revert hle
    decide

end XHDF5.Client.AttributeValues
