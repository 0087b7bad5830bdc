/-
# The value of a link

`RV_get_link_val_callback` reads the class, the path and the domain of a link from the server's
response. For a soft link it copies the path into the caller's buffer; for any other link that is
not hard it packs a header byte, the domain and the path, the two strings with a NUL behind each.
With a size of zero it only reports the size that is needed.

The JSON parser is a parameter, and texts are the characters of C strings.
-/

import XHDF5.Math.CString
import XHDF5.Math.Json

namespace XHDF5.Client.LinkValue

open XHDF5.Math

/-! ## The response -/

/-- `yajl_tree_get` for a string. -/
def textAt (keys : List Text) (tree : Json) : Option Text :=
  match tree.at? keys with
  | some (.string text) => some text
  | _ => none

/-- `link_class_keys` and `link_class_keys2`. -/
def linkClass (tree : Json) : Option Text :=
  (textAt [lit "link", lit "class"] tree).or (textAt [lit "class"] tree)

/-- `link_path_keys` and `link_path_keys2`. -/
def linkPath (tree : Json) : Option Text :=
  (textAt [lit "link", lit "h5path"] tree).or (textAt [lit "h5path"] tree)

/-- `link_domain_keys` and `link_domain_keys2`. -/
def linkDomain (tree : Json) : Option Text :=
  (textAt [lit "link", lit "h5domain"] tree).or (textAt [lit "h5domain"] tree)

/-- What a response says about a link that is not hard. -/
inductive Value
  | soft (path : Text)
  | external (domain path : Text)
deriving DecidableEq

/-- Reading the response. -/
def readLinkValue (tree : Json) : Option Value :=
  (linkClass tree).bind fun class' =>
    if cString class' = lit "H5L_TYPE_HARD" then none
    else
      (linkPath tree).bind fun path =>
        if cString class' = lit "H5L_TYPE_SOFT" then some (.soft path)
        else (linkDomain tree).map fun domain => .external domain path

/-! ## Packing -/

/-- `H5L_EXT_VERSION` and `H5L_EXT_FLAGS_ALL` in one byte. -/
def extHeader : Char := Char.ofNat (0 * 16 + 0)

/-- Packing a value into a buffer of `inBufSize` characters, if there is one: the size that is
left to the caller, and the buffer. A store outside of the buffer, and one through NULL, is
undefined. -/
def packLinkValue (inBufSize : UInt64) (outBuf : Option (Memory Char)) :
    Value → Outcome (UInt64 × Option (Memory Char))
  | .soft path =>
      if inBufSize = 0 then .ok (UInt64.ofNat (strlen path + 1), outBuf)
      else
        match outBuf with
        | none => .undefined
        | some memory =>
            (Buffer.strncpy ⟨memory, inBufSize.toNat⟩ 0 path inBufSize.toNat).bind fun b =>
              (b.store (inBufSize - 1).toNat [nul]).bind fun b => .ok (inBufSize, some b.bytes)
  | .external domain path =>
      if inBufSize = 0 then
        .ok (UInt64.ofNat (1 + (strlen domain + 1) + (strlen path + 1)), outBuf)
      else
        match outBuf with
        | none => .ok (inBufSize, none)
        | some memory =>
            (Buffer.store ⟨memory, inBufSize.toNat⟩ 0 [extHeader]).bind fun b =>
              (b.strncpy 1 domain (inBufSize - 1).toNat).bind fun b =>
                (b.strncpy (1 + (strlen domain + 1)) path
                    (inBufSize - 1 - UInt64.ofNat (strlen domain + 1)).toNat).bind fun b =>
                  .ok (inBufSize, some b.bytes)

/-- `RV_get_link_val_callback`. -/
def rvGetLinkValCallback (parse : Text → Option Json) (httpResponse : Option Text)
    (inBufSize : Option UInt64) (outBuf : Option (Memory Char)) :
    Outcome (UInt64 × Option (Memory Char)) :=
  match httpResponse, inBufSize with
  | some response, some inBufSize =>
      match (parse response).bind readLinkValue with
      | some value => packLinkValue inBufSize outBuf value
      | none => .fail
  | _, _ => .fail

/-! ## What a caller may expect -/

/-- `H5Lunpack_elink_val`: the header byte has no other version or flags, the value ends with a
NUL, and the first string ends before the last character. -/
def h5LunpackElinkVal : Text → Option (Text × Text)
  | [] => none
  | header :: strings =>
      if header.toNat ≠ 0 ∨ (header :: strings).getLast? ≠ some nul ∨
          strings.length ≤ strlen strings + 1 then none
      else some (cString strings, cString (strings.drop (strlen strings + 1)))

/-- The size of a value with all its characters. -/
def Value.needed : Value → Nat
  | .soft path => path.length + 1
  | .external domain path => 1 + (domain.length + 1) + (path.length + 1)

/-- The value can be read from the caller's memory. -/
def Value.UnpacksFrom (size : Nat) (memory : Memory Char) : Value → Prop
  | .soft path => cString (memory.read 0 size) = path
  | .external domain path => h5LunpackElinkVal (memory.read 0 size) = some (domain, path)

/-- The size that is left for the path does not wrap where it is computed. -/
def Value.Remaining (size : Nat) (outBuf : Option (Memory Char)) : Value → Prop
  | .soft _ => True
  | .external domain _ => size ≠ 0 → outBuf ≠ none → strlen domain + 1 ≤ size - 1

/-- The call stays inside the caller's buffer, its size arithmetic does not wrap, and what it
stores in a buffer that is large enough is the value of the response. -/
def Packs (parse : Text → Option Json) (httpResponse : Option Text) (inBufSize : Option UInt64)
    (outBuf : Option (Memory Char)) : Prop :=
  rvGetLinkValCallback parse httpResponse inBufSize outBuf ≠ .undefined ∧
    ∀ response size value, httpResponse = some response → inBufSize = some size →
      (parse response).bind readLinkValue = some value →
        value.Remaining size.toNat outBuf ∧
          (value.needed ≤ size.toNat → ∀ memory,
            rvGetLinkValCallback parse httpResponse inBufSize outBuf = .ok (size, some memory) →
              value.UnpacksFrom size.toNat memory)

/-- No string has a NUL inside. -/
def Value.Clean : Value → Prop
  | .soft path => nul ∉ path
  | .external domain path => nul ∉ domain ∧ nul ∉ path

/-- The caller's buffer suits the value: it is there for a soft link, the domain and its NUL fit
behind the header; and a value that fits has no NUL inside. -/
def Value.Suits (size : Nat) (outBuf : Option (Memory Char)) (value : Value) : Prop :=
  size = 0 ∨
    (match value with
      | .soft _ => outBuf ≠ none
      | .external domain _ => outBuf ≠ none → strlen domain + 1 ≤ size - 1) ∧
    (outBuf ≠ none → value.needed ≤ size → value.Clean)

/-! ## Packing, case by case -/

section Packing

variable {size : UInt64} {memory : Memory Char} {domain path : Text}

theorem toNat_pos (h : size ≠ 0) : 0 < size.toNat :=
  Nat.pos_of_ne_zero fun hzero => h (UInt64.toNat_inj.mp hzero)

theorem toNat_sub_one (h : size ≠ 0) : (size - 1).toNat = size.toNat - 1 := by
  have hpos := toNat_pos h
  rw [UInt64.toNat_sub_of_le]
  · rfl
  · exact UInt64.le_iff_toNat_le.mpr hpos

/-- What is left behind the domain. -/
theorem toNat_remaining (h : size ≠ 0) (hle : strlen domain + 1 ≤ size.toNat - 1) :
    (size - 1 - UInt64.ofNat (strlen domain + 1)).toNat = size.toNat - 1 - (strlen domain + 1) := by
  have hlt := size.toNat_lt
  have hlen : (UInt64.ofNat (strlen domain + 1)).toNat = strlen domain + 1 := by
    rw [UInt64.toNat_ofNat', Nat.mod_eq_of_lt (by omega)]
  have hone := toNat_sub_one h
  rw [UInt64.toNat_sub_of_le _ _ (UInt64.le_iff_toNat_le.mpr (by omega)), hlen, hone]

/-- A soft link in a buffer. -/
theorem packLinkValue_soft (h : size ≠ 0) :
    packLinkValue size (some memory) (.soft path) = .ok (size,
      some ((memory.write 0 (padded path size.toNat)).write (size.toNat - 1) [nul])) := by
  have hpos := toNat_pos h
  rw [packLinkValue, if_neg h, strncpy_of_within (.inr (Nat.zero_add _).le), Outcome.ok_bind,
    toNat_sub_one h,
    Buffer.store_of_within (.inr (show size.toNat - 1 + 1 ≤ size.toNat by omega)), Outcome.ok_bind]

/-- What is stored for an external link. -/
def packedMemory (size : Nat) (domain path : Text) (memory : Memory Char) : Memory Char :=
  ((memory.write 0 [extHeader]).write 1 (padded domain (size - 1))).write (1 + (strlen domain + 1))
    (padded path (size - 1 - (strlen domain + 1)))

/-- An external link in a buffer with room for the domain. -/
theorem packLinkValue_external (h : size ≠ 0) (hle : strlen domain + 1 ≤ size.toNat - 1) :
    packLinkValue size (some memory) (.external domain path) =
      .ok (size, some (packedMemory size.toNat domain path memory)) := by
  have hpos := toNat_pos h
  rw [packLinkValue, if_neg h, Buffer.store_of_within (.inr (show 0 + 1 ≤ size.toNat by omega)),
    Outcome.ok_bind, toNat_sub_one h,
    strncpy_of_within (.inr (show 1 + (size.toNat - 1) ≤ size.toNat by omega)), Outcome.ok_bind,
    toNat_remaining h hle, strncpy_of_within (.inr (show 1 + (strlen domain + 1) +
      (size.toNat - 1 - (strlen domain + 1)) ≤ size.toNat by omega)), Outcome.ok_bind]
  rfl

/-- The characters of a packed value. -/
theorem read_packedMemory {n : Nat} (hle : strlen domain + strlen path + 3 ≤ n) :
    (packedMemory n domain path memory).read 0 n =
      extHeader :: (cString domain ++ nul :: (cString path ++ nul ::
        List.replicate (n - 1 - (strlen domain + 1) - strlen path - 1) nul)) := by
  have hdomain : padded domain (n - 1) = (cString domain ++ [nul]) ++
      List.replicate (n - 1 - strlen domain - 1) nul := by
    rw [padded_of_lt (by omega), List.append_assoc]
    rfl
  have hlength : (cString domain ++ [nul]).length = strlen domain + 1 := by
    rw [List.length_append]
    rfl
  have htail := length_padded path (n - 1 - (strlen domain + 1))
  have hsplit : n = 1 + (strlen domain + 1 + (n - 1 - (strlen domain + 1))) := by omega
  have hheader : (packedMemory n domain path memory).read 0 1 = [extHeader] := by
    rw [packedMemory, Memory.read_write_of_le (by omega), Memory.read_write_of_le (by omega)]
    exact Memory.read_write_self [extHeader]
  have hfirst : (packedMemory n domain path memory).read 1 (strlen domain + 1) =
      cString domain ++ [nul] := by
    rw [packedMemory, hdomain, Memory.read_write_of_le (by omega), Memory.write_append,
      Memory.read_write_of_le (by rw [hlength]), ← hlength, Memory.read_write_self]
  have hsecond : (packedMemory n domain path memory).read (1 + (strlen domain + 1))
      (n - 1 - (strlen domain + 1)) = padded path (n - 1 - (strlen domain + 1)) := by
    have hself := @Memory.read_write_self _ ((memory.write 0 [extHeader]).write 1
      (padded domain (n - 1))) (1 + (strlen domain + 1)) (padded path (n - 1 - (strlen domain + 1)))
    rwa [htail] at hself
  calc (packedMemory n domain path memory).read 0 n
      = (packedMemory n domain path memory).read 0
          (1 + (strlen domain + 1 + (n - 1 - (strlen domain + 1)))) := by rw [← hsplit]
    _ = [extHeader] ++
      ((cString domain ++ [nul]) ++ padded path (n - 1 - (strlen domain + 1))) := by
        rw [Memory.read_append, Nat.zero_add, Memory.read_append, hheader, hfirst, hsecond]
    _ = _ := by
        rw [padded_of_lt (by omega), List.append_assoc]
        rfl

/-- Unpacking gives back what the string functions see of the two strings. -/
theorem unpack_packed {domain path : Text} (zeros : Nat) :
    h5LunpackElinkVal (extHeader :: (cString domain ++ nul :: (cString path ++ nul ::
      List.replicate zeros nul))) = some (cString domain, cString path) := by
  have hfirst :
      cString (cString domain ++ nul :: (cString path ++ nul :: List.replicate zeros nul)) =
      cString domain := cString_append_nul (nul_not_mem_cString domain)
  have hlast : (extHeader :: (cString domain ++ nul :: (cString path ++ nul ::
      List.replicate zeros nul))).getLast? = some nul := by
    have hzeros : nul :: List.replicate zeros nul = List.replicate zeros nul ++ [nul] :=
      (List.replicate_succ).symm.trans List.replicate_succ'
    have hsplit : extHeader :: (cString domain ++ nul :: (cString path ++ nul ::
        List.replicate zeros nul)) = (extHeader :: (cString domain ++ nul :: (cString path ++
          List.replicate zeros nul))) ++ [nul] := by
      rw [hzeros]
      simp
    rw [hsplit, List.getLast?_concat]
  have hlen : strlen (cString domain ++ nul :: (cString path ++ nul :: List.replicate zeros nul)) =
      (cString domain).length := congrArg List.length hfirst
  rw [h5LunpackElinkVal, if_neg, hfirst, hlen, List.drop_append, List.drop_eq_nil_of_le
    (Nat.le_succ _), List.nil_append, Nat.add_sub_cancel_left, List.drop_succ_cons, List.drop_zero,
    cString_append_nul (nul_not_mem_cString path)]
  rw [hlast, hlen]
  rw [not_or, not_or]
  refine ⟨by decide, fun h => h rfl, ?_⟩
  rw [List.length_append, List.length_cons, List.length_append, List.length_cons]
  omega

/-- The characters of a soft link's value. -/
theorem cString_read_soft {n : Nat} (hle : strlen path + 1 ≤ n) :
    cString (((memory.write 0 (padded path n)).write (n - 1) [nul]).read 0 n) = cString path := by
  have hread : ((memory.write 0 (padded path n)).write (n - 1) [nul]).read 0 n = padded path n := by
    obtain ⟨m, rfl⟩ := Nat.exists_eq_add_of_le' (Nat.le_trans (Nat.le_add_left 1 _) hle)
    have hlast : padded path (m + 1) = padded path m ++ [nul] := by
      rw [padded, padded, List.take_of_length_le (by change strlen path ≤ _; omega),
        List.take_of_length_le (by change strlen path ≤ _; omega), List.append_assoc,
        ← List.replicate_succ', ← Nat.sub_add_comm (by omega)]
    rw [Nat.add_sub_cancel, Memory.read_append, Nat.zero_add,
      Memory.read_write_of_le (Nat.zero_add _).le,
      hlast, Memory.write_append, Nat.zero_add, length_padded,
      Memory.read_write_of_le (Nat.zero_add _).le]
    have hfront := @Memory.read_write_self _ memory 0 (padded path m)
    rw [length_padded] at hfront
    rw [hfront]
    exact congrArg _ (Memory.read_write_self [nul])
  rw [hread, padded_of_lt hle, cString_append_nul (nul_not_mem_cString path)]

end Packing

/-! ## Every response and every buffer -/

/-- What the strings of a value need in full is at least what the string functions see. -/
theorem strlen_external_le {domain path : Text}
    {n : Nat} (h : (Value.external domain path).needed ≤ n) :
    strlen domain + strlen path + 3 ≤ n := by
  have hdomain := strlen_le domain
  have hpath := strlen_le path
  change 1 + (domain.length + 1) + (path.length + 1) ≤ n at h
  omega

theorem strlen_soft_le {path : Text} {n : Nat} (h : (Value.soft path).needed ≤ n) :
    strlen path + 1 ≤ n := by
  have hpath := strlen_le path
  change path.length + 1 ≤ n at h
  omega

/-- A call that only reports a size. -/
theorem packLinkValue_zero (outBuf : Option (Memory Char)) (value : Value) :
    packLinkValue 0 outBuf value ≠ .undefined := by
  cases value with
  | soft path =>
      simp [packLinkValue]
  | external domain path =>
      simp [packLinkValue]

/-- A value that was packed can be read if and only if it has no NUL inside. -/
theorem unpacksFrom_iff {size : UInt64} {memory memory' : Memory Char} {value : Value}
    (hsize : size ≠ 0) (hneeded : value.needed ≤ size.toNat)
    (hpack : packLinkValue size (some memory) value = .ok (size, some memory')) :
    value.UnpacksFrom size.toNat memory' ↔ value.Clean := by
  cases value with
  | soft path =>
      rw [packLinkValue_soft hsize] at hpack
      cases hpack
      rw [Value.UnpacksFrom, cString_read_soft (strlen_soft_le hneeded)]
      exact cString_eq_iff
  | external domain path =>
      have hle := strlen_external_le hneeded
      rw [packLinkValue_external hsize (by omega)] at hpack
      cases hpack
      rw [Value.UnpacksFrom, read_packedMemory hle, unpack_packed, Option.some_inj, Prod.mk.injEq,
        cString_eq_iff, cString_eq_iff]
      rfl

/-- Link values are packed safely and faithfully if and only if the caller's buffer suits the
value that the response holds. -/
theorem packs_iff (parse : Text → Option Json) (httpResponse : Option Text)
    (inBufSize : Option UInt64)
    (outBuf : Option (Memory Char)) :
    Packs parse httpResponse inBufSize outBuf ↔
      ∀ response size value, httpResponse = some response → inBufSize = some size →
        (parse response).bind readLinkValue = some value → value.Suits size.toNat outBuf := by
  have hcall {response : Text} {size : UInt64}
      {value : Value} (hresponse : httpResponse = some response)
      (hin : inBufSize = some size) (hvalue : (parse response).bind readLinkValue = some value) :
      rvGetLinkValCallback parse httpResponse inBufSize outBuf =
        packLinkValue size outBuf value := by
    subst hresponse hin
    simp only [rvGetLinkValCallback, hvalue]
  constructor
  · rintro ⟨hdefined, hpacked⟩ response size value hresponse hin hvalue
    obtain ⟨hremaining, hunpacks⟩ := hpacked response size value hresponse hin hvalue
    rw [hcall hresponse hin hvalue] at hdefined hunpacks
    by_cases hzero : size = 0
    · exact .inl (by rw [hzero]; rfl)
    have hpos : size.toNat ≠ 0 := (toNat_pos hzero).ne'
    refine .inr ⟨?_, fun hbuf hneeded => ?_⟩
    · cases value with
      | soft path =>
          rintro rfl
          rw [packLinkValue, if_neg hzero] at hdefined
          exact hdefined rfl
      | external domain path => exact hremaining hpos
    · obtain ⟨memory, rfl⟩ := Option.ne_none_iff_exists'.mp hbuf
      obtain ⟨memory', hpack⟩ : ∃ memory', packLinkValue size (some memory) value =
          .ok (size, some memory') := by
        cases value with
        | soft path => exact ⟨_, packLinkValue_soft hzero⟩
        | external domain path => exact ⟨_, packLinkValue_external hzero (hremaining hpos hbuf)⟩
      exact (unpacksFrom_iff hzero hneeded hpack).mp (hunpacks hneeded memory' hpack)
  · intro h
    have hpack {response : Text} {size : UInt64} {value : Value}
        (hresponse : httpResponse = some response) (hin : inBufSize = some size)
        (hvalue : (parse response).bind readLinkValue = some value) :
        packLinkValue size outBuf value ≠ .undefined := by
      rcases h response size value hresponse hin hvalue with hzero | ⟨hroom, -⟩
      · obtain rfl : size = 0 := UInt64.toNat_inj.mp hzero
        exact packLinkValue_zero outBuf value
      · by_cases hzero : size = 0
        · exact hzero ▸ packLinkValue_zero outBuf value
        cases houtBuf : outBuf with
        | none =>
            cases value with
            | soft path => exact absurd houtBuf hroom
            | external domain path =>
                rw [packLinkValue, if_neg hzero]
                exact nofun
        | some memory =>
            have hbuf : outBuf ≠ none := by simp [houtBuf]
            cases value with
            | soft path =>
                rw [packLinkValue_soft hzero]
                exact nofun
            | external domain path =>
                rw [packLinkValue_external hzero (hroom hbuf)]
                exact nofun
    refine ⟨?_, fun response size value hresponse hin hvalue => ⟨?_, fun hneeded memory' hok => ?_⟩⟩
    · cases hresponse : httpResponse with
      | none =>
          rw [rvGetLinkValCallback]
          · exact nofun
          · exact nofun
      | some response =>
          cases hin : inBufSize with
          | none =>
              rw [rvGetLinkValCallback]
              · exact nofun
              · exact nofun
          | some size =>
              cases hvalue : (parse response).bind readLinkValue with
              | none =>
                  simp only [rvGetLinkValCallback, hvalue]
                  exact nofun
              | some value =>
                  rw [← hresponse, ← hin, hcall hresponse hin hvalue]
                  exact hpack hresponse hin hvalue
    · cases value with
      | soft path => trivial
      | external domain path =>
          intro hpos hbuf
          rcases h response size _ hresponse hin hvalue with hzero | ⟨hroom, -⟩
          · exact absurd hzero hpos
          · exact hroom hbuf
    · rw [hcall hresponse hin hvalue] at hok
      have hpos : size ≠ 0 := by
        rintro rfl
        cases value <;> unfold Value.needed at hneeded <;> exact absurd hneeded (by simp)
      rcases h response size value hresponse hin hvalue with hzero | ⟨-, hclean⟩
      · exact absurd (UInt64.toNat_inj.mp hzero) hpos
      · cases houtBuf : outBuf with
        | none =>
            rw [houtBuf] at hok
            cases value <;> rw [packLinkValue, if_neg hpos] at hok <;> cases hok
        | some memory =>
            have hbuf : outBuf ≠ none := by simp [houtBuf]
            rw [houtBuf] at hok
            exact (unpacksFrom_iff hpos hneeded hok).mpr (hclean hbuf hneeded)

/-- The answer to a request for an external link. -/
def externalAnswer : Text :=
  (Json.object [] [] [(lit "link", .object [] [] [(lit "class", .string (lit "H5L_TYPE_EXTERNAL")),
    (lit "h5domain", .string (lit "/home/a.h5")), (lit "h5path", .string (lit "x"))])]).render

/-- A buffer of three characters does not hold the domain: the size that is left for the path
wraps, and the stores go on behind the buffer. -/
theorem not_packs_threeChars : ¬ ∀ (parse : Text → Option Json) (httpResponse : Option Text)
    (inBufSize : Option UInt64) (outBuf : Option (Memory Char)),
    Packs parse httpResponse inBufSize outBuf := fun h => by
  have hvalue : (Json.readJson externalAnswer).bind readLinkValue =
      some (.external (lit "/home/a.h5") (lit "x")) := by decide +kernel
  refine (h Json.readJson (some externalAnswer) (some 3) (some fun _ => nul)).1 ?_
  simp only [rvGetLinkValCallback, hvalue]
  rw [packLinkValue, if_neg (by decide), Buffer.store_of_within (.inr (by decide)), Outcome.ok_bind,
    strncpy_of_within (.inr (by decide)), Outcome.ok_bind,
      strncpy_of_not_within (by decide +kernel)]
  rfl

end XHDF5.Client.LinkValue
