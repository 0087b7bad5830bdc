/-
# Base64 in the client

`RV_base64_encode` writes the standard alphabet; `RV_base64_decode` reads the one for URLs, where
the last two symbols are others. The decoder also takes a single character of padding for two, and
it counts the terminator that it stores without making room for it.
-/

import XHDF5.Math.Growing
import XHDF5.Math.Token

namespace XHDF5.Client

open XHDF5.Math

/-! ## The code -/

/-- `BASE64_ENCODE_DEFAULT_BUFFER_SIZE`. -/
def base64EncodeDefaultBufferSize : Nat := 33554432

/-- `charset` of the encoder. -/
def encodeCharset : Text :=
  lit "ABCDEFGHIJKLMNOPQRSTUVWXYZabcdefghijklmnopqrstuvwxyz0123456789+/"

/-- `charset` of the decoder. -/
def decodeCharset : Text :=
  lit "ABCDEFGHIJKLMNOPQRSTUVWXYZabcdefghijklmnopqrstuvwxyz0123456789-_"

/-- The buffer at the start. The caller hands over one with its size, or asks for one with zero. -/
def base64Buffer (β : Type) (outSize : Nat) : Growing β where
  written := []
  nalloc := if outSize = 0 then base64EncodeDefaultBufferSize else outSize
  inside := true

/-- `charset[value & 0x3f]`. -/
def encodeSymbol (value : Nat) : Char := encodeCharset.getD (value % 64) 'A'

/-- The loop over sets of three bytes. -/
def encodeLoop : List UInt8 → Growing Char → Growing Char
  | [], out => out
  | [a], out =>
      let threeByteSet := a.toNat <<< 16
      let out := out.reserve 2
      (out.store (encodeSymbol (threeByteSet >>> 18))).store (encodeSymbol (threeByteSet >>> 12))
  | [a, b], out =>
      let threeByteSet := a.toNat <<< 16 + b.toNat <<< 8
      let out := out.reserve 2
      let out :=
        (out.store (encodeSymbol (threeByteSet >>> 18))).store (encodeSymbol (threeByteSet >>> 12))
      (out.reserve 1).store (encodeSymbol (threeByteSet >>> 6))
  | a :: b :: c :: bytes, out =>
      let threeByteSet := a.toNat <<< 16 + b.toNat <<< 8 + c.toNat
      let out := out.reserve 2
      let out :=
        (out.store (encodeSymbol (threeByteSet >>> 18))).store (encodeSymbol (threeByteSet >>> 12))
      let out := (out.reserve 1).store (encodeSymbol (threeByteSet >>> 6))
      encodeLoop bytes ((out.reserve 1).store (encodeSymbol threeByteSet))

/-- The loop over the padding. -/
def padLoop : Nat → Growing Char → Growing Char
  | 0, out => out
  | npad + 1, out => padLoop npad ((out.reserve 1).store '=')

/-- `RV_base64_encode`: the buffer with the terminator, whose index becomes the size. -/
def rvBase64Encode (bytes : List UInt8) (outSize : Nat) : Growing Char :=
  let out := encodeLoop bytes (base64Buffer Char outSize)
  let out := padLoop ((4 - out.written.length % 4) % 4) out
  (out.reserve 1).store '\x00'

/-- `strchr(charset, c) - charset`; `none` when `strchr` finds nothing. The terminator is found. -/
def decodeSymbol (c : Char) : Option Nat := (decodeCharset ++ ['\x00']).findIdx? (· == c)

/-- `(uint8_t)` of a shifted set. -/
def byteOf (set : Nat) : UInt8 := UInt8.ofNat set

/-- The stores for a set of four characters. -/
def decodeGroup (a b c d : Char) (out : Growing UInt8) : Option (Growing UInt8) :=
  if d = '=' then do
    -- Taken for two characters of padding, also when there is one.
    let c0 ← decodeSymbol a
    let c1 ← decodeSymbol b
    pure ((out.reserve 1).store (byteOf ((c0 <<< 6 ||| c1) >>> 4)))
  else if c = '=' then do
    let c0 ← decodeSymbol a
    let c1 ← decodeSymbol b
    let c2 ← decodeSymbol c
    let set := (c0 <<< 12 ||| c1 <<< 6 ||| c2) >>> 2
    pure (((out.reserve 2).store (byteOf (set >>> 8))).store (byteOf set))
  else do
    let c0 ← decodeSymbol a
    let c1 ← decodeSymbol b
    let c2 ← decodeSymbol c
    let c3 ← decodeSymbol d
    let set := c0 <<< 18 ||| c1 <<< 12 ||| c2 <<< 6 ||| c3
    pure ((((out.reserve 3).store (byteOf (set >>> 16))).store (byteOf (set >>> 8))).store
      (byteOf set))

/-- The loop over sets of four characters; `none` is undefined. Behind three characters it reads the
terminator, behind fewer it leaves the text. -/
def decodeLoop : Text → Growing UInt8 → Option (Growing UInt8)
  | [], out => some out
  | a :: b :: c :: d :: text, out => do decodeLoop text (← decodeGroup a b c d out)
  | [a, b, c], out => decodeGroup a b c '\x00' out
  | _, _ => none

/-- `RV_base64_decode`: the buffer with the terminator, whose end becomes the size. -/
def rvBase64Decode (text : Text) (outSize : Nat) : Option (Growing UInt8) :=
  (decodeLoop text (base64Buffer UInt8 outSize)).map fun out => out.store 0

/-! ## The standard -/

/-- The symbol of a group of six bits. -/
def base64Symbol (d : Fin 64) : Char := encodeCharset.getD d.val 'A'

/-- The text is Base64 of the bytes: four symbols for three bytes, and padding at the end. -/
inductive IsBase64 : List UInt8 → Text → Prop
  | nil : IsBase64 [] []
  | one (a : UInt8) (d e : Fin 64) (h : d.val * 64 + e.val = a.toNat * 16) :
      IsBase64 [a] [base64Symbol d, base64Symbol e, '=', '=']
  | two (a b : UInt8) (d e f : Fin 64)
      (h : (d.val * 64 + e.val) * 64 + f.val = (a.toNat * 256 + b.toNat) * 4) :
      IsBase64 [a, b] [base64Symbol d, base64Symbol e, base64Symbol f, '=']
  | three (a b c : UInt8) (d e f g : Fin 64) {bytes : List UInt8} {text : Text}
      (h : ((d.val * 64 + e.val) * 64 + f.val) * 64 + g.val =
        (a.toNat * 256 + b.toNat) * 256 + c.toNat) (hrest : IsBase64 bytes text) :
      IsBase64 (a :: b :: c :: bytes)
        (base64Symbol d :: base64Symbol e :: base64Symbol f :: base64Symbol g :: text)

/-- The groups of six bits. -/
def sextets : List UInt8 → List Nat
  | [] => []
  | [a] => [a.toNat / 4, a.toNat % 4 * 16]
  | [a, b] => [a.toNat / 4, a.toNat % 4 * 16 + b.toNat / 16, b.toNat % 16 * 4]
  | a :: b :: c :: bytes =>
      a.toNat / 4 :: (a.toNat % 4 * 16 + b.toNat / 16) :: (b.toNat % 16 * 4 + c.toNat / 64) ::
        c.toNat % 64 :: sextets bytes

/-- The encoder writes the standard text, the decoder gives the bytes back with their number, and
no store of either leaves its buffer. -/
def RoundTrips (bytes : List UInt8) (encodeSize decodeSize : Nat) : Prop :=
  ∃ text, (rvBase64Encode bytes encodeSize).written = text ++ ['\x00'] ∧ IsBase64 bytes text ∧
    (rvBase64Encode bytes encodeSize).inside ∧
      ∃ out, rvBase64Decode text decodeSize = some out ∧ out.written = bytes ∧ out.inside

/-! ## The encoder -/

/-- The text of the encoder. -/
def base64Text (bytes : List UInt8) : Text :=
  (sextets bytes).map encodeSymbol ++
    List.replicate ((4 - (sextets bytes).length % 4) % 4) '='

theorem base64Buffer_pos (outSize : Nat) : 0 < (base64Buffer UInt8 outSize).nalloc := by
  simp only [base64Buffer, base64EncodeDefaultBufferSize]
  split
  · decide
  · next hne => exact Nat.pos_of_ne_zero hne

theorem filled_base64Buffer (β : Type) (outSize : Nat) :
    Filled (base64Buffer UInt8 outSize).nalloc (base64Buffer β outSize) where
  inside := rfl
  length := ⟨Nat.zero_le _, 0, by simp [base64Buffer], Or.inl rfl⟩

/-- The symbols of a set of three bytes. -/
theorem encodeSymbol_set {set a b c : Nat} (hset : set = a * 65536 + b * 256 + c) (hb : b < 256)
    (hc : c < 256) :
    encodeSymbol (set >>> 18) = encodeSymbol (a / 4) ∧
      encodeSymbol (set >>> 12) = encodeSymbol (a % 4 * 16 + b / 16) ∧
        encodeSymbol (set >>> 6) = encodeSymbol (b % 16 * 4 + c / 64) ∧
          encodeSymbol set = encodeSymbol (c % 64) := by
  have hcongr {first second : Nat} (h : first % 64 = second % 64) :
      encodeSymbol first = encodeSymbol second := by
    rw [encodeSymbol, encodeSymbol, h]
  refine ⟨hcongr ?_, hcongr ?_, hcongr ?_, hcongr ?_⟩
  · rw [Nat.shiftRight_eq_div_pow]
    omega
  · rw [Nat.shiftRight_eq_div_pow]
    omega
  · rw [Nat.shiftRight_eq_div_pow]
    omega
  · omega

section Encoder

variable {first : Nat}

theorem encodeLoop_spec (hfirst : 0 < first) (bytes : List UInt8) {out : Growing Char}
    (h : Filled first out) : Filled first (encodeLoop bytes out) ∧
      (encodeLoop bytes out).written = out.written ++ (sextets bytes).map encodeSymbol := by
  induction bytes using sextets.induct generalizing out with
  | case1 => exact ⟨h, by simp [encodeLoop, sextets]⟩
  | case2 a =>
      have hstored := h.reserve_stores hfirst
        [encodeSymbol (a.toNat <<< 16 >>> 18), encodeSymbol (a.toNat <<< 16 >>> 12)]
      have hset : a.toNat <<< 16 = a.toNat * 65536 + 0 * 256 + 0 := by
        rw [Nat.shiftLeft_eq]
        omega
      obtain ⟨h0, h1, -, -⟩ := encodeSymbol_set hset (by decide) (by decide)
      exact ⟨hstored.1, hstored.2.trans (by simp [sextets, h0, h1])⟩
  | case3 a b =>
      have hset : a.toNat <<< 16 + b.toNat <<< 8 = a.toNat * 65536 + b.toNat * 256 + 0 := by
        rw [Nat.shiftLeft_eq, Nat.shiftLeft_eq]
        omega
      obtain ⟨h0, h1, h2, -⟩ := encodeSymbol_set hset b.toNat_lt (by decide)
      have hpair := h.reserve_stores hfirst
        [encodeSymbol ((a.toNat <<< 16 + b.toNat <<< 8) >>> 18),
          encodeSymbol ((a.toNat <<< 16 + b.toNat <<< 8) >>> 12)]
      have hlast := hpair.1.reserve_stores hfirst
        [encodeSymbol ((a.toNat <<< 16 + b.toNat <<< 8) >>> 6)]
      refine ⟨hlast.1, hlast.2.trans ?_⟩
      rw [hpair.2]
      simp [sextets, h0, h1, h2]
  | case4 a b c bytes ih =>
      have hset : a.toNat <<< 16 + b.toNat <<< 8 + c.toNat =
          a.toNat * 65536 + b.toNat * 256 + c.toNat := by
        rw [Nat.shiftLeft_eq, Nat.shiftLeft_eq]
      obtain ⟨h0, h1, h2, h3⟩ := encodeSymbol_set hset b.toNat_lt c.toNat_lt
      have hpair := h.reserve_stores hfirst
        [encodeSymbol ((a.toNat <<< 16 + b.toNat <<< 8 + c.toNat) >>> 18),
          encodeSymbol ((a.toNat <<< 16 + b.toNat <<< 8 + c.toNat) >>> 12)]
      have hthird := hpair.1.reserve_stores hfirst
        [encodeSymbol ((a.toNat <<< 16 + b.toNat <<< 8 + c.toNat) >>> 6)]
      have hfourth := hthird.1.reserve_stores hfirst
        [encodeSymbol (a.toNat <<< 16 + b.toNat <<< 8 + c.toNat)]
      obtain ⟨hfilled, hwritten⟩ := ih hfourth.1
      refine ⟨hfilled, hwritten.trans ?_⟩
      rw [hfourth.2, hthird.2, hpair.2]
      simp [sextets, h0, h1, h2, h3]

theorem padLoop_spec (hfirst : 0 < first) (npad : Nat) {out : Growing Char} (h : Filled first out) :
    Filled first (padLoop npad out) ∧
      (padLoop npad out).written = out.written ++ List.replicate npad '=' := by
  induction npad generalizing out with
  | zero => exact ⟨h, by simp [padLoop]⟩
  | succ npad ih =>
      have hstored := h.reserve_stores hfirst ['=']
      obtain ⟨hfilled, hwritten⟩ := ih hstored.1
      refine ⟨hfilled, hwritten.trans ?_⟩
      rw [hstored.2, List.replicate_succ]
      simp

/-- The encoder stays inside its buffer and writes the symbols of the sextets, padded. -/
theorem rvBase64Encode_spec (bytes : List UInt8) (outSize : Nat) :
    (rvBase64Encode bytes outSize).inside = true ∧
      (rvBase64Encode bytes outSize).written = base64Text bytes ++ ['\x00'] := by
  have hfirst := base64Buffer_pos outSize
  obtain ⟨hloop, htext⟩ := encodeLoop_spec hfirst bytes (filled_base64Buffer Char outSize)
  obtain ⟨hpad, hpadded⟩ := padLoop_spec hfirst
    ((4 - (encodeLoop bytes (base64Buffer Char outSize)).written.length % 4) % 4) hloop
  have hlast := hpad.reserve_stores hfirst ['\x00']
  refine ⟨hlast.1.inside, hlast.2.trans ?_⟩
  rw [hpadded, htext]
  simp [base64Text, base64Buffer]

end Encoder

theorem encodeSymbol_eq {value : Nat} (h : value < 64) : encodeSymbol value = base64Symbol ⟨value, h⟩ := by
  rw [encodeSymbol, base64Symbol, Nat.mod_eq_of_lt h]

theorem base64Text_cons (a b c : UInt8) (bytes : List UInt8) :
    base64Text (a :: b :: c :: bytes) =
      encodeSymbol (a.toNat / 4) :: encodeSymbol (a.toNat % 4 * 16 + b.toNat / 16) ::
        encodeSymbol (b.toNat % 16 * 4 + c.toNat / 64) :: encodeSymbol (c.toNat % 64) ::
          base64Text bytes := by
  have hpadding : (4 - ((sextets bytes).length + 4) % 4) % 4 = (4 - (sextets bytes).length % 4) % 4 := by
    rw [Nat.add_mod_right]
  simp [base64Text, sextets, hpadding]

/-- The text of the encoder is Base64 of the bytes. -/
theorem isBase64_base64Text (bytes : List UInt8) : IsBase64 bytes (base64Text bytes) := by
  induction bytes using sextets.induct with
  | case1 => exact IsBase64.nil
  | case2 a =>
      have ha := a.toNat_lt
      simp only [base64Text, sextets, List.map_cons, List.map_nil]
      rw [encodeSymbol_eq (by omega), encodeSymbol_eq (by omega)]
      exact IsBase64.one a _ _ (by simp only; omega)
  | case3 a b =>
      have ha := a.toNat_lt
      have hb := b.toNat_lt
      simp only [base64Text, sextets, List.map_cons, List.map_nil]
      rw [encodeSymbol_eq (by omega), encodeSymbol_eq (by omega), encodeSymbol_eq (by omega)]
      exact IsBase64.two a b _ _ _ (by simp only; omega)
  | case4 a b c bytes ih =>
      have ha := a.toNat_lt
      have hb := b.toNat_lt
      have hc := c.toNat_lt
      rw [base64Text_cons, encodeSymbol_eq (by omega), encodeSymbol_eq (by omega),
        encodeSymbol_eq (by omega), encodeSymbol_eq (by omega)]
      exact IsBase64.three a b c _ _ _ _ (by simp only; omega) ih

/-- The bytes of the symbols differ, also from that of the padding. -/
theorem base64Symbol_byte (d e : Fin 64) :
    ((base64Symbol d).toNat.toUInt8 = (base64Symbol e).toNat.toUInt8 → d = e) ∧
      (base64Symbol d).toNat.toUInt8 ≠ '='.toNat.toUInt8 := by
  revert d e
  unfold base64Symbol encodeCharset lit
  decide +kernel

/-- The bytes of the text tell what it is Base64 of. -/
theorem IsBase64.inj {bytes bytes' : List UInt8} {text text' : Text} (h : IsBase64 bytes text)
    (h' : IsBase64 bytes' text')
    (heq : (text.map fun c => c.toNat.toUInt8) = text'.map fun c => c.toNat.toUInt8) :
    bytes = bytes' := by
  have hinj {d e : Fin 64} := (base64Symbol_byte d e).1
  have hpad {d : Fin 64} := (base64Symbol_byte d d).2
  have htoNat {a b : UInt8} (hab : a.toNat = b.toNat) : a = b := UInt8.toNat_inj.mp hab
  induction h generalizing bytes' text' with
  | nil =>
      cases h' with
      | nil => rfl
      | one | two | three => cases heq
  | one a d e h =>
      cases h' with
      | nil => cases heq
      | one a' d' e' h' =>
          simp only [List.map_cons, List.cons.injEq] at heq
          obtain rfl := hinj heq.1
          obtain rfl := hinj heq.2.1
          rw [htoNat (a := a) (b := a') (by omega)]
      | two a' b' d' e' f' h' =>
          simp only [List.map_cons, List.cons.injEq] at heq
          exact absurd heq.2.2.1.symm hpad
      | three a' b' c' d' e' f' g' h' hrest' =>
          simp only [List.map_cons, List.cons.injEq] at heq
          exact absurd heq.2.2.1.symm hpad
  | two a b d e f h =>
      have hb := b.toNat_lt
      cases h' with
      | nil => cases heq
      | one a' d' e' h' =>
          simp only [List.map_cons, List.cons.injEq] at heq
          exact absurd heq.2.2.1 hpad
      | two a' b' d' e' f' h' =>
          have hb' := b'.toNat_lt
          simp only [List.map_cons, List.cons.injEq] at heq
          obtain rfl := hinj heq.1
          obtain rfl := hinj heq.2.1
          obtain rfl := hinj heq.2.2.1
          rw [htoNat (a := a) (b := a') (by omega), htoNat (a := b) (b := b') (by omega)]
      | three a' b' c' d' e' f' g' h' hrest' =>
          simp only [List.map_cons, List.cons.injEq] at heq
          exact absurd heq.2.2.2.1.symm hpad
  | three a b c d e f g h hrest ih =>
      have hb := b.toNat_lt
      have hc := c.toNat_lt
      cases h' with
      | nil => cases heq
      | one a' d' e' h' =>
          simp only [List.map_cons, List.cons.injEq] at heq
          exact absurd heq.2.2.1 hpad
      | two a' b' d' e' f' h' =>
          simp only [List.map_cons, List.cons.injEq] at heq
          exact absurd heq.2.2.2.1 hpad
      | three a' b' c' d' e' f' g' h' hrest' =>
          have hb' := b'.toNat_lt
          have hc' := c'.toNat_lt
          simp only [List.map_cons, List.cons.injEq] at heq
          obtain rfl := hinj heq.1
          obtain rfl := hinj heq.2.1
          obtain rfl := hinj heq.2.2.1
          obtain rfl := hinj heq.2.2.2.1
          rw [htoNat (a := a) (b := a') (by omega), htoNat (a := b) (b := b') (by omega),
            htoNat (a := c) (b := c') (by omega), ih hrest' heq.2.2.2.2]

theorem base64Text_eq_nil {bytes : List UInt8} (h : base64Text bytes = []) : bytes = [] := by
  have hbase := isBase64_base64Text bytes
  rw [h] at hbase
  cases hbase
  rfl

/-! ## The decoder -/

/-- The sextets whose symbols the decoder looks up. -/
def lookedUp : List UInt8 → List Nat
  | [] => []
  | [a] => [a.toNat / 4, a.toNat % 4 * 16]
  | [a, b] => [a.toNat / 4, a.toNat % 4 * 16 + b.toNat / 16]
  | a :: b :: c :: bytes =>
      a.toNat / 4 :: (a.toNat % 4 * 16 + b.toNat / 16) :: (b.toNat % 16 * 4 + c.toNat / 64) ::
        c.toNat % 64 :: lookedUp bytes

/-- The bytes that the decoder finds: of two bytes at the end only the first. -/
def decodedBytes : List UInt8 → List UInt8
  | [] => []
  | [a] => [a]
  | [a, _] => [a]
  | a :: b :: c :: bytes => a :: b :: c :: decodedBytes bytes

/-- The two alphabets agree on all symbols but the last two, and none of them is the padding. -/
theorem decodeSymbol_encodeSymbol {value : Nat} (h : value < 64) :
    decodeSymbol (encodeSymbol value) = (if value < 62 then some value else none) ∧
      encodeSymbol value ≠ '=' := by
  have hall : ∀ value < 64,
      decodeSymbol (encodeSymbol value) = (if value < 62 then some value else none) ∧
        encodeSymbol value ≠ '=' := by
    unfold decodeSymbol encodeSymbol encodeCharset decodeCharset lit
    decide +kernel
  exact hall value h

theorem shiftLeft_or {high low k : Nat} (h : low < 2 ^ k) : high <<< k ||| low = high * 2 ^ k + low := by
  rw [← Nat.shiftLeft_add_eq_or_of_lt h, Nat.shiftLeft_eq]

theorem byteOf_eq {set : Nat} {a : UInt8} (h : set % 256 = a.toNat) : byteOf set = a := by
  apply UInt8.toNat_inj.mp
  rw [byteOf, UInt8.toNat_ofNat', ← h]

section Decoder

variable {first : Nat}

/-- A set that ends with padding is read for its first two symbols. -/
theorem decodeGroup_padded {x y : Nat} (hx : x < 64) (hy : y < 64) (c : Char) (out : Growing UInt8) :
    decodeGroup (encodeSymbol x) (encodeSymbol y) c '=' out =
      if x < 62 ∧ y < 62 then some ((out.reserve 1).store (byteOf ((x * 64 + y) / 16))) else none := by
  rw [decodeGroup, if_pos rfl, (decodeSymbol_encodeSymbol hx).1, (decodeSymbol_encodeSymbol hy).1]
  by_cases hboth : x < 62 ∧ y < 62
  · rw [if_pos hboth, if_pos hboth.1, if_pos hboth.2]
    simp only [Option.bind_eq_bind, Option.bind_some]
    rw [shiftLeft_or (k := 6) (by omega), Nat.shiftRight_eq_div_pow]
    rfl
  · rw [if_neg hboth]
    split
    · next hx => rw [if_neg fun hy => hboth ⟨hx, hy⟩]; rfl
    · rfl

/-- A set without padding is read for all four. -/
theorem decodeGroup_full {x y z w : Nat} (hx : x < 64) (hy : y < 64) (hz : z < 64) (hw : w < 64)
    (out : Growing UInt8) :
    decodeGroup (encodeSymbol x) (encodeSymbol y) (encodeSymbol z) (encodeSymbol w) out =
      if x < 62 ∧ y < 62 ∧ z < 62 ∧ w < 62 then
        let set := ((x * 64 + y) * 64 + z) * 64 + w
        some ((((out.reserve 3).store (byteOf (set / 65536))).store (byteOf (set / 256))).store
          (byteOf set))
      else none := by
  rw [decodeGroup, if_neg (decodeSymbol_encodeSymbol hw).2, if_neg (decodeSymbol_encodeSymbol hz).2,
    (decodeSymbol_encodeSymbol hx).1, (decodeSymbol_encodeSymbol hy).1,
    (decodeSymbol_encodeSymbol hz).1, (decodeSymbol_encodeSymbol hw).1]
  by_cases hall : x < 62 ∧ y < 62 ∧ z < 62 ∧ w < 62
  · have hset : x <<< 18 ||| y <<< 12 ||| z <<< 6 ||| w = ((x * 64 + y) * 64 + z) * 64 + w := by
      have hlow : z <<< 6 ||| w = z * 2 ^ 6 + w := shiftLeft_or (by omega)
      have hmiddle : y <<< 12 ||| (z * 2 ^ 6 + w) = y * 2 ^ 12 + (z * 2 ^ 6 + w) :=
        shiftLeft_or (by omega)
      have hhigh : x <<< 18 ||| (y * 2 ^ 12 + (z * 2 ^ 6 + w)) =
          x * 2 ^ 18 + (y * 2 ^ 12 + (z * 2 ^ 6 + w)) := shiftLeft_or (by omega)
      rw [Nat.or_assoc, Nat.or_assoc, Nat.or_comm (y <<< 12), Nat.or_comm _ (y <<< 12), hlow,
        hmiddle, hhigh]
      omega
    rw [if_pos hall, if_pos hall.1, if_pos hall.2.1, if_pos hall.2.2.1, if_pos hall.2.2.2]
    simp only [Option.bind_eq_bind, Option.bind_some, hset, Nat.shiftRight_eq_div_pow]
    rfl
  · rw [if_neg hall]
    split
    · split
      · split
        · split
          · next hx hy hz hw => exact absurd ⟨hx, hy, hz, hw⟩ hall
          · rfl
        · rfl
      · rfl
    · rfl

/-- What the decoder makes of the text of the encoder. -/
theorem decodeLoop_base64Text (hfirst : 0 < first) (bytes : List UInt8) {out : Growing UInt8}
    (h : Filled first out) :
    ((∀ d ∈ lookedUp bytes, d < 62) → ∃ decoded, decodeLoop (base64Text bytes) out = some decoded ∧
      Filled first decoded ∧ decoded.written = out.written ++ decodedBytes bytes) ∧
      ((∃ d ∈ lookedUp bytes, ¬ d < 62) → decodeLoop (base64Text bytes) out = none) := by
  induction bytes using lookedUp.induct generalizing out with
  | case1 =>
      refine ⟨fun _ => ⟨out, rfl, h, by simp [decodedBytes]⟩, ?_⟩
      rintro ⟨d, hd, -⟩
      cases hd
  | case2 a =>
      have ha := a.toNat_lt
      have hstored := h.reserve_stores hfirst [a]
      have hbyte : byteOf ((a.toNat / 4 * 64 + a.toNat % 4 * 16) / 16) = a :=
        byteOf_eq (by omega)
      have hgroup := decodeGroup_padded (x := a.toNat / 4) (y := a.toNat % 4 * 16) (by omega)
        (by omega) '=' out
      rw [hbyte] at hgroup
      have hloop : decodeLoop (base64Text [a]) out =
          if a.toNat / 4 < 62 ∧ a.toNat % 4 * 16 < 62 then some ((out.reserve 1).store a)
          else none := by
        rw [← hgroup]
        simp [base64Text, sextets, decodeLoop]
      rw [hloop]
      refine ⟨fun hall => ?_, fun hsome => if_neg fun hall => ?_⟩
      · rw [if_pos ⟨hall _ (by simp [lookedUp]), hall _ (by simp [lookedUp])⟩]
        exact ⟨_, rfl, hstored⟩
      · obtain ⟨d, hd, hlarge⟩ := hsome
        simp only [lookedUp, List.mem_cons, List.not_mem_nil, or_false] at hd
        rcases hd with rfl | rfl
        · exact hlarge hall.1
        · exact hlarge hall.2
  | case3 a b =>
      have ha := a.toNat_lt
      have hb := b.toNat_lt
      have hstored := h.reserve_stores hfirst [a]
      have hbyte : byteOf ((a.toNat / 4 * 64 + (a.toNat % 4 * 16 + b.toNat / 16)) / 16) = a :=
        byteOf_eq (by omega)
      have hgroup := decodeGroup_padded (x := a.toNat / 4) (y := a.toNat % 4 * 16 + b.toNat / 16)
        (by omega) (by omega) (encodeSymbol (b.toNat % 16 * 4)) out
      rw [hbyte] at hgroup
      have hloop : decodeLoop (base64Text [a, b]) out =
          if a.toNat / 4 < 62 ∧ a.toNat % 4 * 16 + b.toNat / 16 < 62 then
            some ((out.reserve 1).store a)
          else none := by
        rw [← hgroup]
        simp [base64Text, sextets, decodeLoop]
      rw [hloop]
      refine ⟨fun hall => ?_, fun hsome => if_neg fun hall => ?_⟩
      · rw [if_pos ⟨hall _ (by simp [lookedUp]), hall _ (by simp [lookedUp])⟩]
        exact ⟨_, rfl, hstored⟩
      · obtain ⟨d, hd, hlarge⟩ := hsome
        simp only [lookedUp, List.mem_cons, List.not_mem_nil, or_false] at hd
        rcases hd with rfl | rfl
        · exact hlarge hall.1
        · exact hlarge hall.2
  | case4 a b c bytes ih =>
      have ha := a.toNat_lt
      have hb := b.toNat_lt
      have hc := c.toNat_lt
      have hstored := h.reserve_stores hfirst [a, b, c]
      have hgroup := decodeGroup_full (x := a.toNat / 4) (y := a.toNat % 4 * 16 + b.toNat / 16)
        (z := b.toNat % 16 * 4 + c.toNat / 64) (w := c.toNat % 64) (by omega) (by omega) (by omega)
        (by omega) out
      have hset : ((a.toNat / 4 * 64 + (a.toNat % 4 * 16 + b.toNat / 16)) * 64 +
          (b.toNat % 16 * 4 + c.toNat / 64)) * 64 + c.toNat % 64 =
            a.toNat * 65536 + b.toNat * 256 + c.toNat := by
        omega
      simp only [hset] at hgroup
      rw [byteOf_eq (a := a) (by omega), byteOf_eq (a := b) (by omega),
        byteOf_eq (a := c) (by omega)] at hgroup
      have hloop : decodeLoop (base64Text (a :: b :: c :: bytes)) out =
          (decodeGroup (encodeSymbol (a.toNat / 4))
            (encodeSymbol (a.toNat % 4 * 16 + b.toNat / 16))
            (encodeSymbol (b.toNat % 16 * 4 + c.toNat / 64)) (encodeSymbol (c.toNat % 64)) out).bind
              (decodeLoop (base64Text bytes)) := by
        rw [base64Text_cons]
        rfl
      rw [hloop, hgroup]
      obtain ⟨hdecoded, hundefined⟩ := ih hstored.1
      simp only [lookedUp, List.forall_mem_cons, List.exists_mem_cons_iff]
      refine ⟨?_, ?_⟩
      · rintro ⟨hx, hy, hz, hw, hrest⟩
        rw [if_pos ⟨hx, hy, hz, hw⟩, Option.bind_some]
        obtain ⟨decoded, heq, hfilled, hwritten⟩ := hdecoded hrest
        refine ⟨decoded, heq, hfilled, hwritten.trans ?_⟩
        rw [hstored.2]
        simp [decodedBytes]
      · intro hlarge
        by_cases hall : a.toNat / 4 < 62 ∧ a.toNat % 4 * 16 + b.toNat / 16 < 62 ∧
            b.toNat % 16 * 4 + c.toNat / 64 < 62 ∧ c.toNat % 64 < 62
        · rw [if_pos hall, Option.bind_some]
          obtain ⟨hx, hy, hz, hw⟩ := hall
          exact hundefined ((((hlarge.resolve_left (not_not.mpr hx)).resolve_left
            (not_not.mpr hy)).resolve_left (not_not.mpr hz)).resolve_left (not_not.mpr hw))
        · rw [if_neg hall, Option.bind_none]

end Decoder

/-! ## The round trip -/

/-- The first length of the decoder's buffer. -/
def decodeAllocation (outSize : Nat) : Nat :=
  if outSize = 0 then base64EncodeDefaultBufferSize else outSize

/-- Two bytes are left at the end and the last one is zero, no group of six bits is one of the last
two, and the bytes in front of the last do not fill the buffer. -/
def RoundTripFits (bytes : List UInt8) (decodeSize : Nat) : Prop :=
  bytes.length % 3 = 2 ∧ bytes.getLast? = some 0 ∧ (∀ d ∈ sextets bytes, d < 62) ∧
    ∀ k, bytes.length - 1 ≠ decodeAllocation decodeSize * 2 ^ k

/-- The terminator stands for the last byte, where that is zero and was lost. -/
theorem decodedBytes_append_zero_iff (bytes : List UInt8) :
    decodedBytes bytes ++ [0] = bytes ↔ bytes.length % 3 = 2 ∧ bytes.getLast? = some 0 := by
  induction bytes using decodedBytes.induct with
  | case1 => simp [decodedBytes]
  | case2 a => simp [decodedBytes]
  | case3 a b => simp [decodedBytes, eq_comm]
  | case4 a b c bytes ih =>
      have hlen : (a :: b :: c :: bytes).length % 3 = bytes.length % 3 := by
        simp only [List.length_cons]
        omega
      have hlast : bytes.length % 3 = 2 → (a :: b :: c :: bytes).getLast? = bytes.getLast? := by
        intro htwo
        cases bytes with
        | nil => cases htwo
        | cons d bytes => simp
      rw [decodedBytes, hlen, List.cons_append, List.cons_append, List.cons_append,
        List.cons.injEq, List.cons.injEq, List.cons.injEq, ih]
      constructor
      · rintro ⟨-, -, -, htwo, hzero⟩
        exact ⟨htwo, (hlast htwo).trans hzero⟩
      · rintro ⟨htwo, hzero⟩
        exact ⟨rfl, rfl, rfl, htwo, (hlast htwo).symm.trans hzero⟩

/-- The group that is not looked up belongs to the last of two bytes. -/
theorem forall_sextets_iff {bytes : List UInt8} (hlast : bytes.getLast? = some 0) :
    (∀ d ∈ sextets bytes, d < 62) ↔ ∀ d ∈ lookedUp bytes, d < 62 := by
  induction bytes using lookedUp.induct with
  | case1 => simp [sextets, lookedUp]
  | case2 a => simp [sextets, lookedUp]
  | case3 a b =>
      obtain rfl : b = 0 := by simpa using hlast
      simp [sextets, lookedUp]
  | case4 a b c bytes ih =>
      simp only [sextets, lookedUp, List.forall_mem_cons]
      cases bytes with
      | nil => simp [sextets, lookedUp]
      | cons d bytes => rw [ih (by simpa using hlast)]

theorem length_decodedBytes {bytes : List UInt8} (h : decodedBytes bytes ++ [0] = bytes) :
    (decodedBytes bytes).length = bytes.length - 1 := by
  have hlen := congrArg List.length h
  rw [List.length_append, List.length_singleton] at hlen
  omega

/-- The bytes come back exactly when the slips cancel out. -/
theorem roundTrips_iff (bytes : List UInt8) (encodeSize decodeSize : Nat) :
    RoundTrips bytes encodeSize decodeSize ↔ RoundTripFits bytes decodeSize := by
  obtain ⟨hinside, hwritten⟩ := rvBase64Encode_spec bytes encodeSize
  have hfirst := base64Buffer_pos decodeSize
  obtain ⟨hdecoded, hundefined⟩ :=
    decodeLoop_base64Text hfirst bytes (filled_base64Buffer UInt8 decodeSize)
  have hcases : RoundTrips bytes encodeSize decodeSize ↔
      ∃ out, rvBase64Decode (base64Text bytes) decodeSize = some out ∧ out.written = bytes ∧
        out.inside = true := by
    constructor
    · rintro ⟨text, htext, -, -, hout⟩
      obtain rfl := List.append_cancel_right (hwritten.symm.trans htext)
      exact hout
    · exact fun hout => ⟨_, hwritten, isBase64_base64Text bytes, hinside, hout⟩
  rw [hcases]
  by_cases hlooked : ∀ d ∈ lookedUp bytes, d < 62
  · obtain ⟨decoded, hloop, hfilled, hbytes⟩ := hdecoded hlooked
    have hbytes : decoded.written = decodedBytes bytes := by simpa [base64Buffer] using hbytes
    have hdecode : rvBase64Decode (base64Text bytes) decodeSize = some (decoded.store 0) := by
      rw [rvBase64Decode, hloop, Option.map_some]
    have hroom : (decoded.store 0).inside = true ↔
        ∀ k, decoded.written.length ≠ decodeAllocation decodeSize * 2 ^ k := by
      rw [Growing.store_inside, hfilled.inside, Bool.true_and, decide_eq_true_iff,
        lt_iff_le_and_ne, and_iff_right hfilled.length.fits, Ne, hfilled.length.eq_iff, not_exists]
      rfl
    rw [hdecode]
    constructor
    · rintro ⟨out, heq, hout, houtInside⟩
      obtain rfl := Option.some.inj heq
      rw [Growing.store_written, hbytes] at hout
      obtain ⟨htwo, hzero⟩ := (decodedBytes_append_zero_iff bytes).mp hout
      refine ⟨htwo, hzero, (forall_sextets_iff hzero).mpr hlooked, ?_⟩
      rw [← length_decodedBytes hout, ← hbytes]
      exact hroom.mp houtInside
    · rintro ⟨htwo, hzero, -, hfull⟩
      have hout := (decodedBytes_append_zero_iff bytes).mpr ⟨htwo, hzero⟩
      refine ⟨_, rfl, by rw [Growing.store_written, hbytes, hout], hroom.mpr ?_⟩
      rw [hbytes, length_decodedBytes hout]
      exact hfull
  · have hnone : rvBase64Decode (base64Text bytes) decodeSize = none := by
      have hlarge : ∃ d ∈ lookedUp bytes, ¬ d < 62 := by
        by_contra hsmall
        exact hlooked fun d hd => not_not.mp fun hlarge => hsmall ⟨d, hd, hlarge⟩
      rw [rvBase64Decode, hundefined hlarge, Option.map_none]
    rw [hnone]
    refine iff_of_false ?_ fun h => hlooked ((forall_sextets_iff h.2.1).mp h.2.2.1)
    rintro ⟨out, heq, -⟩
    cases heq

/-- The text of two bytes comes back as the first of them. -/
theorem not_roundTrips_pair : ¬ RoundTrips [1, 2] 0 0 := by
  rintro ⟨text, htext, -, -, out, hout, hbytes, -⟩
  have hencoded := (rvBase64Encode_spec [1, 2] 0).2
  obtain rfl := List.append_cancel_right (hencoded.symm.trans htext)
  have hdecoded : (rvBase64Decode (base64Text [1, 2]) 0).map Growing.written = some [1, 0] := by
    decide +kernel
  rw [hout, Option.map_some, hbytes] at hdecoded
  exact absurd (Option.some.inj hdecoded) (by decide)

end XHDF5.Client
