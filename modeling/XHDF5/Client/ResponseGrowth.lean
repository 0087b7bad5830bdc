/-
# The response buffer as it moves

`H5_rest_curl_write_data_callback` doubles the global response buffer until a piece and a NUL fit.
Each doubling may move the buffer, and the write pointer is set to the same place in the new
block. Pointers are addresses here, and what `realloc` answers is data: nothing, or a block with
some content, into whose front the old bytes are copied.

The loop is followed for a number of rounds; one that has not ended by then has no result.
-/

import XHDF5.Math.CInt
import XHDF5.Math.Region
import XHDF5.Math.Run

namespace XHDF5.Client.ResponseGrowth

open XHDF5.Math

/-! ## The callback -/

/-- A block of memory with what it holds before anything is copied to it. -/
structure Block where
  addr : Nat
  content : List UInt8

/-- What `realloc` answers to a request for a number of bytes. No object is larger than
`PTRDIFF_MAX`. -/
structure Allocator where
  realloc : Nat → Option Block
  sized : ∀ size block, realloc size = some block → block.content.length = size ∧ size < 2 ^ 63

/-- The `response_buffer`, and the memory it points to. -/
structure GrowingBuffer where
  heap : Memory UInt8
  buffer : Nat
  currBufPtr : Nat
  bufferSize : Nat

/-- A piece of `size * nmemb` bytes that curl delivers, and what `realloc` answers meanwhile. -/
structure Delivery where
  size : Nat
  nmemb : Nat
  data : List UInt8
  length_eq : data.length = size * nmemb
  allocator : Allocator

/-- The buffer after a reallocation. -/
def GrowingBuffer.moveTo (b : GrowingBuffer) (block : Block) : GrowingBuffer where
  heap := (b.heap.write block.addr block.content).write block.addr
    (b.heap.read b.buffer b.bufferSize)
  buffer := block.addr
  currBufPtr := block.addr + (b.currBufPtr - b.buffer)
  bufferSize := wrap64 (2 * b.bufferSize)

/-- The callback's `while`: whether the buffer got large enough, unless more rounds are needed. -/
def growBuffer (realloc : Nat → Option Block) (target : Nat) :
    Nat → GrowingBuffer → Option (GrowingBuffer × Bool)
  | 0, _ => none
  | rounds + 1, b =>
      if b.bufferSize < target then
        match realloc (wrap64 (2 * b.bufferSize)) with
        | none => some (b, false)
        | some block => growBuffer realloc target rounds (b.moveTo block)
      else some (b, true)

/-- What a call comes to: it is still growing the buffer, it has no defined result, or it
returns. -/
inductive Called
  | growing
  | undefined
  | returned (b : GrowingBuffer) (count : Nat)

/-- A difference of pointers, of type `ptrdiff_t`. -/
def ptrdiff (value : Int) : Int := value.bmod (2 ^ 64)

/-- `H5_rest_curl_write_data_callback`. A store outside of the block is undefined, and so is an
increment past the largest `ptrdiff_t`. -/
def h5RestCurlWriteDataCallback (rounds : Nat) (delivery : Delivery) (b : GrowingBuffer) : Called :=
  let dataSize := wrap64 (delivery.size * delivery.nmemb)
  let bufPtrdiff := ptrdiff ((b.currBufPtr + dataSize : Nat) - (b.buffer : Nat))
  if bufPtrdiff < 0 then .returned b 0
  else if bufPtrdiff = 2 ^ 63 - 1 then .undefined
  else
    match growBuffer delivery.allocator.realloc (toSize (bufPtrdiff + 1)) rounds b with
    | none => .growing
    | some (b, false) => .returned b 0
    | some (b, true) =>
        if b.buffer ≤ b.currBufPtr ∧ b.currBufPtr + dataSize < b.buffer + b.bufferSize then
          .returned
            { b with
              heap := (b.heap.write b.currBufPtr (delivery.data.take dataSize)).write
                (b.currBufPtr + dataSize) [0]
              currBufPtr := b.currBufPtr + dataSize }
            dataSize
        else .undefined

/-! ## Responses -/

/-- The block that is allocated first. -/
structure Initial where
  heap : Memory UInt8
  buffer : Nat
  bufferSize : Nat
  bufferSize_lt : bufferSize < 2 ^ 63

/-- The buffer, the bytes of the pieces that were taken, and whether there was one. -/
structure Collected where
  b : GrowingBuffer
  bytes : List UInt8
  delivered : Bool

/-- Before the first piece. -/
def Initial.start (initial : Initial) : Collected where
  b := ⟨initial.heap, initial.buffer, initial.buffer, initial.bufferSize⟩
  bytes := []
  delivered := false

/-- One piece is delivered. -/
def deliver (rounds : Nat) (s : Collected) (delivery : Delivery) : Option Collected :=
  match h5RestCurlWriteDataCallback rounds delivery s.b with
  | .returned b count =>
      some (if count = delivery.data.length then ⟨b, s.bytes ++ delivery.data, true⟩ else
        { s with b })
  | _ => none

/-- The buffer and curl's piece are two objects in the half of the addresses that a program has. -/
def InMemory (s : Collected) (delivery : Delivery) : Prop :=
  s.b.bufferSize + delivery.data.length < 2 ^ 63

instance (s : Collected) (delivery : Delivery) : Decidable (InMemory s delivery) :=
  inferInstanceAs (Decidable (_ < _))

/-- Every reallocation that it takes to get to a size is granted. -/
def Granted (realloc : Nat → Option Block) (target bufferSize : Nat) : Prop :=
  ∀ k, bufferSize * 2 ^ k < target → realloc (bufferSize * 2 ^ (k + 1)) ≠ none

/-- The call returns, every store is inside the buffer, and the count is that of the piece unless a
reallocation that it needs fails. -/
def Answers (rounds : Nat) (s : Collected) (delivery : Delivery) : Prop :=
  ∃ b count, h5RestCurlWriteDataCallback rounds delivery s.b = .returned b count ∧
    (count = delivery.data.length ↔
      Granted delivery.allocator.realloc (s.bytes.length + delivery.data.length + 1) s.b.bufferSize)

/-- The pieces so far are at the front of the buffer, with a NUL behind them. -/
structure Exact (s : Collected) : Prop where
  collected : s.b.heap.read s.b.buffer s.bytes.length = s.bytes
  terminated : s.delivered = true → s.b.heap (s.b.buffer + s.bytes.length) = 0

/-- The buffer collects the pieces of a response. -/
def Collects (rounds : Nat) (initial : Initial) (deliveries : List Delivery) : Prop :=
  Along (deliver rounds) (Answers rounds) deliveries initial.start ∧
    Throughout (deliver rounds) Exact deliveries initial.start

/-! ## Growth -/

section Growth

variable {b b' : GrowingBuffer} {allocator : Allocator} {target : Nat}

/-- The write pointer is in the buffer, and the buffer is an object. -/
structure Sound (b : GrowingBuffer) : Prop where
  pos : 0 < b.bufferSize
  lt : b.bufferSize < 2 ^ 63
  behind : b.buffer ≤ b.currBufPtr
  before : b.currBufPtr < b.buffer + b.bufferSize

/-- A buffer that has grown holds the old bytes, and the write pointer is where it was in them. -/
structure Moved (b b' : GrowingBuffer) : Prop where
  sound : Sound b'
  offset : b'.currBufPtr - b'.buffer = b.currBufPtr - b.buffer
  larger : b.bufferSize ≤ b'.bufferSize
  kept : ∀ k < b.bufferSize, b'.heap (b'.buffer + k) = b.heap (b.buffer + k)

theorem Moved.refl (h : Sound b) : Moved b b := ⟨h, rfl, Nat.le_refl _, fun _ _ => rfl⟩

theorem Moved.trans {b'' : GrowingBuffer} (h : Moved b b') (h' : Moved b' b'') : Moved b b'' where
  sound := h'.sound
  offset := h'.offset.trans h.offset
  larger := Nat.le_trans h.larger h'.larger
  kept k hk := (h'.kept k (Nat.lt_of_lt_of_le hk h.larger)).trans (h.kept k hk)

/-- One doubling. -/
theorem moveTo_moved (h : Sound b) {block : Block} (hlt : 2 * b.bufferSize < 2 ^ 63) :
    Moved b (b.moveTo block) := by
  have hsize : (b.moveTo block).bufferSize = 2 * b.bufferSize := wrap64_of_lt (by omega)
  obtain ⟨hpos, -, hbehind, hbefore⟩ := h
  refine ⟨⟨?_, ?_, Nat.le_add_right _ _, ?_⟩, Nat.add_sub_cancel_left .., ?_, fun k hk => ?_⟩
  · omega
  · omega
  · rw [hsize]
    change block.addr + (b.currBufPtr - b.buffer) < block.addr + _
    omega
  · omega
  · have hread : k < (b.heap.read b.buffer b.bufferSize).length := by rwa [Memory.length_read]
    change Memory.write _ block.addr (b.heap.read b.buffer b.bufferSize) (block.addr + k) = _
    rw [Memory.write_add hread]
    simp [Memory.read]

/-- The target is reached at once, or after a reallocation is granted and the rest of the way is. -/
theorem granted_double_iff {realloc : Nat → Option Block} {bufferSize : Nat}
    (hlt : bufferSize < target) :
    Granted realloc target bufferSize ↔
      realloc (2 * bufferSize) ≠ none ∧ Granted realloc target (2 * bufferSize) := by
  have hdouble (k : Nat) : 2 * bufferSize * 2 ^ k = bufferSize * 2 ^ (k + 1) := by
    rw [Nat.pow_succ, Nat.mul_comm 2, Nat.mul_assoc, Nat.mul_comm 2]
  constructor
  · intro h
    refine ⟨?_, fun k hk => ?_⟩
    · have hfirst := h 0 (by simpa using hlt)
      rwa [Nat.zero_add, Nat.pow_one, Nat.mul_comm] at hfirst
    · rw [hdouble] at hk ⊢
      exact h (k + 1) hk
  · rintro ⟨hfirst, hrest⟩ k hk
    cases k with
    | zero => rwa [Nat.zero_add, Nat.pow_one, Nat.mul_comm]
    | succ k =>
        rw [← hdouble] at hk ⊢
        exact hrest k hk

/-- Growth ends, and with enough room when every reallocation is granted. -/
theorem growBuffer_spec {rounds : Nat} (h : Sound b)
    (hrounds : target ≤ b.bufferSize * 2 ^ rounds) :
    ∃ b' large, growBuffer allocator.realloc target (rounds + 1) b = some (b', large) ∧ Moved b b' ∧
      (large = true ↔ Granted allocator.realloc target b.bufferSize) ∧
        (large = true → target ≤ b'.bufferSize) := by
  induction rounds generalizing b with
  | zero =>
      rw [Nat.pow_zero, Nat.mul_one] at hrounds
      refine ⟨b, true, if_neg (Nat.not_lt.mpr hrounds), .refl h, ?_, fun _ => hrounds⟩
      refine iff_of_true rfl fun k hk => absurd hk (Nat.not_lt.mpr ?_)
      exact Nat.le_trans hrounds (Nat.le_mul_of_pos_right _ (Nat.two_pow_pos k))
  | succ rounds ih =>
      rw [growBuffer]
      by_cases hlt : b.bufferSize < target
      · rw [if_pos hlt, granted_double_iff hlt,
          wrap64_of_lt (by have := h.lt; omega : 2 * b.bufferSize < 2 ^ 64)]
        cases hrealloc : allocator.realloc (2 * b.bufferSize) with
        | none => exact ⟨b, false, rfl, .refl h, by simp, by simp⟩
        | some block =>
            have hobject := (allocator.sized _ _ hrealloc).2
            have hmoved := @moveTo_moved b h block hobject
            have hsize : (b.moveTo block).bufferSize = 2 * b.bufferSize :=
              wrap64_of_lt (by omega)
            obtain ⟨b', large, hgrow, hmoved', hlarge, hroom⟩ := ih hmoved.sound (by
              rwa [hsize, Nat.mul_comm 2, Nat.mul_assoc, Nat.mul_comm 2, ← Nat.pow_succ])
            refine ⟨b', large, hgrow, hmoved.trans hmoved', ?_, hroom⟩
            rw [hlarge, hsize]
            simp
      · rw [if_neg hlt]
        refine ⟨b, true, rfl, .refl h, ?_, fun _ => Nat.not_lt.mp hlt⟩
        refine iff_of_true rfl fun k hk => absurd hk (Nat.not_lt.mpr ?_)
        exact Nat.le_trans (Nat.not_lt.mp hlt) (Nat.le_mul_of_pos_right _ (Nat.two_pow_pos k))

/-- Old bytes in a buffer that has grown. -/
theorem Moved.read_eq {bytes : List UInt8} (h : Moved b b') (hlt : bytes.length ≤ b.bufferSize)
    (hread : b.heap.read b.buffer bytes.length = bytes) :
    b'.heap.read b'.buffer bytes.length = bytes :=
  Memory.read_eq_iff.mpr fun k hk => by
    rw [h.kept k (Nat.lt_of_lt_of_le hk hlt)]
    exact Memory.read_eq_iff.mp hread k hk

end Growth

/-! ## Calls -/

section Calls

variable {rounds : Nat} {delivery : Delivery} {s : Collected}

/-- The buffer after a piece and a NUL are stored. -/
def GrowingBuffer.append (b : GrowingBuffer) (data : List UInt8) : GrowingBuffer where
  heap := (b.heap.write b.currBufPtr data).write (b.currBufPtr + data.length) [0]
  buffer := b.buffer
  currBufPtr := b.currBufPtr + data.length
  bufferSize := b.bufferSize

/-- The difference of pointers into one buffer and a piece behind it. -/
theorem ptrdiff_eq {len offset : Nat} {start : Nat} (h : offset + len < 2 ^ 63) :
    ptrdiff ((start + offset + len : Nat) - (start : Nat)) = (offset + len : Nat) := by
  have hdiff : ((start + offset + len : Nat) : Int) - (start : Nat) =
      (offset + len : Nat) := by omega
  rw [hdiff, ptrdiff, Int.bmod_eq_of_le] <;> omega

theorem toSize_natCast {value : Nat} (h : value < 2 ^ 64) : toSize (value : Int) = value := by
  rw [toSize, BitVec.ofInt_natCast, BitVec.toNat_ofNat, Nat.mod_eq_of_lt h]

/-- A call grows the buffer, and stores the piece and a NUL when there is room. -/
theorem h5RestCurlWriteDataCallback_eq {b : GrowingBuffer} (h : Sound b) (hrounds : 64 ≤ rounds)
    (hmemory : b.bufferSize + delivery.data.length < 2 ^ 63) :
    ∃ b' large, Moved b b' ∧
      (large = true ↔ Granted delivery.allocator.realloc
        (b.currBufPtr - b.buffer + delivery.data.length + 1) b.bufferSize) ∧
      (large = true → b.currBufPtr - b.buffer + delivery.data.length < b'.bufferSize) ∧
      h5RestCurlWriteDataCallback rounds delivery b =
        if large = true then .returned (b'.append delivery.data) delivery.data.length
        else .returned b' 0 := by
  obtain ⟨offset, hoffset⟩ := Nat.exists_eq_add_of_le h.behind
  have hbefore := h.before
  have hlen : wrap64 (delivery.size * delivery.nmemb) = delivery.data.length := by
    rw [← delivery.length_eq]
    exact wrap64_of_lt (by omega)
  have hback : b.currBufPtr - b.buffer = offset := by omega
  obtain ⟨more, rfl⟩ := Nat.exists_eq_add_of_le hrounds
  have hfits : offset + delivery.data.length + 1 ≤ b.bufferSize * 2 ^ (63 + more) := by
    have hpow : 2 ^ 63 ≤ 2 ^ (63 + more) := Nat.pow_le_pow_right Nat.two_pos (Nat.le_add_right ..)
    have hscale : 2 ^ (63 + more) ≤ b.bufferSize * 2 ^ (63 + more) := Nat.le_mul_of_pos_left _ h.pos
    omega
  have hgrown := @growBuffer_spec b delivery.allocator _ _ h hfits
  obtain ⟨b', large, hgrow, hmoved, hlarge, hroom⟩ := hgrown
  have hrounds' : 63 + more + 1 = 64 + more := by omega
  rw [hrounds'] at hgrow
  have hdiff : ptrdiff ((b.currBufPtr + delivery.data.length : Nat) - (b.buffer : Nat)) =
      (offset + delivery.data.length : Nat) := by
    rw [hoffset]
    exact ptrdiff_eq (by omega)
  have hsize : toSize (((offset + delivery.data.length : Nat) : Int) + 1) =
      offset + delivery.data.length + 1 :=
    toSize_natCast (by omega : offset + delivery.data.length + 1 < 2 ^ 64)
  refine ⟨b', large, hmoved, by rw [hback]; exact hlarge, fun h => by rw [hback]; exact hroom h, ?_⟩
  unfold h5RestCurlWriteDataCallback
  simp only [hlen, hdiff]
  rw [if_neg (by omega), if_neg (by omega), hsize, hgrow]
  cases large with
  | false => rfl
  | true =>
      have hgrew := hroom rfl
      have hsound := hmoved.sound
      have hsame := hmoved.offset
      have hbehind := hsound.behind
      simp only [if_true]
      rw [if_pos ⟨hbehind, by omega⟩, List.take_length]
      rfl

/-- The invariant: the bytes are in the buffer, and the write pointer is behind them. -/
structure Holding (s : Collected) : Prop where
  sound : Sound s.b
  offset : s.b.currBufPtr - s.b.buffer = s.bytes.length
  exact : Exact s

/-- What one piece does. -/
theorem deliver_holding (h : Holding s) (hrounds : 64 ≤ rounds) (hmemory : InMemory s delivery) :
    Answers rounds s delivery ∧ ∃ s', deliver rounds s delivery = some s' ∧ Holding s' := by
  obtain ⟨b', large, hmoved, hlarge, hroom, hcall⟩ :=
    h5RestCurlWriteDataCallback_eq h.sound hrounds hmemory
  rw [h.offset] at hlarge hroom
  have hbehind := h.sound.behind
  have hbefore := h.sound.before
  have hoffset := h.offset
  have hinside : s.bytes.length < s.b.bufferSize := by omega
  have hread := hmoved.read_eq (Nat.le_of_lt hinside) h.exact.collected
  have hoffset' := hmoved.offset.trans h.offset
  have hbehind' := hmoved.sound.behind
  cases large with
  | false =>
      rw [if_neg Bool.false_ne_true] at hcall
      have hshort : 0 ≠ delivery.data.length := fun hzero => by
        refine absurd (hlarge.mpr fun k hk => absurd hk (Nat.not_lt.mpr ?_)) Bool.false_ne_true
        exact Nat.le_trans (by omega) (Nat.le_mul_of_pos_right _ (Nat.two_pow_pos k))
      refine ⟨⟨b', 0, hcall, iff_of_false hshort fun hgranted => ?_⟩, { s with b := b' }, ?_, ?_⟩
      · exact absurd (hlarge.mpr hgranted) Bool.false_ne_true
      · rw [deliver, hcall]
        simp only [if_neg hshort]
      · refine ⟨hmoved.sound, hoffset', hread, fun hdelivered => ?_⟩
        exact (hmoved.kept _ hinside).trans (h.exact.terminated hdelivered)
  | true =>
      rw [if_pos rfl] at hcall
      have hlt := hroom rfl
      refine ⟨⟨_, _, hcall, iff_of_true rfl (hlarge.mp rfl)⟩,
        ⟨b'.append delivery.data, s.bytes ++ delivery.data, true⟩, ?_, ?_⟩
      · rw [deliver, hcall]
        simp only [if_true]
      · have hpointer : b'.currBufPtr = b'.buffer + s.bytes.length := by omega
        refine ⟨⟨hmoved.sound.pos, hmoved.sound.lt, ?_, ?_⟩, ?_, ?_, fun _ => ?_⟩
        · exact Nat.le_trans hbehind' (Nat.le_add_right ..)
        · change b'.currBufPtr + delivery.data.length < b'.buffer + b'.bufferSize
          omega
        · change b'.currBufPtr + delivery.data.length - b'.buffer =
            (s.bytes ++ delivery.data).length
          rw [List.length_append]
          omega
        · change Memory.read _ b'.buffer (s.bytes ++ delivery.data).length = s.bytes ++
            delivery.data
          rw [List.length_append, Memory.read_append, GrowingBuffer.append, hpointer,
            Memory.read_write_of_le (by omega), Memory.read_write_of_le (by omega),
            Memory.read_write_of_le (by omega), Memory.read_write_self, hread]
        · change Memory.write _ (b'.currBufPtr + delivery.data.length) [0]
            (b'.buffer + (s.bytes ++ delivery.data).length) = 0
          rw [List.length_append, ← Nat.add_assoc, ← hpointer]
          exact Memory.write_add (k := 0) (by decide)

end Calls

/-! ## Whole responses -/

theorem start_holding {initial : Initial} (hpos : 0 < initial.bufferSize) :
    Holding initial.start where
  sound := ⟨hpos, initial.bufferSize_lt, Nat.le_refl _, Nat.lt_add_of_pos_right hpos⟩
  offset := Nat.sub_self _
  exact := ⟨rfl, fun h => by cases h⟩

/-- A buffer of at least one byte collects every response, in at most 64 rounds for each piece. -/
theorem collects_of_pos {rounds : Nat} {initial : Initial} {deliveries : List Delivery}
    (hpos : 0 < initial.bufferSize) (hrounds : 64 ≤ rounds)
    (hmemory : Along (deliver rounds) InMemory deliveries initial.start) :
    Collects rounds initial deliveries := by
  have hkeeps (s : Collected) (delivery : Delivery) (s' : Collected) (h : Holding s)
      (hd : InMemory s delivery) (hnext : deliver rounds s delivery = some s') : Holding s' := by
    obtain ⟨-, other, hother, hnext'⟩ := deliver_holding h hrounds hd
    rw [hnext] at hother
    exact Option.some.inj hother ▸ hnext'
  have hfree : Along (deliver rounds) (fun _ _ => True) deliveries initial.start :=
    along_of_forall (fun _ _ => trivial) deliveries initial.start
  have hstart := start_holding hpos
  refine ⟨along_of_along (fun s d h hd _ => (deliver_holding h hrounds hd).1)
    (fun s d s' h hd _ => hkeeps s d s' h hd) hstart hmemory hfree, ?_⟩
  exact (throughout_of_along (fun s d s' h hd _ => hkeeps s d s' h hd) hstart hmemory hfree).imp
    fun _ h => h.exact

/-- Every request up to `PTRDIFF_MAX` is granted, one for no bytes too. -/
def granting : Allocator where
  realloc size := if size < 2 ^ 63 then some ⟨4096, List.replicate size 255⟩ else none
  sized size block h := by
    split at h
    · next hlt =>
        cases h
        exact ⟨List.length_replicate, hlt⟩
    · cases h

/-- Four bytes that are not initialised. -/
def fourBytes : Initial where
  heap _ := 255
  buffer := 1024
  bufferSize := 4
  bufferSize_lt := by decide

/-- Two pieces of three and of six bytes: the buffer doubles twice for the second. -/
theorem collects_fourBytes :
    Collects 64 fourBytes [⟨1, 3, [65, 66, 67], rfl, granting⟩,
      ⟨1, 6, [68, 69, 70, 71, 72, 73], rfl, granting⟩] :=
  collects_of_pos (by decide) (Nat.le_refl 64) (by decide +kernel)

/-- A block of no bytes. -/
def noBytes : Initial := { fourBytes with bufferSize := 0, bufferSize_lt := by decide }

/-- Twice nothing is nothing. -/
theorem growBuffer_of_zero {target : Nat} (hpos : 0 < target) (rounds : Nat) {b : GrowingBuffer}
    (hzero : b.bufferSize = 0) : growBuffer granting.realloc target rounds b = none := by
  induction rounds generalizing b with
  | zero => rfl
  | succ rounds ih =>
      rw [growBuffer, if_pos (by omega), hzero]
      exact ih (by rw [GrowingBuffer.moveTo, hzero]; rfl)

/-- A buffer of no bytes never gets large enough for a piece. -/
theorem not_collects_noBytes : ¬ ∃ rounds,
    Collects rounds noBytes [⟨1, 1, [65], rfl, granting⟩] := by
  rintro ⟨rounds, ⟨⟨b, count, hcall, -⟩, -⟩, -⟩
  have hgrowing : h5RestCurlWriteDataCallback rounds ⟨1, 1, [65], rfl, granting⟩ noBytes.start.b =
      .growing := by
    have hzero := growBuffer_of_zero (by decide : 0 < toSize (1 + 1)) rounds
        (b := noBytes.start.b) rfl
    unfold h5RestCurlWriteDataCallback
    have hdiff : ptrdiff ((noBytes.start.b.currBufPtr + wrap64 (1 * 1) : Nat) -
        (noBytes.start.b.buffer : Nat)) = 1 := by decide
    simp only [hdiff]
    rw [if_neg (by decide), if_neg (by decide), hzero]
  rw [hgrowing] at hcall
  cases hcall

end XHDF5.Client.ResponseGrowth
