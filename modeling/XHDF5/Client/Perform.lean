/-
# Requests on the shared handle

`CURL_PERFORM` runs one request on the connector's only easy handle. Every piece of the response
goes to `H5_rest_curl_write_data_callback`, which appends it to the global response buffer and puts
a NUL behind it. The write position goes back to the buffer's start after the transfer; nothing
else is reset.

Pointers are offsets from the start of the buffer. The memory behind `bufferSize` stands for the
bytes that a reallocation finds there.
-/

import Mathlib.Data.List.TakeWhile
import XHDF5.Client.MultiPerform
import XHDF5.Math.Region

namespace XHDF5.Client

open XHDF5.Math

/-- `CURL_RESPONSE_BUFFER_DEFAULT_SIZE`. -/
def curlResponseBufferDefaultSize : Nat := 1024

/-- The global `response_buffer` with the memory it points to. -/
structure SharedBuffer where
  memory : Memory UInt8
  currBufPtr : Nat
  bufferSize : Nat

/-- One response: the pieces curl hands to the callback, whether the transfer ends well after
them, its status, and the largest size a reallocation gets meanwhile. -/
structure Response where
  chunks : List (List UInt8)
  transferred : Bool
  responseCode : Nat
  limit : Nat

/-- The body of a response. -/
def Response.body (response : Response) : List UInt8 := response.chunks.flatten

/-- The callback's `while`: the size doubles until the target fits or a reallocation fails. -/
def grow (target limit : Nat) : Nat → Nat → Nat
  | 0, bufferSize => bufferSize
  | rounds + 1, bufferSize =>
      if target > bufferSize ∧ 2 * bufferSize ≤ limit then
        grow target limit rounds (2 * bufferSize)
      else bufferSize

/-- `H5_rest_curl_write_data_callback`, with its return value. -/
def h5RestCurlWriteDataCallback (limit : Nat) (data : List UInt8) (b : SharedBuffer) :
    SharedBuffer × Nat :=
  let dataSize := data.length
  let bufPtrdiff := b.currBufPtr + dataSize
  let bufferSize := grow (bufPtrdiff + 1) limit (bufPtrdiff + 1) b.bufferSize
  if bufPtrdiff + 1 > bufferSize then ({ b with bufferSize }, 0)
  else
    ({ memory := b.memory.write b.currBufPtr (data ++ [0])
       currBufPtr := bufPtrdiff
       bufferSize }, dataSize)

/-- curl hands the pieces over until the callback returns less than it was given. -/
def feed (limit : Nat) : List (List UInt8) → SharedBuffer → SharedBuffer × Bool
  | [], b => (b, true)
  | data :: chunks, b =>
      let result := h5RestCurlWriteDataCallback limit data b
      if result.2 = data.length then feed limit chunks result.1 else (result.1, false)

/-- `CURL_PERFORM_INTERNAL`. -/
def curlPerform (handleHTTPResponse : Bool) (response : Response) (b : SharedBuffer) :
    SharedBuffer × Outcome Unit :=
  let result := feed response.limit response.chunks b
  ({ result.1 with currBufPtr := 0 },
    if !(result.2 && response.transferred) then .fail
    else if handleHTTPResponse then handleResponse response.responseCode ()
    else .ok ())

/-- What happens to the buffer: a request, or the `memset` of `RV_attr_write`. -/
inductive BufferEvent
  | perform (handleHTTPResponse : Bool) (response : Response)
  | clear

/-- One event. -/
def bufferStep (b : SharedBuffer) : BufferEvent → Option SharedBuffer
  | .perform handleHTTPResponse response => some (curlPerform handleHTTPResponse response b).1
  | .clear => some { b with memory := b.memory.write 0 (List.replicate b.bufferSize 0) }

/-- The buffer that `H5_rest_init` allocates; `malloc` leaves its bytes as they are. -/
def initBuffer (memory : Memory UInt8) : SharedBuffer :=
  ⟨memory, 0, curlResponseBufferDefaultSize⟩

/-- The NUL-terminated string in the buffer, if there is a NUL. -/
def SharedBuffer.string (b : SharedBuffer) : Option (List UInt8) :=
  let bytes := b.memory.read 0 b.bufferSize
  if 0 ∈ bytes then some (bytes.takeWhile (· ≠ 0)) else none

/-- After a request the string in the buffer is the body of its own response. -/
def OwnResponse (b : SharedBuffer) : BufferEvent → Prop
  | .perform handleHTTPResponse response =>
      (curlPerform handleHTTPResponse response b).1.string = some response.body
  | .clear => True

/-- A buffer that was doubled, no further than reallocations are granted, holds some bytes and a
NUL. -/
def Room (limit bufferSize len : Nat) : Prop :=
  ∃ k, len < bufferSize * 2 ^ k ∧ (k = 0 ∨ bufferSize * 2 ^ k ≤ limit)

/-- The response brings something to the callback, there is room for all of it, and it has no
NUL. -/
def Delivers (b : SharedBuffer) (response : Response) : Prop :=
  response.chunks ≠ [] ∧ Room response.limit b.bufferSize response.body.length ∧
    0 ∉ response.body

/-- Nothing is stored, and the string that is in the buffer already equals the body. -/
def Repeats (b : SharedBuffer) (response : Response) : Prop :=
  match response.chunks with
  | [] => b.string = some []
  | data :: _ =>
      ¬ Room response.limit b.bufferSize data.length ∧
        let bufferSize := grow (data.length + 1) response.limit (data.length + 1) b.bufferSize
        SharedBuffer.string { b with bufferSize } = some response.body

/-- The requests after which the string is the body. -/
def Answers (b : SharedBuffer) : BufferEvent → Prop
  | .perform _ response => Delivers b response ∨ Repeats b response
  | .clear => True

/-! ## Room -/

theorem Room.mono {limit bufferSize len more : Nat} (h : Room limit bufferSize (len + more)) :
    Room limit bufferSize len := by
  obtain ⟨k, hlt, hk⟩ := h
  exact ⟨k, Nat.lt_of_le_of_lt (Nat.le_add_right _ _) hlt, hk⟩

/-- A buffer that was doubled has the same room. -/
theorem room_double_iff {limit bufferSize len j : Nat}
    (hj : j = 0 ∨ bufferSize * 2 ^ j ≤ limit) :
    Room limit (bufferSize * 2 ^ j) len ↔ Room limit bufferSize len := by
  constructor
  · rintro ⟨k, hlt, hk⟩
    refine ⟨j + k, by rwa [Nat.pow_add, ← Nat.mul_assoc], ?_⟩
    rcases hk with rfl | hk
    · exact hj
    · exact Or.inr (by rwa [Nat.pow_add, ← Nat.mul_assoc])
  · rintro ⟨k, hlt, hk⟩
    rcases Nat.le_total k j with hle | hle
    · refine ⟨0, Nat.lt_of_lt_of_le hlt ?_, Or.inl rfl⟩
      rw [Nat.pow_zero, Nat.mul_one]
      exact Nat.mul_le_mul_left _ (Nat.pow_le_pow_right Nat.two_pos hle)
    · obtain ⟨m, rfl⟩ := Nat.exists_eq_add_of_le hle
      rw [Nat.pow_add, ← Nat.mul_assoc] at hlt hk
      exact ⟨m, hlt, hk.imp (fun h => by omega) id⟩

theorem grow_spec {target limit rounds bufferSize : Nat} (hpos : 0 < bufferSize)
    (hrounds : target ≤ bufferSize * 2 ^ rounds) :
    (∃ k, grow target limit rounds bufferSize = bufferSize * 2 ^ k ∧
      (k = 0 ∨ bufferSize * 2 ^ k ≤ limit)) ∧
    (target ≤ grow target limit rounds bufferSize ∨
      limit < 2 * grow target limit rounds bufferSize) := by
  induction rounds generalizing bufferSize with
  | zero => exact ⟨⟨0, by simp [grow], Or.inl rfl⟩, Or.inl (by simpa [grow] using hrounds)⟩
  | succ rounds ih =>
      rw [grow]
      by_cases hmore : target > bufferSize ∧ 2 * bufferSize ≤ limit
      · rw [if_pos hmore]
        obtain ⟨⟨k, hk, hgranted⟩, hend⟩ := @ih (2 * bufferSize) (by omega)
          (by rwa [Nat.mul_comm 2, Nat.mul_assoc, Nat.mul_comm 2, ← Nat.pow_succ])
        have hsize : 2 * bufferSize * 2 ^ k = bufferSize * 2 ^ (k + 1) := by
          rw [Nat.pow_succ, Nat.mul_comm 2, Nat.mul_assoc, Nat.mul_comm 2]
        refine ⟨⟨k + 1, by rw [hk, hsize], Or.inr ?_⟩, hend⟩
        rcases hgranted with rfl | hgranted
        · simpa [Nat.mul_comm] using hmore.2
        · rwa [hsize] at hgranted
      · rw [if_neg hmore]
        exact ⟨⟨0, by simp, Or.inl rfl⟩, by omega⟩

/-- The loop of the callback ends with enough bytes exactly when there is room. -/
theorem le_grow_iff {limit bufferSize len : Nat} (hpos : 0 < bufferSize) :
    len + 1 ≤ grow (len + 1) limit (len + 1) bufferSize ↔ Room limit bufferSize len := by
  have hrounds : len + 1 ≤ bufferSize * 2 ^ (len + 1) :=
    Nat.le_trans (Nat.le_of_lt Nat.lt_two_pow_self) (Nat.le_mul_of_pos_left _ hpos)
  obtain ⟨⟨k, hk, hgranted⟩, hend⟩ := @grow_spec _ limit _ _ hpos hrounds
  constructor
  · exact fun h => ⟨k, by omega, hgranted⟩
  · intro hroom
    rcases hend with hend | hend
    · exact hend
    · rw [hk] at hend ⊢
      obtain ⟨m, hlt, hm⟩ := (room_double_iff hgranted).mpr hroom
      cases m with
      | zero =>
          rw [Nat.pow_zero, Nat.mul_one] at hlt
          exact hlt
      | succ m =>
          have hbound : 2 * (bufferSize * 2 ^ k) ≤ bufferSize * 2 ^ k * 2 ^ (m + 1) := by
            rw [Nat.mul_comm 2]
            exact Nat.mul_le_mul_left _ (Nat.le_self_pow (Nat.succ_ne_zero m) 2)
          omega

/-! ## The callback -/

/-- The bytes stored so far are at the front of the buffer. -/
structure Stored (b : SharedBuffer) (bytes : List UInt8) : Prop where
  cursor : b.currBufPtr = bytes.length
  inside : bytes.length < b.bufferSize
  front : b.memory.read 0 bytes.length = bytes

/-- There is a NUL behind them. -/
def Closed (b : SharedBuffer) (bytes : List UInt8) : Prop := b.memory bytes.length = 0

/-- A call of the callback: with room it stores the piece and a NUL and returns its length, else
it stores nothing. -/
theorem callback_spec {b : SharedBuffer} {bytes data : List UInt8} {limit : Nat}
    (h : Stored b bytes) :
    ∃ k, (k = 0 ∨ b.bufferSize * 2 ^ k ≤ limit) ∧
      (Room limit b.bufferSize (bytes.length + data.length) →
        h5RestCurlWriteDataCallback limit data b =
          (⟨b.memory.write bytes.length (data ++ [0]), bytes.length + data.length,
            b.bufferSize * 2 ^ k⟩, data.length) ∧
        bytes.length + data.length < b.bufferSize * 2 ^ k) ∧
      (¬ Room limit b.bufferSize (bytes.length + data.length) →
        h5RestCurlWriteDataCallback limit data b =
          ({ b with
            bufferSize := grow (bytes.length + data.length + 1) limit
              (bytes.length + data.length + 1) b.bufferSize }, 0) ∧
        b.bufferSize ≤ grow (bytes.length + data.length + 1) limit
          (bytes.length + data.length + 1) b.bufferSize) := by
  have hpos : 0 < b.bufferSize := Nat.zero_lt_of_lt h.inside
  have hrounds : bytes.length + data.length + 1 ≤
      b.bufferSize * 2 ^ (bytes.length + data.length + 1) :=
    Nat.le_trans (Nat.le_of_lt Nat.lt_two_pow_self) (Nat.le_mul_of_pos_left _ hpos)
  have hroom := @le_grow_iff limit _ (bytes.length + data.length) hpos
  obtain ⟨⟨k, hk, hgranted⟩, -⟩ := @grow_spec _ limit _ _ hpos hrounds
  refine ⟨k, hgranted, fun hfits => ?_, fun hfull => ?_⟩
  · have hle := hroom.mpr hfits
    rw [hk] at hle
    refine ⟨?_, hle⟩
    simp only [h5RestCurlWriteDataCallback, h.cursor]
    rw [hk, if_neg (Nat.not_lt_of_le hle)]
  · constructor
    · simp only [h5RestCurlWriteDataCallback, h.cursor]
      rw [if_pos (Nat.lt_of_not_le fun hle => hfull (hroom.mp hle))]
    · rw [hk]
      exact Nat.le_mul_of_pos_right _ (Nat.two_pow_pos k)

/-- A stored piece is behind the others, and a NUL behind it. -/
theorem Stored.write {b : SharedBuffer} {bytes data : List UInt8} {bufferSize : Nat}
    (h : Stored b bytes) (hinside : bytes.length + data.length < bufferSize) :
    Stored ⟨b.memory.write bytes.length (data ++ [0]), bytes.length + data.length, bufferSize⟩
        (bytes ++ data) ∧
      Closed ⟨b.memory.write bytes.length (data ++ [0]), bytes.length + data.length, bufferSize⟩
        (bytes ++ data) := by
  constructor
  · refine ⟨(List.length_append).symm, by rwa [List.length_append], ?_⟩
    rw [List.length_append, Memory.read_append, Memory.read_write_of_le (by omega), h.front,
      Nat.zero_add, Memory.write_append, Memory.read_write_of_le (Nat.le_refl _),
      Memory.read_write_self]
  · rw [Closed, List.length_append]
    apply (Memory.write_add (by simp)).trans
    simp

/-- curl's calls after a first piece was stored: all pieces are stored if there is room for them,
and else fewer bytes than they have. -/
theorem feed_spec {limit : Nat} (chunks : List (List UInt8)) {b : SharedBuffer}
    {bytes : List UInt8} (h : Stored b bytes) (hclosed : Closed b bytes) :
    ∃ stored, Stored (feed limit chunks b).1 (bytes ++ stored) ∧
      Closed (feed limit chunks b).1 (bytes ++ stored) ∧
      (Room limit b.bufferSize (bytes.length + chunks.flatten.length) →
        stored = chunks.flatten) ∧
      (¬ Room limit b.bufferSize (bytes.length + chunks.flatten.length) →
        stored.length < chunks.flatten.length) := by
  induction chunks generalizing b bytes with
  | nil =>
      refine ⟨[], by rwa [List.append_nil], by rwa [List.append_nil], fun _ => rfl, fun hfull => ?_⟩
      exact absurd ⟨0, by simpa using h.inside, Or.inl rfl⟩ hfull
  | cons data chunks ih =>
      obtain ⟨k, hgranted, hcall, hrefuse⟩ := @callback_spec _ _ data limit h
      rw [List.flatten_cons, List.length_append, ← Nat.add_assoc]
      by_cases hfits : Room limit b.bufferSize (bytes.length + data.length)
      · obtain ⟨hcall, hinside⟩ := hcall hfits
        obtain ⟨hstored, hclosed'⟩ := h.write hinside
        obtain ⟨stored, hall, hend, hwhole, hpart⟩ := ih hstored hclosed'
        rw [List.length_append, room_double_iff hgranted] at hwhole hpart
        rw [feed, hcall, if_pos rfl]
        refine ⟨data ++ stored, by rwa [← List.append_assoc], by rwa [← List.append_assoc],
          fun hroom => by rw [hwhole hroom], fun hfull => ?_⟩
        rw [List.length_append]
        exact Nat.add_lt_add_left (hpart hfull) _
      · obtain ⟨hrefuse, hsize⟩ := hrefuse hfits
        have hdata : 0 ≠ data.length := fun hzero =>
          hfits ⟨0, by simpa [← hzero] using h.inside, Or.inl rfl⟩
        rw [feed, hrefuse, if_neg hdata]
        refine ⟨[], ?_, by rwa [List.append_nil], fun hroom => absurd hroom.mono hfits,
          fun _ => ?_⟩
        · rw [List.append_nil]
          exact ⟨h.cursor, Nat.lt_of_lt_of_le h.inside hsize, h.front⟩
        · rw [List.length_nil]
          omega

/-- When the callback takes all pieces, they are stored. -/
theorem Stored.feed {limit : Nat} (chunks : List (List UInt8)) {b : SharedBuffer}
    {bytes : List UInt8} (h : Stored b bytes) (hall : (feed limit chunks b).2 = true) :
    Stored (Client.feed limit chunks b).1 (bytes ++ chunks.flatten) := by
  induction chunks generalizing b bytes with
  | nil => simpa [Client.feed] using h
  | cons data chunks ih =>
      obtain ⟨k, -, hcall, hrefuse⟩ := @callback_spec _ _ data limit h
      rw [Client.feed] at hall ⊢
      by_cases hfits : Room limit b.bufferSize (bytes.length + data.length)
      · obtain ⟨hcall, hinside⟩ := hcall hfits
        rw [hcall, if_pos rfl] at hall ⊢
        rw [List.flatten_cons, ← List.append_assoc]
        exact ih (h.write hinside).1 hall
      · have hdata : 0 ≠ data.length := fun hzero =>
          hfits ⟨0, by simpa [← hzero] using h.inside, Or.inl rfl⟩
        rw [(hrefuse hfits).1, if_neg hdata] at hall
        cases hall

/-- The string in a buffer with a NUL behind the bytes goes up to the first NUL. -/
theorem string_eq {b : SharedBuffer} {bytes : List UInt8} (h : Stored b bytes)
    (hclosed : Closed b bytes) : b.string = some (bytes.takeWhile (· ≠ 0)) := by
  obtain ⟨rest, hrest⟩ := Nat.exists_eq_add_of_lt h.inside
  have hread : b.memory.read 0 b.bufferSize =
      bytes ++ 0 :: b.memory.read (bytes.length + 1) rest := by
    rw [hrest, Nat.add_right_comm, Memory.read_append, Memory.read_append, h.front, Nat.zero_add,
      Nat.zero_add, List.append_assoc]
    refine congrArg (bytes ++ ·) ?_
    rw [Closed] at hclosed
    simp [Memory.read, hclosed]
  rw [SharedBuffer.string, hread, if_pos (by simp)]
  refine congrArg some ?_
  rw [List.takeWhile_append]
  by_cases hfull : (bytes.takeWhile (· ≠ 0)).length = bytes.length
  · rw [if_pos hfull]
    simpa using ((List.takeWhile_prefix _).eq_of_length hfull).symm
  · rw [if_neg hfull]

/-! ## Requests -/

/-- The buffer between two requests. -/
structure Ready (b : SharedBuffer) : Prop where
  start : b.currBufPtr = 0
  pos : 0 < b.bufferSize

theorem Ready.stored {b : SharedBuffer} (h : Ready b) : Stored b [] :=
  ⟨h.start, h.pos, rfl⟩

theorem takeWhile_ne_eq_self_iff (bytes : List UInt8) :
    bytes.takeWhile (· ≠ 0) = bytes ↔ 0 ∉ bytes := by
  rw [List.takeWhile_eq_self_iff]
  constructor
  · exact fun h hmem => by simpa using h 0 hmem
  · exact fun h value hvalue => decide_eq_true fun hzero => h (hzero ▸ hvalue)

/-- What a request leaves in the buffer when its first piece is stored. -/
theorem feed_cons_spec {b : SharedBuffer} {limit : Nat} {data : List UInt8}
    {chunks : List (List UInt8)} (h : Ready b) (hfits : Room limit b.bufferSize data.length) :
    ∃ bytes, Stored (feed limit (data :: chunks) b).1 bytes ∧
      Closed (feed limit (data :: chunks) b).1 bytes ∧
      (Room limit b.bufferSize (data :: chunks).flatten.length →
        bytes = (data :: chunks).flatten) ∧
      (¬ Room limit b.bufferSize (data :: chunks).flatten.length →
        bytes.length < (data :: chunks).flatten.length) := by
  obtain ⟨k, hgranted, hcall, -⟩ := @callback_spec _ _ data limit h.stored
  rw [List.length_nil, Nat.zero_add] at hcall
  obtain ⟨hcall, hinside⟩ := hcall hfits
  obtain ⟨hstored, hclosed⟩ := @Stored.write _ _ data _ h.stored (by simpa using hinside)
  rw [List.length_nil, Nat.zero_add, List.nil_append] at hstored hclosed
  obtain ⟨stored, hall, hend, hwhole, hpart⟩ := feed_spec chunks hstored hclosed
  rw [room_double_iff hgranted, ← List.length_append, ← List.flatten_cons] at hwhole hpart
  rw [feed, hcall, if_pos rfl]
  refine ⟨data ++ stored, hall, hend, fun hroom => ?_, fun hfull => ?_⟩
  · rw [hwhole hroom, List.flatten_cons]
  · rw [List.flatten_cons, List.length_append, List.length_append]
    exact Nat.add_lt_add_left (hpart hfull) _

/-- What it leaves there when its first piece is refused. -/
theorem feed_cons_refused {b : SharedBuffer} {limit : Nat} {data : List UInt8}
    {chunks : List (List UInt8)} (h : Ready b) (hfull : ¬ Room limit b.bufferSize data.length) :
    feed limit (data :: chunks) b =
      ({ b with
        bufferSize := grow (data.length + 1) limit (data.length + 1) b.bufferSize }, false) := by
  obtain ⟨_, _, -, hrefuse⟩ := @callback_spec _ _ data limit h.stored
  rw [List.length_nil, Nat.zero_add] at hrefuse
  have hdata : 0 ≠ data.length := fun hzero =>
    hfull ⟨0, by simpa [← hzero] using h.pos, Or.inl rfl⟩
  rw [feed, (hrefuse hfull).1, if_neg hdata]

/-- One event: the string is the response's own body exactly under the condition. -/
theorem ownResponse_iff {b : SharedBuffer} (h : Ready b) (event : BufferEvent) :
    OwnResponse b event ↔ Answers b event := by
  cases event with
  | clear => exact Iff.rfl
  | perform handleHTTPResponse response =>
      obtain ⟨chunks, transferred, responseCode, limit⟩ := response
      change (feed limit chunks b).1.string = some chunks.flatten ↔ _
      cases chunks with
      | nil => simp [Answers, Delivers, Repeats, feed]
      | cons data chunks =>
          by_cases hfits : Room limit b.bufferSize data.length
          · obtain ⟨bytes, hstored, hclosed, hwhole, hpart⟩ := @feed_cons_spec _ _ _ chunks h hfits
            have hrepeats : ¬ Repeats b ⟨data :: chunks, transferred, responseCode, limit⟩ :=
              fun hrepeats => hrepeats.1 hfits
            rw [string_eq hstored hclosed, Option.some_inj, Answers, or_iff_left hrepeats]
            by_cases hroom : Room limit b.bufferSize (data :: chunks).flatten.length
            · rw [hwhole hroom, takeWhile_ne_eq_self_iff]
              exact ⟨fun hfree => ⟨List.cons_ne_nil _ _, hroom, hfree⟩, fun hdelivers => hdelivers.2.2⟩
            · refine iff_of_false (fun heq => ?_) fun hdelivers => hroom hdelivers.2.1
              have hle := (List.takeWhile_prefix (l := bytes) (· ≠ (0 : UInt8))).length_le
              rw [heq] at hle
              exact Nat.not_le_of_lt (hpart hroom) hle
          · have hdelivers : ¬ Delivers b ⟨data :: chunks, transferred, responseCode, limit⟩ := by
              rintro ⟨-, hroom, -⟩
              rw [Response.body, List.flatten_cons, List.length_append] at hroom
              exact hfits hroom.mono
            rw [feed_cons_refused h hfits, Answers, or_iff_right hdelivers]
            exact ⟨fun heq => ⟨hfits, heq⟩, fun hrepeats => hrepeats.2⟩

/-- Between two requests the write position is at the buffer's start. -/
theorem ready_step {b b' : SharedBuffer} {event : BufferEvent} (h : Ready b)
    (hstep : bufferStep b event = some b') : Ready b' := by
  cases event with
  | clear =>
      obtain rfl := Option.some.inj hstep
      exact ⟨h.start, h.pos⟩
  | perform handleHTTPResponse response =>
      obtain rfl := Option.some.inj hstep
      refine ⟨rfl, ?_⟩
      change 0 < (feed response.limit response.chunks b).1.bufferSize
      cases hchunks : response.chunks with
      | nil => exact h.pos
      | cons data chunks =>
          by_cases hfits : Room response.limit b.bufferSize data.length
          · obtain ⟨bytes, hstored, -⟩ := @feed_cons_spec _ _ _ chunks h hfits
            exact Nat.zero_lt_of_lt hstored.inside
          · obtain ⟨_, _, -, hrefuse⟩ :=
              @callback_spec _ _ data response.limit h.stored
            rw [List.length_nil, Nat.zero_add] at hrefuse
            rw [feed_cons_refused h hfits]
            exact Nat.lt_of_lt_of_le h.pos (hrefuse hfits).2

/-- Along a run from the connector's start, whatever the fresh buffer contains, every request
leaves its own body as the string in the buffer exactly when every request meets the condition. -/
theorem along_ownResponse_iff (memory : Memory UInt8) (events : List BufferEvent) :
    Along bufferStep OwnResponse events (initBuffer memory) ↔
      Along bufferStep Answers events (initBuffer memory) := by
  have hready : Ready (initBuffer memory) := ⟨rfl, Nat.zero_lt_succ _⟩
  exact along_iff_along (fun _ event h _ => ownResponse_iff h event)
    (fun _ _ _ h _ _ hstep => ready_step h hstep) hready
    (along_of_forall (A := fun _ _ => True) (fun _ _ => trivial) events _)

/-- A request without a body leaves the one before it in the buffer. -/
theorem not_ownResponse_emptyBody :
    ¬ Along bufferStep OwnResponse
      [.perform true ⟨[[0x7b, 0x7d]], true, 200, 0⟩, .perform true ⟨[], true, 201, 0⟩]
      (initBuffer fun _ => 0) := by
  intro h
  have hsecond : OwnResponse _ _ := (h.2 _ rfl).1
  revert hsecond
  rw [OwnResponse]
  decide +kernel

end XHDF5.Client
