/-
# The bytes of a selection over the pipe

For a selection the plugin forks. The child reads the dataset and writes the number of bytes and
then the bytes into a pipe; the parent reads the number, allocates a buffer and reads until it has
that many. Both processes take their steps in any order, every `write` and `read` may handle only
a part, and the child may end at any point.
-/

import XHDF5.Math.Bytes
import XHDF5.Math.Run

namespace XHDF5.Plugin

open XHDF5.Math

/-- `sizeof(size_t)`. -/
def sizeofSize : Nat := 8

/-- What the child read from the file; its size is a `size_t`. -/
structure Payload where
  bytes : List UInt8
  fits : bytes.length < 256 ^ sizeofSize

/-- Where the child is: before the write of the size, in the loop that writes the bytes, or
ended. -/
inductive Child
  | header
  | body (written : Nat)
  | exited
deriving DecidableEq

/-- Where the parent is: before the read of the size, before `malloc`, in the loop that reads the
bytes, behind it, or returned without an answer. -/
inductive Parent
  | header
  | allocate (dataSize : Nat)
  | body (dataSize : Nat) (readData : List UInt8)
  | received (readData : List UInt8)
  | failed
deriving DecidableEq

/-- Both processes with the bytes in the pipe between them, and how often the parent has read. -/
structure Piped where
  child : Child
  pipe : List UInt8
  parent : Parent
  reads : Nat
deriving DecidableEq

/-- A step of one of the processes; the numbers are what the system calls return. -/
inductive PipeEvent
  | childWrite (result : Nat)
  | childEnds
  | parentRead (result : Nat)
  | readFails
  | malloc (granted : Bool)
deriving DecidableEq

/-- Both processes right after `fork`. -/
def forked : Piped := ⟨.header, [], .header, 0⟩

/-- The test of the child's loop; behind it the child exits. -/
def childLoop (size bytesWritten : Nat) : Child :=
  if bytesWritten < size then .body bytesWritten else .exited

/-- The test of the parent's loop. -/
def parentLoop (dataSize : Nat) (readData : List UInt8) : Parent :=
  if readData.length < dataSize then .body dataSize readData else .received readData

/-- What `read` may return: some of the bytes in the pipe, at least one and at most as many as it
was asked for; of an empty pipe nothing, once the child has ended. Before that it blocks. -/
def readPipe (s : Piped) (count result : Nat) : Option (List UInt8) :=
  if s.pipe = [] then
    if s.child = .exited ∧ result = 0 then some [] else none
  else if 1 ≤ result ∧ result ≤ count ∧ result ≤ s.pipe.length then some (s.pipe.take result)
  else none

/-- One step. A `write` that fails and a death of the child are both `childEnds`. -/
def pipeStep (data : Payload) (s : Piped) : PipeEvent → Option Piped
  | .childWrite result =>
      match s.child with
      | .header =>
          if 1 ≤ result ∧ result ≤ sizeofSize then
            some { s with
              pipe := s.pipe ++ (littleEndian sizeofSize data.bytes.length).take result
              child := childLoop data.bytes.length 0 }
          else none
      | .body written =>
          if 1 ≤ result ∧ written + result ≤ data.bytes.length then
            some { s with
              pipe := s.pipe ++ (data.bytes.drop written).take result
              child := childLoop data.bytes.length (written + result) }
          else none
      | .exited => none
  | .childEnds => if s.child = .exited then none else some { s with child := .exited }
  | .parentRead result =>
      match s.parent with
      | .header =>
          (readPipe s sizeofSize result).map fun bytes =>
            { s with
              pipe := s.pipe.drop result
              parent := .allocate (ofLittleEndian bytes)
              reads := s.reads + 1 }
      | .body dataSize readData =>
          (readPipe s (dataSize - readData.length) result).map fun bytes =>
            { s with
              pipe := s.pipe.drop result
              parent := parentLoop dataSize (readData ++ bytes)
              reads := s.reads + 1 }
      | _ => none
  | .readFails =>
      match s.parent with
      | .header | .body _ _ => some { s with parent := .failed }
      | _ => none
  | .malloc granted =>
      match s.parent with
      | .allocate dataSize =>
          some { s with parent := if granted then parentLoop dataSize [] else .failed }
      | _ => none

/-- The parent's loop goes on, and no byte will ever come. -/
def Spins (s : Piped) : Prop :=
  ∃ dataSize readData, s.parent = .body dataSize readData ∧ s.pipe = [] ∧ s.child = .exited

/-- The parent is through, one way or the other. -/
def ParentEnded (s : Piped) : Prop := s.parent = .failed ∨ ∃ readData, s.parent = .received readData

/-- The protocol does what it is for: the loop makes no more reads than there are bytes, it never
waits for bytes that do not come, what it hands on is what the child read, and it is not left
without an answer. -/
structure Robust (data : Payload) (s : Piped) : Prop where
  bounded : s.reads ≤ data.bytes.length + 1
  advances : ¬ Spins s ∧ (ParentEnded s ∨ ∃ event s', pipeStep data s event = some s')
  whole : ∀ readData, s.parent = .received readData → readData = data.bytes
  answered : s.parent ≠ .failed

/-- No call fails, the child writes all of its bytes before it ends, and the size is written and
read in one piece. -/
def Undisturbed (s : Piped) : PipeEvent → Prop
  | .childWrite result => s.child = .header → result = sizeofSize
  | .childEnds => False
  | .parentRead result => s.parent = .header → result = sizeofSize
  | .readFails => False
  | .malloc granted => granted = true

instance (s : Piped) (event : PipeEvent) : Decidable (Undisturbed s event) :=
  match event with
  | .childWrite result => inferInstanceAs (Decidable (s.child = .header → result = sizeofSize))
  | .childEnds | .readFails => inferInstanceAs (Decidable False)
  | .parentRead result => inferInstanceAs (Decidable (s.parent = .header → result = sizeofSize))
  | .malloc granted => inferInstanceAs (Decidable (granted = true))

/-! ## The invariant -/

/-- All that the child writes. -/
def stream (data : Payload) : List UInt8 := littleEndian sizeofSize data.bytes.length ++ data.bytes

/-- How much of it is written. -/
def Child.sent (data : Payload) : Child → Nat
  | .header => 0
  | .body written => sizeofSize + written
  | .exited => sizeofSize + data.bytes.length

/-- How much of it the parent has taken. -/
def Parent.taken : Parent → Nat
  | .header | .failed => 0
  | .allocate _ => sizeofSize
  | .body _ readData | .received readData => sizeofSize + readData.length

/-- The child is in its loop only while bytes are left. -/
def ChildHas (data : Payload) : Child → Prop
  | .body written => written < data.bytes.length
  | _ => True

/-- The parent knows the size and has the first of the bytes, and it is in its loop only while
bytes are missing. -/
def ParentHas (data : Payload) (reads : Nat) : Parent → Prop
  | .header => reads = 0
  | .allocate dataSize => reads = 1 ∧ dataSize = data.bytes.length
  | .body dataSize readData =>
      reads ≤ readData.length + 1 ∧ dataSize = data.bytes.length ∧
        readData.length < data.bytes.length ∧ readData = data.bytes.take readData.length
  | .received readData => reads ≤ data.bytes.length + 1 ∧ readData = data.bytes
  | .failed => False

/-- What holds while nothing is disturbed: the pipe has what is written and not yet taken. -/
structure Flowing (data : Payload) (s : Piped) : Prop where
  child : ChildHas data s.child
  parent : ParentHas data s.reads s.parent
  taken_le : s.parent.taken ≤ s.child.sent data
  pipe : s.pipe = ((stream data).take (s.child.sent data)).drop s.parent.taken

section Steps

variable {data : Payload} {s s' : Piped}

theorem length_stream (data : Payload) :
    (stream data).length = sizeofSize + data.bytes.length := by
  rw [stream, List.length_append, length_littleEndian]

theorem sent_le {child : Child} (h : ChildHas data child) :
    child.sent data ≤ sizeofSize + data.bytes.length := by
  cases child with
  | header => exact Nat.zero_le _
  | body written => exact Nat.add_le_add_left (Nat.le_of_lt h) _
  | exited => exact Nat.le_refl _

theorem sent_childLoop {written : Nat} (h : written ≤ data.bytes.length) :
    (childLoop data.bytes.length written).sent data = sizeofSize + written ∧
      ChildHas data (childLoop data.bytes.length written) := by
  rw [childLoop]
  by_cases hlt : written < data.bytes.length
  · rw [if_pos hlt]
    exact ⟨rfl, hlt⟩
  · rw [if_neg hlt, Nat.le_antisymm h (Nat.le_of_not_lt hlt)]
    exact ⟨rfl, trivial⟩

/-- The parent's loop with the first of the bytes. -/
theorem parentHas_loop {reads count : Nat} (hreads : reads ≤ count + 1)
    (hcount : count ≤ data.bytes.length) :
    ParentHas data reads (parentLoop data.bytes.length (data.bytes.take count)) ∧
      (parentLoop data.bytes.length (data.bytes.take count)).taken = sizeofSize + count := by
  have hlen : (data.bytes.take count).length = count := List.length_take_of_le hcount
  rw [parentLoop, hlen]
  by_cases hlt : count < data.bytes.length
  · rw [if_pos hlt]
    exact ⟨⟨by rwa [hlen], rfl, by rwa [hlen], by rw [hlen]⟩, by rw [Parent.taken, hlen]⟩
  · have hfull : data.bytes.take count = data.bytes := List.take_of_length_le (Nat.le_of_not_lt hlt)
    rw [if_neg hlt]
    exact ⟨⟨by omega, hfull⟩, by rw [Parent.taken, hlen]⟩

theorem Flowing.length_pipe (h : Flowing data s) :
    s.pipe.length = s.child.sent data - s.parent.taken := by
  rw [h.pipe, List.length_drop, List.length_take_of_le]
  rw [length_stream]
  exact sent_le h.child

/-- The front of the pipe is the next part of the stream. -/
theorem Flowing.take_pipe (h : Flowing data s) {count : Nat} (hcount : count ≤ s.pipe.length) :
    s.pipe.take count = ((stream data).drop s.parent.taken).take count := by
  rw [h.length_pipe] at hcount
  rw [h.pipe, List.drop_take, List.take_take, Nat.min_eq_left hcount]

theorem drop_stream (data : Payload) (count : Nat) :
    (stream data).drop (sizeofSize + count) = data.bytes.drop count := by
  rw [stream, ← List.drop_drop, List.drop_left' (length_littleEndian _ _)]

theorem take_stream (data : Payload) :
    (stream data).take sizeofSize = littleEndian sizeofSize data.bytes.length :=
  List.take_left' (length_littleEndian _ _)

/-- A piece that the child writes next goes behind what is in the pipe. -/
theorem Flowing.write (h : Flowing data s) {count : Nat} {child : Child}
    (hsent : child.sent data = s.child.sent data + count) (hchild : ChildHas data child) :
    Flowing data { s with
      pipe := s.pipe ++ ((stream data).drop (s.child.sent data)).take count
      child } where
  child := hchild
  parent := h.parent
  taken_le := by
    change s.parent.taken ≤ child.sent data
    rw [hsent]
    exact Nat.le_trans h.taken_le (Nat.le_add_right _ _)
  pipe := by
    change s.pipe ++ _ = ((stream data).take (child.sent data)).drop s.parent.taken
    have hlen : ((stream data).take (s.child.sent data)).length = s.child.sent data :=
      List.length_take_of_le (by rw [length_stream]; exact sent_le h.child)
    rw [hsent, List.take_add, List.drop_append_of_le_length (by rw [hlen]; exact h.taken_le),
      ← h.pipe]

/-- A read takes the front of the pipe. -/
theorem Flowing.read (h : Flowing data s) {count reads : Nat} {parent : Parent}
    (hcount : count ≤ s.pipe.length) (htaken : parent.taken = s.parent.taken + count)
    (hparent : ParentHas data reads parent) :
    Flowing data { s with pipe := s.pipe.drop count, parent, reads } where
  child := h.child
  parent := hparent
  taken_le := by
    change parent.taken ≤ s.child.sent data
    rw [h.length_pipe] at hcount
    have := h.taken_le
    omega
  pipe := by
    change s.pipe.drop count = ((stream data).take (s.child.sent data)).drop parent.taken
    rw [htaken, ← List.drop_drop, ← h.pipe]

/-- While nothing is disturbed, the pipe of a parent in its loop runs dry only before the child
has ended. -/
theorem Flowing.not_spins (h : Flowing data s) : ¬ Spins s := by
  rintro ⟨dataSize, readData, hparent, hpipe, hchild⟩
  have hlen := h.length_pipe
  have hhas := h.parent
  rw [hparent] at hlen hhas
  rw [hpipe, hchild] at hlen
  simp only [List.length_nil, Child.sent, Parent.taken] at hlen
  have := hhas.2.2.1
  omega

theorem readPipe_eq_some {count result : Nat} {bytes : List UInt8} (hpipe : s.pipe ≠ [])
    (h : readPipe s count result = some bytes) :
    1 ≤ result ∧ result ≤ count ∧ result ≤ s.pipe.length ∧ bytes = s.pipe.take result := by
  rw [readPipe, if_neg hpipe] at h
  split at h
  · next hrange => exact ⟨hrange.1, hrange.2.1, hrange.2.2, (Option.some.inj h).symm⟩
  · cases h

/-- An undisturbed step keeps the invariant. -/
theorem Flowing.step {event : PipeEvent} (h : Flowing data s) (hevent : Undisturbed s event)
    (hstep : pipeStep data s event = some s') : Flowing data s' := by
  cases event with
  | childEnds => exact absurd hevent id
  | readFails => exact absurd hevent id
  | childWrite result =>
      rw [pipeStep] at hstep
      cases hchild : s.child with
      | header =>
          obtain rfl := hevent hchild
          simp only [hchild] at hstep
          rw [if_pos ⟨by decide, Nat.le_refl _⟩] at hstep
          obtain rfl := Option.some.inj hstep
          obtain ⟨hsent, hhas⟩ := @sent_childLoop data _ (Nat.zero_le _)
          have hnext := @Flowing.write _ _ h sizeofSize _ (by rw [hsent, hchild]; rfl) hhas
          rw [hchild, Child.sent, List.drop_zero, take_stream] at hnext
          rwa [List.take_of_length_le (Nat.le_of_eq (length_littleEndian _ _))]
      | body written =>
          simp only [hchild] at hstep
          split at hstep
          · next hrange =>
              obtain rfl := Option.some.inj hstep
              obtain ⟨hsent, hhas⟩ := sent_childLoop hrange.2
              have hnext := @Flowing.write _ _ h result _
                (by rw [hsent, hchild, Child.sent, Nat.add_assoc]) hhas
              rwa [hchild, Child.sent, drop_stream] at hnext
          · cases hstep
      | exited => simp [hchild] at hstep
  | parentRead result =>
      rw [pipeStep] at hstep
      cases hparent : s.parent with
      | header =>
          obtain rfl := hevent hparent
          simp only [hparent] at hstep
          obtain ⟨bytes, hread, rfl⟩ := Option.map_eq_some_iff.mp hstep
          have hpipe : s.pipe ≠ [] := by
            intro hnil
            rw [readPipe, if_pos hnil] at hread
            split at hread
            · next hzero => exact absurd hzero.2 (by decide)
            · cases hread
          obtain ⟨-, -, hle, rfl⟩ := readPipe_eq_some hpipe hread
          have hhas := h.parent
          rw [hparent] at hhas
          rw [h.take_pipe hle, hparent, Parent.taken, List.drop_zero, take_stream,
            ofLittleEndian_of_lt data.fits]
          refine h.read hle (by rw [hparent]; rfl) ⟨?_, rfl⟩
          rw [show s.reads = 0 from hhas]
      | body dataSize readData =>
          simp only [hparent] at hstep
          obtain ⟨bytes, hread, rfl⟩ := Option.map_eq_some_iff.mp hstep
          have hpipe : s.pipe ≠ [] := by
            intro hnil
            rw [readPipe, if_pos hnil] at hread
            split at hread
            · next hexited => exact h.not_spins ⟨dataSize, readData, hparent, hnil, hexited.1⟩
            · cases hread
          obtain ⟨hone, hcount, hle, rfl⟩ := readPipe_eq_some hpipe hread
          have hhas := h.parent
          rw [hparent] at hhas
          obtain ⟨hreads, rfl, hlt, htake⟩ := hhas
          have hbytes : readData ++ s.pipe.take result =
              data.bytes.take (readData.length + result) := by
            rw [h.take_pipe hle, hparent, Parent.taken, drop_stream, List.take_add, ← htake]
          rw [hbytes]
          obtain ⟨hloop, htaken⟩ := @parentHas_loop data (s.reads + 1) (readData.length + result)
            (by omega) (by omega)
          exact h.read hle (by rw [htaken, hparent, Parent.taken, Nat.add_assoc]) hloop
      | allocate dataSize | received readData | failed => simp [hparent] at hstep
  | malloc granted =>
      obtain rfl : granted = true := hevent
      rw [pipeStep] at hstep
      cases hparent : s.parent with
      | allocate dataSize =>
          simp only [hparent] at hstep
          obtain rfl := Option.some.inj hstep
          have hhas := h.parent
          rw [hparent] at hhas
          obtain ⟨hreads, rfl⟩ := hhas
          obtain ⟨hloop, htaken⟩ := @parentHas_loop data s.reads 0 (by omega) (Nat.zero_le _)
          exact @Flowing.read _ _ h 0 _ _ (Nat.zero_le _) (by rw [hparent]; exact htaken) hloop
      | header | body dataSize readData | received readData | failed => simp [hparent] at hstep

end Steps

/-! ## Runs -/

theorem flowing_forked (data : Payload) : Flowing data forked :=
  ⟨trivial, rfl, Nat.le_refl _, rfl⟩

/-- While nothing is disturbed, one of the processes can take a step until the parent is
through. -/
theorem Flowing.enabled {data : Payload} {s : Piped} (h : Flowing data s) :
    ParentEnded s ∨ ∃ event s', pipeStep data s event = some s' := by
  have hwrite : s.child ≠ .exited → ∃ event s', pipeStep data s event = some s' := by
    intro hchild
    have hhas := h.child
    cases hc : s.child with
    | header =>
        refine ⟨.childWrite 1, ?_⟩
        rw [pipeStep]
        simp only [hc]
        exact ⟨_, if_pos (by decide)⟩
    | body written =>
        rw [hc] at hhas
        refine ⟨.childWrite 1, ?_⟩
        rw [pipeStep]
        simp only [hc]
        exact ⟨_, if_pos ⟨Nat.le_refl _, hhas⟩⟩
    | exited => exact absurd hc hchild
  have hread (count : Nat) (hcount : 0 < count) (hpipe : s.pipe ≠ []) :
      readPipe s count 1 = some (s.pipe.take 1) := by
    rw [readPipe, if_neg hpipe, if_pos ⟨Nat.le_refl _, hcount, List.length_pos_iff.mpr hpipe⟩]
  cases hparent : s.parent with
  | header =>
      refine Or.inr ?_
      by_cases hpipe : s.pipe = []
      · apply hwrite
        intro hexited
        have hlen := h.length_pipe
        rw [hpipe, hexited, hparent] at hlen
        simp only [List.length_nil, Child.sent, Parent.taken, sizeofSize] at hlen
        omega
      · refine ⟨.parentRead 1, ?_⟩
        rw [pipeStep]
        simp only [hparent, hread sizeofSize (by decide) hpipe, Option.map_some]
        exact ⟨_, rfl⟩
  | allocate dataSize =>
      refine Or.inr ⟨.malloc true, ?_⟩
      rw [pipeStep]
      simp only [hparent]
      exact ⟨_, rfl⟩
  | body dataSize readData =>
      refine Or.inr ?_
      by_cases hpipe : s.pipe = []
      · exact hwrite fun hexited => h.not_spins ⟨dataSize, readData, hparent, hpipe, hexited⟩
      · have hhas := h.parent
        rw [hparent] at hhas
        refine ⟨.parentRead 1, ?_⟩
        rw [pipeStep]
        simp only [hparent, hread (dataSize - readData.length)
          (by have := hhas.2.1; have := hhas.2.2.1; omega) hpipe, Option.map_some]
        exact ⟨_, rfl⟩
  | received readData => exact Or.inl (Or.inr ⟨readData, hparent⟩)
  | failed => exact Or.inl (Or.inl hparent)

theorem Flowing.robust {data : Payload} {s : Piped} (h : Flowing data s) : Robust data s where
  bounded := by
    have hhas := h.parent
    cases hparent : s.parent <;> rw [hparent] at hhas
    case header => exact hhas.trans_le (Nat.zero_le _)
    case allocate dataSize => exact hhas.1.trans_le (Nat.le_add_left _ _)
    case body dataSize readData => exact Nat.le_trans hhas.1 (Nat.le_of_lt (Nat.succ_lt_succ hhas.2.2.1))
    case received readData => exact hhas.1
    case failed => exact absurd hhas id
  advances := ⟨h.not_spins, h.enabled⟩
  whole := by
    intro readData hparent
    have hhas := h.parent
    rw [hparent] at hhas
    exact hhas.2
  answered := by
    intro hparent
    have hhas := h.parent
    rw [hparent] at hhas
    exact hhas

end XHDF5.Plugin
