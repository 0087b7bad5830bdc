/-
# The three reads of the plugin

`ProcessReq` forks for every GET of a dataset. The information of a dataset comes back through
shared memory, a whole value through a pointer in a pipe, and a selection through the pipe itself.
The steps of both processes may come in any order, every system call may fail, and the child may
die at any point.
-/

import XHDF5.Plugin.Pipe
import XHDF5.Math.Token

namespace XHDF5.Plugin

open XHDF5.Math

/-- A request to read: the file's path for the error texts, and the bytes that the child reads. -/
structure Job where
  filepath : Text
  data : Payload

/-- A complete response: which process sent it, its status, and its body before the content
encoding. -/
structure Sent where
  byParent : Bool
  status : Nat
  body : List UInt8
deriving DecidableEq

/-- The bytes of a text. -/
def ascii (text : Text) : List UInt8 := text.map fun c => UInt8.ofNat c.toNat

/-- A step of one of the processes: its next system call with its success, the end of the child,
a step of the pipe protocol, the compression with its result if it has one, or a response whose
body is whatever a pointer of the other process, or an uninitialised one, leads to. -/
inductive ForkEvent
  | parentCall (succeeds : Bool)
  | childCall (succeeds : Bool)
  | childDies
  | transfer (event : PipeEvent)
  | encode (encoded : Option (List UInt8))
  | childSends (body : List UInt8)
  | parentSends (body : List UInt8)

/-! ## The information of a dataset -/

/-- The child's calls: `ftruncate`, `mmap`, and the copies, byte by byte. -/
inductive InfoChild
  | unborn
  | truncate
  | map
  | copy (copied : Nat)
  | exited
deriving DecidableEq

/-- The parent's calls. -/
inductive InfoParent
  | shmOpen
  | fork
  | waitpid
  | mapSize
  | mapData (dataSize : Nat)
  | malloc (dataSize : Nat)
  | send (status : Nat) (body : List UInt8)
  | returned
  | crashed
deriving DecidableEq

/-- Both processes with the shared memory. -/
structure InfoState where
  child : InfoChild
  shm : List UInt8
  parent : InfoParent
  responses : List Sent

/-- A call of `SendSimpleResp` by the parent. -/
def sendSimpleResp (succeeds : Bool) (status : Nat) (body : List UInt8) (responses : List Sent) :
    List Sent :=
  if succeeds then responses ++ [⟨true, status, body⟩] else responses

/-- The parent's next call. A mapping that failed, or of an object without bytes, is used all the
same, and a length of zero makes `SendSimpleResp` look for the end of a text. -/
def infoParentStep (job : Job) (succeeds : Bool) (s : InfoState) : Option InfoState :=
  match s.parent with
  | .shmOpen =>
      some { s with
        parent := if succeeds then .fork
          else .send 400 (ascii (job.filepath ++ lit " shm_open errors!!!")) }
  | .fork =>
      some (if succeeds then { s with child := .truncate, parent := .waitpid }
        else { s with parent := .send 400 (ascii (job.filepath ++ lit "Fork errors!!!")) })
  | .waitpid =>
      if succeeds ∧ s.child ≠ .exited then none else some { s with parent := .mapSize }
  | .mapSize =>
      some { s with
        parent := if succeeds ∧ s.shm ≠ [] then
          .mapData (ofLittleEndian (s.shm.take sizeofSize)) else .crashed }
  | .mapData dataSize =>
      some { s with parent := if succeeds then .malloc dataSize else .crashed }
  | .malloc dataSize =>
      some { s with
        parent :=
          if dataSize = 0 then if succeeds then .crashed else .send 200 []
          else if succeeds then .send 200 ((s.shm.drop sizeofSize).take dataSize)
          else .crashed }
  | .send status body =>
      some { s with
        parent := .returned
        responses := sendSimpleResp succeeds status body s.responses }
  | .returned | .crashed => none

/-- The child's next call. -/
def infoChildStep (job : Job) (succeeds : Bool) (s : InfoState) : Option InfoState :=
  let size := sizeofSize + job.data.bytes.length
  match s.child with
  | .truncate =>
      some (if succeeds then { s with child := .map, shm := List.replicate size 0 }
        else { s with child := .exited })
  | .map => some { s with child := if succeeds then .copy 0 else .exited }
  | .copy copied =>
      some { s with
        shm := s.shm.set copied ((stream job.data).getD copied 0)
        child := if copied + 1 < size then .copy (copied + 1) else .exited }
  | .unborn | .exited => none

/-- One step. -/
def infoStep (job : Job) (s : InfoState) : ForkEvent → Option InfoState
  | .parentCall succeeds => infoParentStep job succeeds s
  | .childCall succeeds => infoChildStep job succeeds s
  | .childDies =>
      if s.child = .unborn ∨ s.child = .exited then none else some { s with child := .exited }
  | _ => none

/-! ## A whole value -/

/-- The child reads the dataset and then runs on into the code that answers. -/
inductive ValueChild
  | unborn
  | running
  | answered
  | exited
deriving DecidableEq

/-- The parent's calls. -/
inductive ValueParent
  | pipe
  | fork
  | wait
  | answer
  | send (status : Nat) (body : List UInt8)
  | returned
deriving DecidableEq

/-- Both processes. -/
structure ValueState where
  child : ValueChild
  parent : ValueParent
  responses : List Sent

/-- One step. Both processes answer: the child from a pointer that was never set, the parent from
a pointer into the child's memory. -/
def valueStep (job : Job) (s : ValueState) : ForkEvent → Option ValueState
  | .parentCall succeeds =>
      match s.parent with
      | .pipe =>
          some { s with
            parent := if succeeds then .fork
              else .send 400 (ascii (job.filepath ++ lit "subprocess create errors!!!")) }
      | .fork =>
          some (if succeeds then { s with child := .running, parent := .wait }
            else { s with parent := .send 400 (ascii (job.filepath ++ lit "Fork errors!!!")) })
      | .wait => if succeeds ∧ s.child ≠ .exited then none else some { s with parent := .answer }
      | .send status body =>
          some { s with
            parent := .returned
            responses := sendSimpleResp succeeds status body s.responses }
      | .answer | .returned => none
  | .childSends body =>
      if s.child = .running then
        some { s with child := .answered, responses := s.responses ++ [⟨false, 200, body⟩] }
      else none
  | .parentSends body =>
      if s.parent = .answer then
        some { s with parent := .returned, responses := s.responses ++ [⟨true, 200, body⟩] }
      else none
  | .childDies =>
      if s.child = .running ∨ s.child = .answered then some { s with child := .exited } else none
  | _ => none

/-! ## A selection -/

/-- The parent's calls; the protocol over the pipe holds the child as well. -/
inductive SelectionParent
  | pipe
  | fork
  | transfer (s : Piped)
  | encode (readData : List UInt8)
  | send (readData : List UInt8)
  | returned
  | crashed
deriving DecidableEq

/-- The protocol over the pipe, while it runs. -/
def SelectionParent.piped : SelectionParent → Option Piped
  | .transfer s => some s
  | _ => none

/-- Both processes. -/
structure SelectionState where
  parent : SelectionParent
  responses : List Sent

/-- One step. Most failures return without a response, and an empty result is sent as a text. -/
def selectionStep (job : Job) (s : SelectionState) : ForkEvent → Option SelectionState
  | .parentCall succeeds =>
      match s.parent with
      | .pipe => some { s with parent := if succeeds then .fork else .returned }
      | .fork => some { s with parent := if succeeds then .transfer forked else .returned }
      | .transfer piped =>
          match piped.parent with
          | .received readData =>
              if succeeds ∧ piped.child ≠ .exited then none
              else some { s with parent := .encode readData }
          | .failed => some { s with parent := .returned }
          | _ => none
      | .send readData =>
          some { parent := .returned
                 responses := sendSimpleResp succeeds 200 readData s.responses }
      | .encode _ | .returned | .crashed => none
  | .transfer event =>
      match s.parent with
      | .transfer piped =>
          (pipeStep job.data piped event).map fun piped => { s with parent := .transfer piped }
      | _ => none
  | .encode encoded =>
      match s.parent with
      | .encode readData =>
          some { s with
            parent := match encoded with
              | none => .returned
              | some [] => .crashed
              | some (_ :: _) => .send readData }
      | _ => none
  | _ => none

/-! ## All three -/

/-- The state of a read. -/
inductive Forking
  | info (s : InfoState)
  | value (s : ValueState)
  | selection (s : SelectionState)

/-- The reads, before their first system call. -/
def infoStart : Forking := .info ⟨.unborn, [], .shmOpen, []⟩

def valueStart : Forking := .value ⟨.unborn, .pipe, []⟩

def selectionStart : Forking := .selection ⟨.pipe, []⟩

/-- One step. -/
def forkStep (job : Job) (s : Forking) (event : ForkEvent) : Option Forking :=
  match s with
  | .info s => (infoStep job s event).map .info
  | .value s => (valueStep job s event).map .value
  | .selection s => (selectionStep job s event).map .selection

/-- The complete responses so far. -/
def Forking.responses : Forking → List Sent
  | .info s => s.responses
  | .value s => s.responses
  | .selection s => s.responses

/-- The parent has returned from `ProcessReq`. -/
def Forking.Returned : Forking → Prop
  | .info s => s.parent = .returned
  | .value s => s.parent = .returned
  | .selection s => s.parent = .returned

/-- The parent's next access is undefined, or its loop never ends. -/
def Forking.Broken : Forking → Prop
  | .info s => s.parent = .crashed
  | .value _ => False
  | .selection s => s.parent = .crashed ∨ ∃ piped, s.parent = .transfer piped ∧ Spins piped

/-- At most one response, by the parent; with the status 200 it has the bytes that the child read;
and the parent does not return without it. -/
structure OneResponse (job : Job) (s : Forking) : Prop where
  parent : ∀ sent ∈ s.responses, sent.byParent = true
  body : ∀ sent ∈ s.responses, sent.status = 200 → sent.body = job.data.bytes
  once : s.responses.length ≤ 1
  complete : s.Returned → s.responses.length = 1
  intact : ¬ s.Broken

/-- Where a step does no harm. For the information, `shm_open` and `fork` may fail; for a value
`fork` has to, unless `pipe` did; for a selection only `waitpid` may. -/
def Harmless (job : Job) : Forking → ForkEvent → Prop
  | .info s, .parentCall succeeds =>
      (succeeds = true ∨ s.parent = .shmOpen ∨ s.parent = .fork) ∧ job.data.bytes ≠ []
  | .info _, .childCall succeeds => succeeds = true
  | .info _, .childDies => False
  | .value s, .parentCall succeeds =>
      (s.parent = .fork → succeeds = false) ∧ (s.parent ≠ .pipe → s.parent ≠ .fork →
        succeeds = true)
  | .selection s, .parentCall succeeds =>
      succeeds = true ∨ s.parent.piped ≠ none
  | .selection s, .transfer event => ∀ piped ∈ s.parent.piped, Undisturbed piped event
  | .selection _, .encode encoded => encoded ≠ none ∧ encoded ≠ some []
  | _, _ => True

instance (job : Job) (s : Forking) (event : ForkEvent) : Decidable (Harmless job s event) := by
  cases s <;> cases event <;> unfold Harmless <;> infer_instance

/-! ## The invariants -/

section Invariants

variable {job : Job}

/-- With the status 200 the body has the child's bytes. -/
def Answer (job : Job) (status : Nat) (body : List UInt8) : Prop :=
  status = 200 → body = job.data.bytes

/-- The parent has sent its one response. -/
def Answered (job : Job) (responses : List Sent) : Prop :=
  ∃ status body, responses = [⟨true, status, body⟩] ∧ Answer job status body

/-- How much of the size and the bytes is in the shared memory. -/
def ShmHas (data : Payload) : InfoChild → List UInt8 → Prop
  | .unborn, _ | .truncate, _ => True
  | .map, shm => shm = List.replicate (sizeofSize + data.bytes.length) 0
  | .copy copied, shm =>
      copied < sizeofSize + data.bytes.length ∧ shm.length = sizeofSize + data.bytes.length ∧
        shm.take copied = (stream data).take copied
  | .exited, shm => shm = stream data

/-- Where the parent of a query is. -/
def InfoParentHas (job : Job) (child : InfoChild) (responses : List Sent) : InfoParent → Prop
  | .shmOpen | .fork => child = .unborn ∧ responses = []
  | .waitpid => responses = []
  | .mapSize => child = .exited ∧ responses = []
  | .mapData dataSize | .malloc dataSize =>
      child = .exited ∧ dataSize = job.data.bytes.length ∧ responses = []
  | .send status body => responses = [] ∧ Answer job status body
  | .returned => Answered job responses
  | .crashed => False

/-- The invariant of a read. -/
def ForkHas (job : Job) : Forking → Prop
  | .info s => ShmHas job.data s.child s.shm ∧ InfoParentHas job s.child s.responses s.parent
  | .value s =>
      s.child = .unborn ∧
        match s.parent with
        | .pipe | .fork => s.responses = []
        | .wait | .answer => False
        | .send status body => s.responses = [] ∧ Answer job status body
        | .returned => Answered job s.responses
  | .selection s =>
      match s.parent with
      | .pipe | .fork => s.responses = []
      | .transfer piped => s.responses = [] ∧ Flowing job.data piped
      | .encode readData | .send readData => s.responses = [] ∧ readData = job.data.bytes
      | .returned => Answered job s.responses
      | .crashed => False

theorem answer_refused (body : List UInt8) : Answer job 400 body := by
  intro h
  cases h

theorem Answered.once {responses : List Sent} (h : Answered job responses) :
    (∀ sent ∈ responses, sent.byParent = true) ∧
      (∀ sent ∈ responses, sent.status = 200 → sent.body = job.data.bytes) ∧
        responses.length = 1 := by
  obtain ⟨status, body, rfl, hanswer⟩ := h
  exact ⟨List.forall_mem_singleton.mpr rfl, List.forall_mem_singleton.mpr hanswer, rfl⟩

theorem sendSimpleResp_answered {responses : List Sent} {status : Nat} {body : List UInt8}
    (hnone : responses = []) (hanswer : Answer job status body) :
    Answered job (sendSimpleResp true status body responses) := by
  rw [hnone]
  exact ⟨status, body, rfl, hanswer⟩

/-- The copy of one more byte. -/
theorem take_set_succ {bytes shm : List UInt8} {copied : Nat} (hlen : shm.length = bytes.length)
    (hcopied : copied < bytes.length) (h : shm.take copied = bytes.take copied) :
    (shm.set copied (bytes.getD copied 0)).take (copied + 1) = bytes.take (copied + 1) := by
  have hget : bytes.getD copied 0 = bytes[copied] := by
    rw [List.getD_eq_getElem?_getD, List.getElem?_eq_getElem hcopied, Option.getD_some]
  rw [hget, List.take_add_one, List.take_add_one, List.take_set_of_le (Nat.le_refl _), h,
    List.getElem?_set_self (by omega), List.getElem?_eq_getElem hcopied]

theorem shmHas_childStep {succeeds : Bool} {s s' : InfoState}
    (h : ShmHas job.data s.child s.shm) (hsucceeds : succeeds = true)
    (hstep : infoChildStep job succeeds s = some s') :
    ShmHas job.data s'.child s'.shm ∧ s'.parent = s.parent ∧ s'.responses = s.responses ∧
      s.child ≠ .unborn ∧ s.child ≠ .exited := by
  subst hsucceeds
  have hlen := length_stream job.data
  simp only [infoChildStep, if_true] at hstep
  cases hchild : s.child <;> rw [hchild] at hstep h
  case unborn => cases hstep
  case exited => cases hstep
  case truncate =>
    obtain rfl := Option.some.inj hstep
    exact ⟨rfl, rfl, rfl, nofun, nofun⟩
  case map =>
    obtain rfl := Option.some.inj hstep
    refine ⟨⟨Nat.add_pos_left (by decide) _, ?_, rfl⟩, rfl, rfl, nofun, nofun⟩
    exact (congrArg List.length h).trans List.length_replicate
  case copy copied =>
    obtain rfl := Option.some.inj hstep
    refine ⟨?_, rfl, rfl, nofun, nofun⟩
    obtain ⟨hcopied, hshm, htake⟩ := h
    have hnext := take_set_succ (hshm.trans hlen.symm) (by rwa [hlen]) htake
    by_cases hlast : copied + 1 < sizeofSize + job.data.bytes.length
    · rw [if_pos hlast]
      exact ⟨hlast, by rw [List.length_set, hshm], hnext⟩
    · rw [if_neg hlast]
      rw [List.take_of_length_le (by rw [List.length_set]; omega),
        List.take_of_length_le (by omega)] at hnext
      exact hnext

/-- The parent of a query, whose calls succeed. -/
theorem forkHas_infoParentStep {succeeds : Bool} {s s' : InfoState}
    (h : ForkHas job (.info s)) (hharmless : Harmless job (.info s) (.parentCall succeeds))
    (hstep : infoParentStep job succeeds s = some s') : ForkHas job (.info s') := by
  obtain ⟨hshm, hparent⟩ := h
  obtain ⟨hsucceeds, hdata⟩ := hharmless
  rw [infoParentStep] at hstep
  cases hp : s.parent <;> simp only [hp] at hstep hparent hsucceeds
  case shmOpen =>
    obtain rfl := Option.some.inj hstep
    refine ⟨hshm, ?_⟩
    cases succeeds with
    | true => exact hparent
    | false => exact ⟨hparent.2, answer_refused _⟩
  case fork =>
    obtain rfl := Option.some.inj hstep
    cases succeeds with
    | true => exact ⟨trivial, hparent.2⟩
    | false => exact ⟨hshm, hparent.2, answer_refused _⟩
  all_goals obtain rfl : succeeds = true := by simpa using hsucceeds
  case waitpid =>
    split at hstep
    · cases hstep
    · next hexited =>
        obtain rfl := Option.some.inj hstep
        exact ⟨hshm, not_not.mp fun hne => hexited ⟨rfl, hne⟩, hparent⟩
  case mapSize =>
    obtain rfl := Option.some.inj hstep
    obtain ⟨hexited, hnone⟩ := hparent
    have hstream : s.shm = stream job.data := by
      rw [hexited] at hshm
      exact hshm
    have hne : s.shm ≠ [] := by
      rw [hstream]
      exact List.ne_nil_of_length_pos (by rw [length_stream]; exact Nat.add_pos_left (by decide) _)
    refine ⟨hshm, ?_⟩
    rw [if_pos ⟨rfl, hne⟩, hstream, take_stream, ofLittleEndian_of_lt job.data.fits]
    exact ⟨hexited, rfl, hnone⟩
  case mapData dataSize =>
    obtain rfl := Option.some.inj hstep
    exact ⟨hshm, hparent⟩
  case malloc dataSize =>
    obtain rfl := Option.some.inj hstep
    obtain ⟨hexited, rfl, hnone⟩ := hparent
    have hstream : s.shm = stream job.data := by
      rw [hexited] at hshm
      exact hshm
    refine ⟨hshm, ?_⟩
    rw [if_neg (by simpa using hdata), if_pos rfl, hstream]
    refine ⟨hnone, fun _ => ?_⟩
    have hdrop := drop_stream job.data 0
    rw [Nat.add_zero, List.drop_zero] at hdrop
    rw [hdrop, List.take_length]
  case send status body =>
    obtain rfl := Option.some.inj hstep
    exact ⟨hshm, sendSimpleResp_answered hparent.1 hparent.2⟩
  case returned => cases hstep
  case crashed => cases hstep

theorem forkHas_info {s s' : InfoState} {event : ForkEvent} (h : ForkHas job (.info s))
    (hharmless : Harmless job (.info s) event) (hstep : infoStep job s event = some s') :
    ForkHas job (.info s') := by
  cases event with
  | parentCall succeeds => exact forkHas_infoParentStep h hharmless hstep
  | childCall succeeds =>
      obtain ⟨hshm, hparent, hresponses, hunborn, hexited⟩ :=
        shmHas_childStep h.1 hharmless hstep
      refine ⟨hshm, ?_⟩
      have hhas := h.2
      rw [hparent, hresponses]
      cases hp : s.parent <;> rw [hp] at hhas
      case shmOpen | fork => exact absurd hhas.1 hunborn
      case mapSize | mapData dataSize | malloc dataSize => exact absurd hhas.1 hexited
      all_goals exact hhas
  | childDies => exact absurd hharmless id
  | transfer | encode | childSends | parentSends => cases hstep

theorem forkHas_value {s s' : ValueState} {event : ForkEvent} (h : ForkHas job (.value s))
    (hharmless : Harmless job (.value s) event) (hstep : valueStep job s event = some s') :
    ForkHas job (.value s') := by
  obtain ⟨hchild, hparent⟩ := h
  cases event with
  | parentCall succeeds =>
      obtain ⟨hfork, hrest⟩ := hharmless
      rw [valueStep] at hstep
      cases hp : s.parent <;> simp only [hp] at hstep hparent hfork hrest
      case pipe =>
        obtain rfl := Option.some.inj hstep
        refine ⟨hchild, ?_⟩
        cases succeeds with
        | true => exact hparent
        | false => exact ⟨hparent, answer_refused _⟩
      case fork =>
        obtain rfl := hfork trivial
        obtain rfl := Option.some.inj hstep
        exact ⟨hchild, hparent, answer_refused _⟩
      case send status body =>
        obtain rfl := hrest nofun nofun
        obtain rfl := Option.some.inj hstep
        exact ⟨hchild, sendSimpleResp_answered hparent.1 hparent.2⟩
      case returned => cases hstep
  | childSends body =>
      rw [valueStep, hchild] at hstep
      cases hstep
  | parentSends body =>
      rw [valueStep] at hstep
      split at hstep
      · next hanswer =>
          rw [hanswer] at hparent
          exact absurd hparent id
      · cases hstep
  | childDies =>
      rw [valueStep, hchild] at hstep
      cases hstep
  | childCall | transfer | encode => cases hstep

theorem forkHas_selection {s s' : SelectionState} {event : ForkEvent}
    (h : ForkHas job (.selection s)) (hharmless : Harmless job (.selection s) event)
    (hstep : selectionStep job s event = some s') : ForkHas job (.selection s') := by
  simp only [ForkHas] at h
  cases event with
  | parentCall succeeds =>
      rw [selectionStep] at hstep
      cases hp : s.parent <;> simp only [hp] at hstep h
      case transfer piped =>
        have hhas := h.2.parent
        cases hpiped : piped.parent <;> simp only [hpiped] at hstep hhas
        case received readData =>
          split at hstep
          · cases hstep
          · obtain rfl := Option.some.inj hstep
            exact ⟨h.1, hhas.2⟩
        case failed => exact absurd hhas id
        all_goals cases hstep
      case encode readData => cases hstep
      case returned => cases hstep
      all_goals
        obtain rfl : succeeds = true := by
          rcases hharmless with hsucceeds | hpiped
          · exact hsucceeds
          · rw [hp] at hpiped
            exact absurd rfl hpiped
        obtain rfl := Option.some.inj hstep
      case pipe => exact h
      case fork => exact ⟨h, flowing_forked job.data⟩
      case send readData =>
        exact sendSimpleResp_answered h.1 fun _ => h.2
  | transfer event =>
      rw [selectionStep] at hstep
      cases hp : s.parent <;> simp only [hp] at hstep h
      case transfer piped =>
        obtain ⟨piped', hpiped', rfl⟩ := Option.map_eq_some_iff.mp hstep
        exact ⟨h.1, h.2.step (hharmless piped (by rw [hp]; rfl)) hpiped'⟩
      all_goals cases hstep
  | encode encoded =>
      rw [selectionStep] at hstep
      cases hp : s.parent <;> simp only [hp] at hstep h
      case encode readData =>
        obtain rfl := Option.some.inj hstep
        cases encoded with
        | none => exact absurd rfl hharmless.1
        | some encoded =>
            cases encoded with
            | nil => exact absurd rfl hharmless.2
            | cons byte encoded => exact h
      all_goals cases hstep
  | childCall | childDies | childSends | parentSends => cases hstep

/-- A harmless step keeps the invariant. -/
theorem forkHas_step {s s' : Forking} {event : ForkEvent} (h : ForkHas job s)
    (hharmless : Harmless job s event) (hstep : forkStep job s event = some s') :
    ForkHas job s' := by
  cases s with
  | info s =>
      obtain ⟨next, hnext, rfl⟩ := Option.map_eq_some_iff.mp hstep
      exact forkHas_info h hharmless hnext
  | value s =>
      obtain ⟨next, hnext, rfl⟩ := Option.map_eq_some_iff.mp hstep
      exact forkHas_value h hharmless hnext
  | selection s =>
      obtain ⟨next, hnext, rfl⟩ := Option.map_eq_some_iff.mp hstep
      exact forkHas_selection h hharmless hnext

end Invariants

/-! ## Runs -/

/-- The invariant gives the one response. -/
theorem ForkHas.oneResponse {job : Job} {s : Forking} (h : ForkHas job s) : OneResponse job s := by
  have hnone (hresponses : s.responses = []) (hreturned : ¬ s.Returned) (hbroken : ¬ s.Broken) :
      OneResponse job s := by
    refine ⟨?_, ?_, ?_, fun hr => absurd hr hreturned, hbroken⟩ <;> simp [hresponses]
  have hone (hresponses : Answered job s.responses) (hbroken : ¬ s.Broken) :
      OneResponse job s :=
    ⟨hresponses.once.1, hresponses.once.2.1, Nat.le_of_eq hresponses.once.2.2,
      fun _ => hresponses.once.2.2, hbroken⟩
  cases s with
  | info s =>
      obtain ⟨-, hparent⟩ := h
      have hcrashed : s.parent = .crashed → ¬ InfoParentHas job s.child s.responses s.parent :=
        fun hp hhas => by rwa [hp] at hhas
      have hbroken : ¬ (Forking.info s).Broken := fun hp => hcrashed hp hparent
      cases hp : s.parent <;> rw [hp] at hparent
      case returned => exact hone hparent hbroken
      case crashed => exact absurd hparent id
      all_goals
        refine hnone ?_ (fun hreturned => by rw [Forking.Returned, hp] at hreturned; cases hreturned)
          hbroken
      case shmOpen | fork | mapSize => exact hparent.2
      case waitpid => exact hparent
      case mapData dataSize | malloc dataSize => exact hparent.2.2
      case send status body => exact hparent.1
  | value s =>
      obtain ⟨-, hparent⟩ := h
      cases hp : s.parent <;> simp only [hp] at hparent
      case returned => exact hone hparent id
      all_goals
        refine hnone ?_ (fun hreturned => by rw [Forking.Returned, hp] at hreturned; cases hreturned)
          id
      case send status body => exact hparent.1
      all_goals exact hparent
  | selection s =>
      simp only [ForkHas] at h
      have hbroken : ¬ (Forking.selection s).Broken := by
        rintro (hp | ⟨piped, hp, hspins⟩) <;> simp only [hp] at h
        exact h.2.not_spins hspins
      cases hp : s.parent <;> simp only [hp] at h
      case returned => exact hone h hbroken
      all_goals
        refine hnone ?_ (fun hreturned => by rw [Forking.Returned, hp] at hreturned; cases hreturned)
          hbroken
      case pipe | fork => exact h
      all_goals exact h.1

theorem forkHas_start (job : Job) :
    ∀ start ∈ [infoStart, valueStart, selectionStart], ForkHas job start := by
  intro start hstart
  simp only [List.mem_cons, List.not_mem_nil, or_false] at hstart
  rcases hstart with rfl | rfl | rfl
  · exact ⟨trivial, rfl, rfl⟩
  · exact ⟨rfl, rfl⟩
  · rfl

end XHDF5.Plugin
