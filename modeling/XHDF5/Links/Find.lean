/-
# Finding an object by its path

`RV_find_object_by_path` on a server that does not traverse symbolic links. An object of known type
takes one request. For an object of unknown type the group of its last link is looked up first, then
the link itself, and a further call finds what the link leads to; each of these calls invokes the
callback of the caller on what was found.
-/

import XHDF5.Exchange.Address
import XHDF5.Links.Server

namespace XHDF5.Links

open XHDF5.Math XHDF5.Client

/-! ## The code -/

/-- What a lookup found, with the responses that the callback was invoked on. A lookup that fails is
one that found nothing. -/
structure LookupResult where
  found : Option ObjectRef
  calls : List ObjectRef
deriving DecidableEq

/-- A lookup that failed before the callback. -/
def LookupResult.failed : LookupResult := ⟨none, []⟩

/-- The callback is invoked on what was found. -/
def LookupResult.callback (r : LookupResult) : LookupResult :=
  { r with calls := r.calls ++ r.found.toList }

/-- The type that is asked for: the one of the parent for `.`, a group for `/`. -/
def requestedType (parent : LocObject) (objPath : Text) (target : Option ObjType) :
    Option ObjType :=
  let path := objPath.dropWhile (· == ' ')
  if path = ['.'] then some parent.type
  else if path = ['/'] then some .group
  else target

/-- `RV_find_object_by_path` for a server version before 0.8.0, with a bound on the depth of the
calls. -/
def rvFindObjectByPath (s : LinkServer) : Nat → LocObject → Text → Option ObjType →
    Option LookupResult
  | 0, _, _, _ => none
  | depth + 1, parent, objPath, target =>
      let (path, isRelative) := preparePath objPath
      match requestedType parent objPath target with
      | some type => some (LookupResult.callback ⟨s.request parent path isRelative type, []⟩)
      | none =>
          let dirname := h5RestDirname path
          (if dirname = [] then some (some parent.uri)
            else (rvFindObjectByPath s depth parent dirname (some .group)).map fun r =>
              r.found.map ObjectRef.uri).bind fun group =>
            match group.bind fun uri => s.getLink parent.domain uri (h5RestBasename path) with
            | none => some .failed
            | some (.hard uri) =>
                match (s.store parent.domain).bind fun d => d.objects uri with
                | none => some .failed
                | some type =>
                    (rvFindObjectByPath s depth parent path (some type)).map .callback
            | some (.soft value) =>
                (rvFindObjectByPath s depth parent value none).map .callback
            | some (.external file value) =>
                match s.store file with
                | none => some .failed
                | some d =>
                    (rvFindObjectByPath s depth ⟨file, d.root, .file, nofun⟩ value none).map
                      .callback

/-- What `RV_copy_object_loc_info_callback` leaves of a response: another domain replaces the one
that was there. -/
def rvCopyObjectLocInfoCallback (loc response : ObjectRef) : ObjectRef where
  domain := if response.domain = loc.domain then loc.domain else response.domain
  uri := response.uri

/-! ## What HDF5 finds -/

/-- The object that HDF5 reaches: an absolute path starts at the root group. -/
def LinkServer.Reaches (s : LinkServer) (parent : LocObject) (objPath : Text) (object : ObjectRef) :
    Prop :=
  ∃ d, s.store parent.domain = some d ∧
    Resolves s.graph ⟨parent.domain, if objPath.head? = some '/' then d.root else parent.uri⟩
      (components objPath) object

/-- A lookup ends; it finds the object that HDF5 reaches, with one call of the callback, and nothing
where HDF5 reaches nothing. -/
structure FollowsHdf5 (s : LinkServer) (parent : LocObject) (objPath : Text)
    (target : Option ObjType) : Prop where
  found : ∀ object, s.Reaches parent objPath object → ∃ depth result,
    rvFindObjectByPath s depth parent objPath target = some result ∧
      result.found = some object ∧ result.calls = [object] ∧
      ∀ loc, result.calls.foldl rvCopyObjectLocInfoCallback loc = object
  missed : (∀ object, ¬s.Reaches parent objPath object) → ∃ depth result,
    rvFindObjectByPath s depth parent objPath target = some result ∧
      result.found = none ∧ result.calls = []

/-! ## Lookups that end without an object -/

section DeadEnd

variable (s : LinkServer)

/-- The answer to the one request for an object of a given type. -/
def answerOf (parent : LocObject) (objPath : Text) (type : ObjType) : Option ObjectRef :=
  s.request parent (preparePath objPath).1 (preparePath objPath).2 type

/-- The answer for a path of an object whose type the caller knows. -/
def typedAnswer (parent : LocObject) (objPath : Text) (type : ObjType) : Option ObjectRef :=
  (requestedType parent objPath (some type)).bind (answerOf s parent objPath)

/-- The last link of a path, if its group is found over hard links. -/
def lastLink (parent : LocObject) (path : Text) : Option Link :=
  (if h5RestDirname path = [] then some parent.uri
    else (typedAnswer s parent (h5RestDirname path) .group).map ObjectRef.uri).bind fun uri =>
      s.getLink parent.domain uri (h5RestBasename path)

/-- A path to an object of unknown type is a dead end when its symbolic links, each read from the
parent object, end at a link, an object or a file that is not there. -/
inductive DeadEnd : LocObject → Text → Prop
  | object {parent : LocObject} {objPath : Text} {type : ObjType}
      (htype : requestedType parent objPath none = some type)
      (hnone : answerOf s parent objPath type = none) : DeadEnd parent objPath
  | link {parent : LocObject} {objPath : Text} (htype : requestedType parent objPath none = none)
      (hnone : lastLink s parent (preparePath objPath).1 = none) : DeadEnd parent objPath
  | hard {parent : LocObject} {objPath uri : Text}
      (htype : requestedType parent objPath none = none)
      (hlink : lastLink s parent (preparePath objPath).1 = some (.hard uri))
      (hnone : ∀ type, ((s.store parent.domain).bind fun d => d.objects uri) = some type →
        typedAnswer s parent (preparePath objPath).1 type = none) : DeadEnd parent objPath
  | soft {parent : LocObject} {objPath value : Text}
      (htype : requestedType parent objPath none = none)
      (hlink : lastLink s parent (preparePath objPath).1 = some (.soft value))
      (hrest : DeadEnd parent value) : DeadEnd parent objPath
  | noFile {parent : LocObject} {objPath file value : Text}
      (htype : requestedType parent objPath none = none)
      (hlink : lastLink s parent (preparePath objPath).1 = some (.external file value))
      (hnone : s.store file = none) : DeadEnd parent objPath
  | external {parent : LocObject} {objPath file value : Text} {d : Domain}
      (htype : requestedType parent objPath none = none)
      (hlink : lastLink s parent (preparePath objPath).1 = some (.external file value))
      (hstore : s.store file = some d) (hrest : DeadEnd ⟨file, d.root, .file, nofun⟩ value) :
      DeadEnd parent objPath

end DeadEnd

/-- The lookups that are right. With a known type, or for `.` and `/`, the one request reaches what
HDF5 reaches. With an unknown type there is nothing that HDF5 reaches, and the path is a dead
end. -/
def LookupRight (s : LinkServer) (parent : LocObject) (objPath : Text) (target : Option ObjType) :
    Prop :=
  match requestedType parent objPath target with
  | some type => ∀ object, answerOf s parent objPath type = some object ↔
      s.Reaches parent objPath object
  | none => (∀ object, ¬s.Reaches parent objPath object) ∧ DeadEnd s parent objPath

/-! ## One call -/

section Calls

variable {s : LinkServer} {depth : Nat} {parent : LocObject} {objPath : Text}

theorem requestedType_some (parent : LocObject) (objPath : Text) (type : ObjType) :
    ∃ asked, requestedType parent objPath (some type) = some asked := by
  simp only [requestedType]
  split_ifs
  · exact ⟨_, rfl⟩
  · exact ⟨_, rfl⟩
  · exact ⟨_, rfl⟩

/-- With a type to ask for there is one request. -/
theorem rvFindObjectByPath_typed {target : Option ObjType} {type : ObjType}
    (h : requestedType parent objPath target = some type) :
    rvFindObjectByPath s (depth + 1) parent objPath target =
      some (LookupResult.callback ⟨answerOf s parent objPath type, []⟩) := by
  rw [rvFindObjectByPath]
  simp only [h]
  rfl

theorem rvFindObjectByPath_some (type : ObjType) :
    rvFindObjectByPath s (depth + 1) parent objPath (some type) =
      some (LookupResult.callback ⟨typedAnswer s parent objPath type, []⟩) := by
  obtain ⟨asked, hasked⟩ := requestedType_some parent objPath type
  rw [rvFindObjectByPath_typed hasked, typedAnswer, hasked]
  rfl

/-- With no type to ask for the last link decides, once its group could be looked up. -/
theorem rvFindObjectByPath_untyped (h : requestedType parent objPath none = none)
    (hdepth : h5RestDirname (preparePath objPath).1 = [] ∨ 0 < depth) :
    rvFindObjectByPath s (depth + 1) parent objPath none =
      match lastLink s parent (preparePath objPath).1 with
      | none => some .failed
      | some (.hard uri) =>
          match (s.store parent.domain).bind fun d => d.objects uri with
          | none => some .failed
          | some type => (rvFindObjectByPath s depth parent (preparePath objPath).1
              (some type)).map .callback
      | some (.soft value) => (rvFindObjectByPath s depth parent value none).map .callback
      | some (.external file value) =>
          match s.store file with
          | none => some .failed
          | some d => (rvFindObjectByPath s depth ⟨file, d.root, .file, nofun⟩ value none).map
              .callback := by
  have hgroup : (if h5RestDirname (preparePath objPath).1 = [] then some (some parent.uri)
      else (rvFindObjectByPath s depth parent (h5RestDirname (preparePath objPath).1)
        (some .group)).map fun r => r.found.map ObjectRef.uri) =
      some (if h5RestDirname (preparePath objPath).1 = [] then some parent.uri
        else (typedAnswer s parent (h5RestDirname (preparePath objPath).1) .group).map
          ObjectRef.uri) := by
    split
    · rfl
    · next hdir =>
        obtain ⟨rest, rfl⟩ := Nat.exists_eq_succ_of_ne_zero (hdepth.resolve_left hdir).ne'
        rw [rvFindObjectByPath_some]
        rfl
  rw [rvFindObjectByPath]
  simp only [h, hgroup, Option.bind_some]
  rw [← lastLink]

/-- What a lookup with an unknown type did when it ended. -/
inductive Ended (s : LinkServer) (depth : Nat) (parent : LocObject) (objPath : Text) :
    LookupResult → Prop
  | noLink (hnone : lastLink s parent (preparePath objPath).1 = none) :
      Ended s depth parent objPath .failed
  | noObject {uri : Text}
      (hlink : lastLink s parent (preparePath objPath).1 = some (.hard uri))
      (hnone : ((s.store parent.domain).bind fun d => d.objects uri) = none) :
      Ended s depth parent objPath .failed
  | hard {uri : Text} {type : ObjType}
      (hlink : lastLink s parent (preparePath objPath).1 = some (.hard uri))
      (hobject : ((s.store parent.domain).bind fun d => d.objects uri) = some type) :
      Ended s depth parent objPath
        (LookupResult.callback (.callback ⟨typedAnswer s parent (preparePath objPath).1 type, []⟩))
  | soft {value : Text} {result : LookupResult}
      (hlink : lastLink s parent (preparePath objPath).1 = some (.soft value))
      (hrest : rvFindObjectByPath s depth parent value none = some result) :
      Ended s depth parent objPath result.callback
  | noFile {file value : Text}
      (hlink : lastLink s parent (preparePath objPath).1 = some (.external file value))
      (hnone : s.store file = none) : Ended s depth parent objPath .failed
  | external {file value : Text} {d : Domain} {result : LookupResult}
      (hlink : lastLink s parent (preparePath objPath).1 = some (.external file value))
      (hstore : s.store file = some d)
      (hrest : rvFindObjectByPath s depth ⟨file, d.root, .file, nofun⟩ value none = some result) :
      Ended s depth parent objPath result.callback

theorem rvFindObjectByPath_ended (h : requestedType parent objPath none = none)
    {result : LookupResult} (hresult : rvFindObjectByPath s depth parent objPath none = some result) :
    ∃ rest, depth = rest + 1 ∧ Ended s rest parent objPath result := by
  cases depth with
  | zero => cases hresult
  | succ depth =>
      refine ⟨depth, rfl, ?_⟩
      have hdepth : h5RestDirname (preparePath objPath).1 = [] ∨ 0 < depth := by
        by_contra hno
        obtain ⟨hdir, hzero⟩ := not_or.mp hno
        obtain rfl := Nat.eq_zero_of_not_pos hzero
        rw [rvFindObjectByPath] at hresult
        simp only [h, if_neg hdir, rvFindObjectByPath] at hresult
        cases hresult
      rw [rvFindObjectByPath_untyped h hdepth] at hresult
      split at hresult
      · next hnone =>
          cases hresult
          exact .noLink hnone
      · next uri hlink =>
          split at hresult
          · next hnone =>
              cases hresult
              exact .noObject hlink hnone
          · next type hobject =>
              cases depth with
              | zero => cases hresult
              | succ depth =>
                  rw [rvFindObjectByPath_some, Option.map_some] at hresult
                  cases hresult
                  exact .hard hlink hobject
      · next value hlink =>
          obtain ⟨rest, hrest, rfl⟩ := Option.map_eq_some_iff.mp hresult
          exact .soft hlink hrest
      · next file value hlink =>
          split at hresult
          · next hnone =>
              cases hresult
              exact .noFile hlink hnone
          · next d hstore =>
              obtain ⟨rest, hrest, rfl⟩ := Option.map_eq_some_iff.mp hresult
              exact .external hlink hstore hrest

/-! ## Calls of the callback -/

theorem callback_calls {r : LookupResult} (h : r.found ≠ none) : r.callback.calls ≠ [] := by
  obtain ⟨object, hobject⟩ := Option.ne_none_iff_exists'.mp h
  simp [LookupResult.callback, hobject]

/-- What was found went to the callback. -/
theorem calls_of_found {target : Option ObjType} {result : LookupResult}
    (hresult : rvFindObjectByPath s depth parent objPath target = some result)
    (hfound : result.found ≠ none) : result.calls ≠ [] := by
  cases hasked : requestedType parent objPath target with
  | some type =>
      cases depth with
      | zero => cases hresult
      | succ depth =>
          rw [rvFindObjectByPath_typed hasked] at hresult
          cases hresult
          exact callback_calls hfound
  | none =>
      have htarget : target = none := by
        cases target with
        | none => rfl
        | some type =>
            obtain ⟨asked, hsome⟩ := requestedType_some parent objPath type
            rw [hsome] at hasked
            cases hasked
      subst htarget
      obtain ⟨rest, rfl, hended⟩ := rvFindObjectByPath_ended hasked hresult
      cases hended with
      | noLink => exact absurd rfl hfound
      | noObject => exact absurd rfl hfound
      | noFile => exact absurd rfl hfound
      | hard => exact callback_calls hfound
      | soft => exact callback_calls hfound
      | external => exact callback_calls hfound

/-- An object of unknown type goes to the callback more than once. -/
theorem two_calls_of_untyped (h : requestedType parent objPath none = none)
    {result : LookupResult} (hresult : rvFindObjectByPath s depth parent objPath none = some result)
    (hfound : result.found ≠ none) : 2 ≤ result.calls.length := by
  have again {r : LookupResult} (hcalls : r.calls ≠ []) (hr : r.found ≠ none) :
      2 ≤ r.callback.calls.length := by
    obtain ⟨object, hobject⟩ := Option.ne_none_iff_exists'.mp hr
    have hpos := List.length_pos_iff.mpr hcalls
    simp only [LookupResult.callback, hobject, Option.toList_some, List.length_append,
      List.length_singleton]
    omega
  obtain ⟨rest, rfl, hended⟩ := rvFindObjectByPath_ended h hresult
  cases hended with
  | noLink => exact absurd rfl hfound
  | noObject => exact absurd rfl hfound
  | noFile => exact absurd rfl hfound
  | hard => exact again (callback_calls hfound) hfound
  | soft hlink hrest => exact again (calls_of_found hrest hfound) hfound
  | external hlink hstore hrest => exact again (calls_of_found hrest hfound) hfound

/-! ## Dead ends -/

/-- A dead end ends without an object, and without the callback. -/
theorem DeadEnd.missed (h : DeadEnd s parent objPath) :
    ∃ depth, rvFindObjectByPath s (depth + 1) parent objPath none = some .failed := by
  induction h with
  | object htype hnone =>
      refine ⟨0, ?_⟩
      rw [rvFindObjectByPath_typed htype, hnone]
      rfl
  | link htype hnone =>
      refine ⟨1, ?_⟩
      rw [rvFindObjectByPath_untyped htype (Or.inr Nat.one_pos), hnone]
  | @hard parent objPath uri htype hlink hnone =>
      refine ⟨1, ?_⟩
      rw [rvFindObjectByPath_untyped htype (Or.inr Nat.one_pos), hlink]
      simp only
      split
      · rfl
      · next type hobject =>
          rw [rvFindObjectByPath_some, hnone type hobject]
          rfl
  | soft htype hlink hrest ih =>
      obtain ⟨depth, hdepth⟩ := ih
      refine ⟨depth + 1, ?_⟩
      rw [rvFindObjectByPath_untyped htype (Or.inr (Nat.succ_pos _)), hlink]
      simp only [hdepth]
      rfl
  | noFile htype hlink hnone =>
      refine ⟨1, ?_⟩
      rw [rvFindObjectByPath_untyped htype (Or.inr Nat.one_pos), hlink]
      simp only [hnone]
  | external htype hlink hstore hrest ih =>
      obtain ⟨depth, hdepth⟩ := ih
      refine ⟨depth + 1, ?_⟩
      rw [rvFindObjectByPath_untyped htype (Or.inr (Nat.succ_pos _)), hlink]
      simp only [hstore, hdepth]
      rfl

/-- A lookup with an unknown type that ends without an object came to a dead end. -/
theorem deadEnd_of_missed {result : LookupResult}
    (hresult : rvFindObjectByPath s depth parent objPath none = some result)
    (hmissed : result.found = none) : DeadEnd s parent objPath := by
  induction depth generalizing parent objPath result with
  | zero => cases hresult
  | succ depth ih =>
      cases hasked : requestedType parent objPath none with
      | some type =>
          rw [rvFindObjectByPath_typed hasked] at hresult
          cases hresult
          exact .object hasked hmissed
      | none =>
          obtain ⟨rest, hrest, hended⟩ := rvFindObjectByPath_ended hasked hresult
          obtain rfl := Nat.succ.inj hrest
          cases hended with
          | noLink hnone => exact .link hasked hnone
          | noObject hlink hnone =>
              refine .hard hasked hlink fun type htype => ?_
              rw [hnone] at htype
              cases htype
          | noFile hlink hnone => exact .noFile hasked hlink hnone
          | hard hlink hobject =>
              refine .hard hasked hlink fun type htype => ?_
              obtain rfl := Option.some.inj (hobject.symm.trans htype)
              exact hmissed
          | soft hlink hrest => exact .soft hasked hlink (ih hrest hmissed)
          | external hlink hstore hrest => exact .external hasked hlink hstore (ih hrest hmissed)

end Calls

/-! ## The lookups that follow HDF5 -/

@[simp]
theorem rvCopyObjectLocInfoCallback_eq (loc response : ObjectRef) :
    rvCopyObjectLocInfoCallback loc response = response := by
  rw [rvCopyObjectLocInfoCallback]
  split
  · next h => rw [← h]
  · rfl

section Follows

variable {s : LinkServer} {parent : LocObject} {objPath : Text} {target : Option ObjType}

theorem typed_result {depth : Nat} {type : ObjType} {result : LookupResult}
    (hasked : requestedType parent objPath target = some type)
    (h : rvFindObjectByPath s depth parent objPath target = some result) :
    result = LookupResult.callback ⟨answerOf s parent objPath type, []⟩ := by
  cases depth with
  | zero => cases h
  | succ depth =>
      rw [rvFindObjectByPath_typed hasked] at h
      exact (Option.some.inj h).symm

theorem followsHdf5_typed {type : ObjType}
    (hasked : requestedType parent objPath target = some type) :
    FollowsHdf5 s parent objPath target ↔ ∀ object,
      answerOf s parent objPath type = some object ↔ s.Reaches parent objPath object := by
  constructor
  · intro h
    have hreached {object : ObjectRef} (hobject : s.Reaches parent objPath object) :
        answerOf s parent objPath type = some object := by
      obtain ⟨depth, result, hresult, hfound, -⟩ := h.found object hobject
      rw [typed_result hasked hresult] at hfound
      exact hfound
    refine fun object => ⟨fun hanswer => ?_, hreached⟩
    by_contra hnot
    have hnone : ∀ other, ¬s.Reaches parent objPath other := fun other hother => by
      rw [hreached hother] at hanswer
      exact hnot (Option.some.inj hanswer ▸ hother)
    obtain ⟨depth, result, hresult, hfound, -⟩ := h.missed hnone
    rw [typed_result hasked hresult] at hfound
    have hfound : answerOf s parent objPath type = none := hfound
    rw [hanswer] at hfound
    cases hfound
  · intro h
    refine ⟨fun object hobject => ?_, fun hnone => ?_⟩
    · refine ⟨1, _, rvFindObjectByPath_typed hasked, ?_, ?_, fun loc => ?_⟩
      · exact (h object).mpr hobject
      · rw [LookupResult.callback, (h object).mpr hobject]
        rfl
      · simp [LookupResult.callback, (h object).mpr hobject]
    · have hanswer : answerOf s parent objPath type = none :=
        Option.eq_none_iff_forall_ne_some.mpr fun object hobject =>
          hnone object ((h object).mp hobject)
      refine ⟨1, _, rvFindObjectByPath_typed hasked, hanswer, ?_⟩
      rw [LookupResult.callback, hanswer]
      rfl

theorem followsHdf5_untyped (hasked : requestedType parent objPath none = none) :
    FollowsHdf5 s parent objPath none ↔
      (∀ object, ¬s.Reaches parent objPath object) ∧ DeadEnd s parent objPath := by
  constructor
  · intro h
    have hnone : ∀ object, ¬s.Reaches parent objPath object := by
      intro object hobject
      obtain ⟨depth, result, hresult, hfound, hcalls, -⟩ := h.found object hobject
      have htwo := two_calls_of_untyped hasked hresult (by rw [hfound]; exact Option.some_ne_none _)
      rw [hcalls] at htwo
      exact absurd htwo (by simp)
    obtain ⟨depth, result, hresult, hfound, -⟩ := h.missed hnone
    exact ⟨hnone, deadEnd_of_missed hresult hfound⟩
  · rintro ⟨hnone, hdead⟩
    obtain ⟨depth, hdepth⟩ := hdead.missed
    exact ⟨fun object hobject => absurd hobject (hnone object),
      fun _ => ⟨depth + 1, .failed, hdepth, rfl, rfl⟩⟩

/-- A path that is kept is relative as it stands. -/
theorem preparePath_snd (h : (preparePath objPath).1 = objPath) :
    (preparePath objPath).2 = decide (objPath.head? ≠ some '/') := by
  have hstripped : objPath.dropWhile (· == ' ') = objPath := by
    have hsuffix : (preparePath objPath).1 <:+ objPath.dropWhile (· == ' ') := by
      simp only [preparePath]
      split_ifs
      · exact List.suffix_rfl
      · exact List.suffix_rfl
      · exact skipDots_suffix _
      · exact List.suffix_rfl
    rw [h] at hsuffix
    exact (List.dropWhile_suffix _).eq_of_length_le hsuffix.length_le
  simp only [preparePath, hstripped]
  split_ifs with hdot hroot
  · rw [hdot]
    decide
  · rw [hroot]
    decide
  · rfl
  · rfl

/-- What the request for a path finds is what HDF5 reaches, when the path arrives as it is. -/
theorem reaches_of_answerOf {type : ObjType} {object : ObjectRef} (hroot : objPath ≠ ['/'])
    (hprepared : (preparePath objPath).1 = objPath)
    (hread : components (s.unescape (h5RestUrlEncodePath s.escape objPath)) = components objPath)
    (h : answerOf s parent objPath type = some object) : s.Reaches parent objPath object := by
  have hobject {ref : ObjectRef} (hget : s.getObject (collectionType type) ref = some object) :
      ref = object := by
    obtain ⟨d, -, hd⟩ := Option.bind_eq_some_iff.mp hget
    split at hd
    · exact Option.some.inj hd
    · cases hd
  have hrelative := preparePath_snd hprepared
  rw [answerOf, hprepared, LinkServer.request] at h
  obtain ⟨header, -, h⟩ := Option.bind_eq_some_iff.mp h
  simp only at h
  split at h
  · next hspecial =>
      obtain ⟨url, -, hget⟩ := Option.bind_eq_some_iff.mp h
      obtain rfl := hspecial.resolve_right hroot
      obtain ⟨d, hstore, -⟩ := Option.bind_eq_some_iff.mp hget
      refine ⟨d, hstore, ?_⟩
      rw [if_neg (by decide), ← hobject hget]
      exact .done _
  · obtain ⟨url, -, hpath⟩ := Option.bind_eq_some_iff.mp h
    obtain ⟨d, hstore, hwalk⟩ := Option.bind_eq_some_iff.mp hpath
    obtain ⟨reached, hwalked, hget⟩ := Option.bind_eq_some_iff.mp hwalk
    refine ⟨d, hstore, ?_⟩
    rw [hread, hobject hget] at hwalked
    rw [hrelative] at hwalked
    by_cases habsolute : objPath.head? = some '/'
    · rw [if_neg (by simp [habsolute])] at hwalked
      rw [if_pos habsolute]
      exact Resolves.of_hardWalk hwalked
    · rw [if_pos (by simp [habsolute])] at hwalked
      rw [if_neg habsolute]
      exact Resolves.of_hardWalk hwalked

end Follows

/-- A file whose root group has one dataset. -/
def oneDataset : Domain where
  root := ['g']
  objects uri := if uri = ['g'] then some .group else if uri = ['d'] then some .dataset else none
  links uri name := if uri = ['g'] ∧ name = ['x'] then some (.hard ['d']) else none
  root_group := rfl
  links_group uri name link h := by
    split at h
    · next hlink => rw [if_pos hlink.1]
    · cases h
  hard_exists uri name target h := by
    split at h
    · cases h
      exact ⟨.dataset, rfl⟩
    · cases h

/-- A server with this file. -/
def smallServer : LinkServer where
  baseURL := ['h']
  escape := Exchange.hexEscape
  unescape := id
  store domain := if domain = ['f'] then some oneDataset else none

/-- The file, opened. -/
def openFile : LocObject := ⟨['f'], ['g'], .file, nofun⟩

end XHDF5.Links
