/-
# Reading a datatype with its handles

The reader of datatypes holds datatypes and blocks while it works on a text, and cuts shorter texts
out of it that it works on first. Each datatype that is created has a handle, and what a branch
acquires for itself is released at its end. What is read is what the reader without handles reads.
-/

import XHDF5.Client.DatatypeJson
import XHDF5.Math.Ledger

namespace XHDF5.Client

open XHDF5.Math

/-! ## The reader -/

/-- The classes that have no other datatype inside; an unknown class is rejected. -/
def convertPlain (tree : Json) (datatypeClass : Text) : Outcome Datatype :=
  if datatypeClass = lit "H5T_INTEGER" then
    (typeBase tree).bind fun base => (integerOfBase base).bind fun base => .ok (.integer base)
  else if datatypeClass = lit "H5T_FLOAT" then (typeBase tree).bind floatOfBase
  else if datatypeClass = lit "H5T_STRING" then convertString tree
  else if datatypeClass = lit "H5T_REFERENCE" then (typeBase tree).bind referenceOfBase
  else .fail

/-- The text that the type of a member is converted from. -/
def memberText (sectionPtr rest : Text) : Text := lit "\x7b" ++ before sectionPtr rest ++ lit "\x7d"

/-- The text that a base type is converted from. -/
def baseText (sectionStart rest : Text) : Text :=
  lit "\x7b\"type\":" ++ before sectionStart rest ++ lit "\x7d"

/-- `H5Tarray_create2` over a base type. -/
def arrayOf (base : Datatype) (items : List Json) : Outcome Datatype :=
  (arrayDims items).bind fun dims =>
    if 32 < dims.length ∨ 0 ∈ dims then .fail else .ok (.array base dims)

/-- The text of the base type, cut out of a text. -/
def baseOf (text : Text) : Option Text :=
  (findSection (lit "\"base\"") text).map fun section_ => baseText section_.2.1 section_.2.2

/-- `H5Tenum_create` over a base type, with the members of the mapping. -/
def enumOf (tree : Json) (base : Datatype) : Outcome Datatype :=
  match base with
  | .integer base =>
      match tree.at? [lit "type", lit "mapping"] with
      | some (.object _ _ mapping) =>
          match insertValues base [] mapping with
          | .ok members => .ok (.enum base members)
          | _ => .fail
      | _ => .fail
  | _ => .fail

/-- The `H5Tinsert` of the fields behind those that are there; an error is the index of the field
that cannot be inserted. -/
def insertFrom : Nat → List (Text × Nat × Datatype) → Nat → List (Option Text) → List Datatype →
    Except Nat (List (Text × Nat × Datatype))
  | i, inserted, offset, name :: names, memberType :: types =>
      match name with
      | none => .error i
      | some name =>
          if name = [] ∨ name ∈ inserted.map Prod.fst then .error i
          else insertFrom (i + 1) (inserted ++ [(name, offset, memberType)])
            (offset + memberType.size) names types
  | _, inserted, _, _, _ => .ok inserted

/-- The loop that closes the members of a compound. Neither the index nor the array changes. -/
def closeMembers : Nat → List (Option Nat) → Nat → Code PUnit
  | 0, _, _ => .diverge
  | fuel + 1, array, i =>
      match array[i]? with
      | none => .lift .undefined
      | some none => .lift (.ok ⟨⟩)
      | some (some id) => (Code.release id).bind fun _ => closeMembers fuel array i

section Reader

variable (convert : Text → Code (Nat × Datatype)) (fuel : Nat) (text : Text) (tree : Json)

/-- The types of as many fields, each with its handle. -/
def memberTypes : Nat → Text → Code (List (Nat × Datatype))
  | 0, _ => .lift (.ok [])
  | count + 1, text =>
      match findSection (lit "\"type\"") text with
      | none => .lift .fail
      | some (sectionPtr, _, rest) =>
          (convert (memberText sectionPtr rest)).bind fun memberType =>
            if rest = [] ∧ count ≠ 0 then .lift .undefined
            else (memberTypes count rest.tail).bind fun types => .lift (.ok (memberType :: types))

/-- A datatype is created, unless the library or a check before it fails. -/
def created (t : Outcome Datatype) : Code (Nat × Datatype) :=
  (Code.lift t).bind fun t => Code.acquire.bind fun id => .lift (.ok (id, t))

/-- The end of the branch for compounds. When a field cannot be inserted, the compound is closed,
and the loop over the members begins at this field. -/
def insertMembers (names : List (Option Text)) (types : List (Nat × Datatype)) :
    Code (Nat × Datatype) :=
  Code.acquire.bind fun datatype =>
    match insertFrom 0 [] 0 names (types.map Prod.snd) with
    | .ok members =>
        .lift (.ok (datatype, .compound ((types.map Prod.snd).map Datatype.size).sum members))
    | .error i =>
        (Code.release datatype).bind fun _ =>
          (closeMembers fuel (types.map fun t => some t.1) i).bind fun _ => .lift .fail

/-- The branch for compounds, with its two arrays and the temporary buffer. -/
def convertCompoundCode : Code (Nat × Datatype) :=
  match tree.at? [lit "type", lit "fields"] with
  | some (.array _ fields) =>
      if fields = [] then .lift .fail
      else
        .within <| .within <| .within <|
          (Code.lift (compoundMemberNames fields)).bind fun names =>
            match strstr (lit "\"fields\"") text with
            | none => .lift .fail
            | some sectionPtr =>
                (memberTypes convert fields.length sectionPtr).bind (insertMembers fuel names)
  | _ => .lift .fail

/-- The branch for arrays, with the dimensions and the substring. The base type is not closed. -/
def convertArrayCode : Code (Nat × Datatype) :=
  match tree.at? [lit "type", lit "dims"] with
  | some (.array _ items) =>
      if items = [] then .lift .fail
      else
        .within <|
          match findSection (lit "\"base\"") text with
          | none => .lift .fail
          | some (_, sectionStart, rest) =>
              .within <| (convert (baseText sectionStart rest)).bind fun base =>
                created (arrayOf base.2 items)
  | _ => .lift .fail

/-- The end of the branch for enumerations: the datatype is closed when a member is not accepted. -/
def insertMapping (base : Datatype) : Code (Nat × Datatype) :=
  match base with
  | .integer base =>
      Code.acquire.bind fun datatype =>
        match tree.at? [lit "type", lit "mapping"] with
        | some (.object _ _ mapping) =>
            match insertValues base [] mapping with
            | .ok members => .lift (.ok (datatype, .enum base members))
            | _ => (Code.release datatype).bind fun _ => .lift .fail
        | _ => (Code.release datatype).bind fun _ => .lift .fail
  | _ => .lift .fail

/-- The branch for enumerations, with the buffer for the base type, which is closed at the end. -/
def convertEnumCode : Code (Nat × Datatype) :=
  match findSection (lit "\"base\"") text with
  | none => .lift .fail
  | some (_, sectionStart, rest) =>
      .within <| (convert (baseText sectionStart rest)).bind fun base =>
        .releasing base.1 (insertMapping tree base.2)

/-- The branches for the classes. -/
def convertClassCode (datatypeClass : Text) : Code (Nat × Datatype) :=
  if datatypeClass = lit "H5T_COMPOUND" then convertCompoundCode convert fuel text tree
  else if datatypeClass = lit "H5T_ARRAY" then convertArrayCode convert text tree
  else if datatypeClass = lit "H5T_ENUM" then convertEnumCode convert text tree
  else created (convertPlain tree datatypeClass)

end Reader

section Parse

variable (parse : Text → Option Json)

/-- `RV_convert_JSON_to_datatype`: the handle of the datatype, and the datatype. The bound is one
for the depth of the recursion and for the loop at its end. -/
def rvConvertJsonToDatatypeCode : Nat → Text → Code (Nat × Datatype)
  | 0, _ => .diverge
  | fuel + 1, text =>
      match parse text with
      | none => .lift .fail
      | some tree =>
          .within <|
            match tree.at? [lit "type", lit "class"] with
            | some (.string datatypeClass) =>
                convertClassCode (rvConvertJsonToDatatypeCode fuel) fuel text tree datatypeClass
            | _ => .lift .fail

end Parse

/-! ## The ends of the branches -/

section Parts

variable {names : List (Option Text)} {types : List Datatype} {offset i j : Nat}
  {inserted : List (Text × Nat × Datatype)}

/-- The field that cannot be inserted is one of the fields. -/
theorem insertFrom_error (h : insertFrom i inserted offset names types = .error j) :
    i ≤ j ∧ j < i + types.length := by
  induction names generalizing i inserted offset types with
  | nil => rw [insertFrom] at h <;> cases h
  | cons name names ih =>
      cases types with
      | nil => rw [insertFrom] at h <;> cases h
      | cons memberType types =>
          rw [List.length_cons]
          cases name with
          | none =>
              cases h
              omega
          | some name =>
              rw [insertFrom] at h
              split at h
              · cases h
                omega
              · have hnext := ih h
                omega

/-- The loop over the members does not end at a member that is open. -/
theorem closeMembers_open {array : List (Option Nat)} {id : Nat} (h : array[i]? = some (some id))
    (fuel : Nat) (l : Ledger) : closeMembers fuel array i l = none := by
  induction fuel generalizing l with
  | zero => rfl
  | succ fuel ih =>
      rw [closeMembers]
      simp only [h]
      exact ih _

/-- The end of the branch for enumerations keeps nothing but what it creates. -/
theorem insertMapping_cases (tree : Json) (base : Datatype) (l : Ledger) :
    (∃ t, enumOf tree base = .ok t ∧
        insertMapping tree base l = some (.ok (l.next, t), l.acquire)) ∨
      enumOf tree base = .fail ∧ (insertMapping tree base).Ends l .fail [] := by
  have hclosed : l.Leaves [] (l.acquire.release l.next) := (Ledger.Leaves.refl _).release
  cases base with
  | integer base =>
      rw [enumOf, insertMapping, Code.Ends, Code.bind_of_ok Code.acquire_apply]
      cases tree.at? [lit "type", lit "mapping"] with
      | none => exact .inr ⟨rfl, _, rfl, hclosed⟩
      | some mapping =>
          cases mapping with
          | object _ _ mapping =>
              simp only
              cases insertValues base [] mapping with
              | ok members => exact .inl ⟨_, rfl, rfl⟩
              | undefined | fail => exact .inr ⟨rfl, _, rfl, hclosed⟩
          | _ => exact .inr ⟨rfl, _, rfl, hclosed⟩
  | _ => exact .inr ⟨rfl, Code.ends_lift _⟩

/-- The end of the branch for compounds ends only when every field is inserted. -/
theorem insertMembers_eq_some {types : List (Nat × Datatype)} {fuel : Nat} {l l' : Ledger}
    {outcome : Outcome (Nat × Datatype)}
    (h : insertMembers fuel names types l = some (outcome, l')) :
    ∃ members, insertFrom 0 [] 0 names (types.map Prod.snd) = .ok members ∧
      outcome = .ok (l.next, .compound ((types.map Prod.snd).map Datatype.size).sum members) ∧
      l' = l.acquire := by
  rw [insertMembers, Code.bind_of_ok Code.acquire_apply] at h
  cases hinsert : insertFrom 0 [] 0 names (types.map Prod.snd) with
  | ok members =>
      rw [hinsert] at h
      cases h
      exact ⟨members, rfl, rfl, rfl⟩
  | error i =>
      have hi : i < types.length := by simpa using (insertFrom_error hinsert).2
      have hopen : (types.map fun t => some t.1)[i]? = some (some types[i].1) := by
        rw [List.getElem?_map, List.getElem?_eq_getElem hi, Option.map_some]
      rw [hinsert] at h
      simp only [Code.bind, Code.release, closeMembers_open hopen] at h
      cases h

end Parts

/-! ## The datatype that is read -/

/-- When code ends, it has the value, or the end, that is given. -/
def Follows (m : Code (Nat × Datatype)) (result : Outcome Datatype) : Prop :=
  ∀ l l' outcome, m l = some (outcome, l') → result = outcome.bind fun value => .ok value.2

theorem follows_fail : Follows (.lift .fail) .fail := by
  intro l l' outcome hrun
  cases hrun
  rfl

theorem follows_releasing {m : Code (Nat × Datatype)} {id : Nat} {result : Outcome Datatype}
    (h : Follows m result) : Follows (.releasing id m) result := by
  intro l l' outcome hrun
  obtain ⟨l₁, hm⟩ := Code.exists_of_releasing hrun
  exact h _ _ _ hm

theorem follows_within {m : Code (Nat × Datatype)} {result : Outcome Datatype}
    (h : Follows m result) : Follows (.within m) result :=
  fun _ _ _ hrun => follows_releasing h _ _ _ hrun

theorem follows_created (t : Outcome Datatype) : Follows (created t) t := by
  intro l l' outcome hrun
  cases t with
  | undefined | fail | ok t => cases hrun; rfl

theorem follows_bind {m : Code (Nat × Datatype)} {f : Nat × Datatype → Code (Nat × Datatype)}
    {result : Outcome Datatype} {continue_ : Datatype → Outcome Datatype} (hm : Follows m result)
    (hf : ∀ id t, Follows (f (id, t)) (continue_ t)) :
    Follows (m.bind f) (result.bind continue_) := by
  intro l l' outcome hrun
  rcases Code.bind_eq_some hrun with ⟨h, rfl⟩ | ⟨h, rfl⟩ | ⟨⟨id, t⟩, l₁, h, hrun⟩
  · rw [hm _ _ _ h]; rfl
  · rw [hm _ _ _ h]; rfl
  · rw [hm _ _ _ h]
    exact hf id t _ _ _ hrun

theorem follows_lift_bind {α : Type} (o : Outcome α) {f : α → Code (Nat × Datatype)}
    {continue_ : α → Outcome Datatype} (hf : ∀ value, Follows (f value) (continue_ value)) :
    Follows ((Code.lift o).bind f) (o.bind continue_) := by
  intro l l' outcome hrun
  cases o with
  | undefined | fail => cases hrun; rfl
  | ok value => exact hf value _ _ _ hrun

theorem insertFields_of_insertFrom {i offset : Nat}
    {inserted members : List (Text × Nat × Datatype)} {names : List (Option Text)}
    {types : List Datatype}
    (h : insertFrom i inserted offset names types = .ok members) :
    insertFields inserted offset names types = .ok members := by
  induction names generalizing i inserted offset types with
  | nil =>
      cases types with
      | nil | cons => cases h; rfl
  | cons name names ih =>
      cases types with
      | nil => cases h; rfl
      | cons memberType types =>
          cases name with
          | none => cases h
          | some name =>
              rw [insertFrom] at h
              rw [insertFields]
              split at h
              · cases h
              · next hnew =>
                  rw [if_neg hnew]
                  exact ih h

theorem insertMapping_follows (tree : Json) (t : Datatype) :
    Follows (insertMapping tree t) (enumOf tree t) := by
  intro l l' outcome hrun
  rcases insertMapping_cases tree t l with ⟨value, henum, hend⟩ | ⟨henum, l₁, hend, -⟩
  · cases hrun.symm.trans hend
    exact henum
  · cases hrun.symm.trans hend
    exact henum

theorem insertValues_ne_undefined (base : IntegerType) (inserted : List (Text × Int))
    (members : List (Text × Json)) : insertValues base inserted members ≠ .undefined := by
  fun_induction insertValues base inserted members with
  | case1 | case2 | case3 | case5 => nofun
  | case4 _ _ _ _ _ _ ih => exact ih

section Follows

variable {convert : Text → Code (Nat × Datatype)} {read : Text → Outcome Datatype}
  (hconvert : ∀ x, Follows (convert x) (read x))

include hconvert

theorem memberTypes_follows {count : Nat} {text : Text} {l l' : Ledger}
    {outcome : Outcome (List (Nat × Datatype))}
    (hrun : memberTypes convert count text l = some (outcome, l')) :
    compoundMemberTypes read count text = outcome.bind fun types => .ok (types.map Prod.snd) := by
  induction count generalizing text l l' outcome with
  | zero => cases hrun; rfl
  | succ count ih =>
      rw [memberTypes] at hrun
      rw [compoundMemberTypes]
      cases hfind : findSection (lit "\"type\"") text with
      | none =>
          rw [hfind] at hrun
          cases hrun
          rfl
      | some found =>
          obtain ⟨sectionPtr, sectionStart, rest⟩ := found
          rw [hfind] at hrun
          simp only
          change (read (memberText sectionPtr rest)).bind _ = _
          rcases Code.bind_eq_some hrun with ⟨h, rfl⟩ | ⟨h, rfl⟩ | ⟨⟨id, t⟩, l₁, h, hrun⟩
          · rw [hconvert _ _ _ _ h]; rfl
          · rw [hconvert _ _ _ _ h]; rfl
          · rw [hconvert _ _ _ _ h, Outcome.ok_bind, Outcome.ok_bind]
            split
            · next hbad =>
                simp only [if_pos hbad] at hrun
                cases hrun
                rfl
            · next hgo =>
                simp only [if_neg hgo] at hrun
                rcases Code.bind_eq_some hrun with ⟨h, rfl⟩ | ⟨h, rfl⟩ | ⟨types, l₂, h, hrun⟩
                · rw [ih h]; rfl
                · rw [ih h]; rfl
                · cases hrun
                  rw [ih h]
                  rfl

theorem convertCompoundCode_follows (fuel : Nat) (text : Text) (tree : Json) :
    Follows (convertCompoundCode convert fuel text tree) (convertCompound read text tree) := by
  rw [convertCompoundCode, convertCompound]
  cases tree.at? [lit "type", lit "fields"] with
  | none => exact follows_fail
  | some value =>
      cases value with
      | array gap fields =>
          simp only
          by_cases hempty : fields = []
          · rw [if_pos hempty, if_pos hempty]
            exact follows_fail
          · rw [if_neg hempty, if_neg hempty]
            refine follows_within (follows_within (follows_within (follows_lift_bind _ ?_)))
            intro names
            cases strstr (lit "\"fields\"") text with
            | none => exact follows_fail
            | some fieldsPtr =>
                intro l l' outcome hrun
                rcases Code.bind_eq_some hrun with ⟨h, rfl⟩ | ⟨h, rfl⟩ | ⟨types, l₁, h, hrun⟩
                · simp only [memberTypes_follows hconvert h]; rfl
                · simp only [memberTypes_follows hconvert h]; rfl
                · obtain ⟨members, hinsert, rfl, -⟩ := insertMembers_eq_some hrun
                  simp only [memberTypes_follows hconvert h, Outcome.ok_bind,
                    insertFields_of_insertFrom hinsert]
      | _ => exact follows_fail

theorem convertArrayCode_follows (text : Text) (tree : Json) :
    Follows (convertArrayCode convert text tree) (convertArray read text tree) := by
  rw [convertArrayCode, convertArray, convertBase]
  cases tree.at? [lit "type", lit "dims"] with
  | none => exact follows_fail
  | some value =>
      cases value with
      | array gap items =>
          simp only
          by_cases hempty : items = []
          · rw [if_pos hempty, if_pos hempty]
            exact follows_fail
          · rw [if_neg hempty, if_neg hempty]
            refine follows_within ?_
            cases findSection (lit "\"base\"") text with
            | none => exact follows_fail
            | some found =>
                exact follows_within (follows_bind (hconvert _) fun _ t => follows_created _)
      | _ => exact follows_fail

theorem convertEnumCode_follows (text : Text) (tree : Json) :
    Follows (convertEnumCode convert text tree) (convertEnum read text tree) := by
  rw [convertEnumCode, convertEnum, convertBase]
  cases findSection (lit "\"base\"") text with
  | none => exact follows_fail
  | some found =>
      refine follows_within (follows_bind (hconvert _) fun id t => follows_releasing ?_)
      have hmapping := insertMapping_follows tree t
      cases t with
      | integer base =>
          rw [enumOf] at hmapping
          revert hmapping
          cases tree.at? [lit "type", lit "mapping"] with
          | none => exact fun hmapping => hmapping
          | some mapping =>
              cases mapping with
              | object _ _ mapping =>
                  simp only
                  cases hinsert : insertValues base [] mapping with
                  | undefined => exact absurd hinsert (insertValues_ne_undefined _ _ _)
                  | fail | ok members => exact fun hmapping => hmapping
              | _ => exact fun hmapping => hmapping
      | _ => exact hmapping

theorem convertClassCode_follows (fuel : Nat) (text : Text) (tree : Json) (datatypeClass : Text) :
    Follows (convertClassCode convert fuel text tree datatypeClass)
      (convertClass read text tree datatypeClass) := by
  have hcompound : lit "H5T_COMPOUND" ≠ lit "H5T_INTEGER" ∧ lit "H5T_COMPOUND" ≠ lit "H5T_FLOAT" ∧
      lit "H5T_COMPOUND" ≠ lit "H5T_STRING" := by
    unfold lit
    decide
  have harray : lit "H5T_ARRAY" ≠ lit "H5T_INTEGER" ∧ lit "H5T_ARRAY" ≠ lit "H5T_FLOAT" ∧
      lit "H5T_ARRAY" ≠ lit "H5T_STRING" := by
    unfold lit
    decide
  have henum : lit "H5T_ENUM" ≠ lit "H5T_INTEGER" ∧ lit "H5T_ENUM" ≠ lit "H5T_FLOAT" ∧
      lit "H5T_ENUM" ≠ lit "H5T_STRING" := by
    unfold lit
    decide
  rw [convertClassCode, convertClass]
  by_cases hclass : datatypeClass = lit "H5T_COMPOUND"
  · subst hclass
    rw [if_pos rfl, if_neg hcompound.1, if_neg hcompound.2.1, if_neg hcompound.2.2, if_pos rfl]
    exact convertCompoundCode_follows hconvert fuel text tree
  · by_cases hclass' : datatypeClass = lit "H5T_ARRAY"
    · subst hclass'
      rw [if_neg hclass, if_pos rfl, if_neg harray.1, if_neg harray.2.1, if_neg harray.2.2,
        if_neg hclass, if_pos rfl]
      exact convertArrayCode_follows hconvert text tree
    · by_cases hclass'' : datatypeClass = lit "H5T_ENUM"
      · subst hclass''
        rw [if_neg hclass, if_neg hclass', if_pos rfl, if_neg henum.1, if_neg henum.2.1,
          if_neg henum.2.2, if_neg hclass, if_neg hclass', if_pos rfl]
        exact convertEnumCode_follows hconvert text tree
      · rw [if_neg hclass, if_neg hclass', if_neg hclass'', if_neg hclass, if_neg hclass',
          if_neg hclass'']
        exact follows_created _

end Follows

/-- When the reader returns, it returns what the reader without handles reads. -/
theorem rvConvertJsonToDatatypeCode_follows (parse : Text → Option Json) (fuel : Nat)
    (text : Text) : Follows (rvConvertJsonToDatatypeCode parse fuel text)
      (rvConvertJsonToDatatype parse fuel text) := by
  induction fuel generalizing text with
  | zero => exact fun _ _ _ => nofun
  | succ fuel ih =>
      rw [rvConvertJsonToDatatypeCode, rvConvertJsonToDatatype]
      cases parse text with
      | none => exact follows_fail
      | some tree =>
          simp only
          refine follows_within ?_
          cases tree.at? [lit "type", lit "class"] with
          | none => exact follows_fail
          | some value =>
              cases value with
              | string datatypeClass =>
                  exact convertClassCode_follows ih fuel text tree datatypeClass
              | _ => exact follows_fail

/-! ## The texts get shorter -/

/-- Where the parts of a section stand. -/
theorem findSection_eq_some {key text sectionPtr sectionStart rest : Text} (hkey : '{' ∉ key)
    (h : findSection key text = some (sectionPtr, sectionStart, rest)) :
    key <+: sectionPtr ∧ sectionPtr.length ≤ text.length ∧
      key.length + sectionStart.length ≤ sectionPtr.length ∧
        rest.length + 1 ≤ sectionStart.length := by
  obtain ⟨ptr, hptr, h⟩ := Option.bind_eq_some_iff.mp h
  obtain ⟨start, hstart, h⟩ := Option.bind_eq_some_iff.mp h
  obtain ⟨rest', hrest, h⟩ := Option.map_eq_some_iff.mp h
  cases h
  obtain ⟨hprefixed, hsuffix⟩ := strstr_eq_some hptr
  have hbrace : lit "\x7b" = ['{'] := by unfold lit; rfl
  obtain ⟨inner, rfl⟩ := hprefixed
  rw [hbrace, strstr_append hkey] at hstart
  obtain ⟨⟨tail, rfl⟩, hinner⟩ := strstr_eq_some hstart
  have hend := (sectionEnd_suffix hrest).length_le
  refine ⟨List.prefix_append _ _, hsuffix.length_le, ?_, ?_⟩
  · have hlength := hinner.length_le
    simp only [List.length_append, List.length_cons] at hlength ⊢
    omega
  · simpa using hend

/-- The length of a text, and more when it does not begin like the ones that are cut out. -/
def cutSize (text : Text) : Nat :=
  text.length + if lit "\x7b\"type\"" <+: text then 0 else 4

theorem length_before (text rest : Text) :
    (before text rest).length = text.length - rest.length := by
  rw [before, List.length_take]
  omega

/-- The search for the section of a base type begins behind the start of a text that was cut out. -/
theorem strstr_base_of_cut (text : Text) :
    strstr (lit "\"base\"") (lit "\x7b\"type\"" ++ text) =
      strstr (lit "\"base\"") ('"' :: text) := by
  have hbase : lit "\"base\"" = ['"', 'b', 'a', 's', 'e', '"'] := by unfold lit; rfl
  have htype : lit "\x7b\"type\"" = ['{', '"', 't', 'y', 'p', 'e', '"'] := by unfold lit; rfl
  rw [hbase, htype]
  simp [strstr]

/-- The search for the section of a member begins behind the key of the fields. -/
theorem strstr_type_of_fields (text : Text) :
    strstr (lit "\"type\"") (lit "\"fields\"" ++ text) =
      strstr (lit "\"type\"") ('"' :: text) := by
  have htype : lit "\"type\"" = ['"', 't', 'y', 'p', 'e', '"'] := by unfold lit; rfl
  have hfields : lit "\"fields\"" = ['"', 'f', 'i', 'e', 'l', 'd', 's', '"'] := by unfold lit; rfl
  rw [htype, hfields]
  simp [strstr]

/-- A text that was cut out has its length as its size. -/
theorem cutSize_cut {text : Text} (h : lit "\x7b\"type\"" <+: text) :
    cutSize text = text.length := by
  rw [cutSize, if_pos h, Nat.add_zero]

/-- The text of a base type is shorter, or begins like one that was cut out. -/
theorem cutSize_baseOf {text inner : Text} (h : baseOf text = some inner) :
    cutSize inner < cutSize text := by
  obtain ⟨⟨sectionPtr, sectionStart, rest⟩, hfind, rfl⟩ := Option.map_eq_some_iff.mp h
  have hkey : '{' ∉ lit "\"base\"" ∧ (lit "\"base\"").length = 6 := by unfold lit; decide
  have hwrap : lit "\x7b\"type\":" = lit "\x7b\"type\"" ++ [':'] := by unfold lit; rfl
  have hlength : (lit "\x7b\"type\"").length = 7 ∧ (lit "\x7d").length = 1 := by unfold lit; decide
  obtain ⟨-, hptr, hstart, -⟩ := findSection_eq_some hkey.1 hfind
  have hcut : lit "\x7b\"type\"" <+: baseText sectionStart rest := by
    rw [baseText, hwrap, List.append_assoc, List.append_assoc]
    exact List.prefix_append _ _
  have hsize : (baseText sectionStart rest).length ≤ sectionStart.length + 9 := by
    rw [baseText, hwrap]
    simp only [List.length_append, length_before, List.length_cons, List.length_nil]
    omega
  rw [cutSize_cut hcut]
  by_cases hprefixed : lit "\x7b\"type\"" <+: text
  · obtain ⟨behind, rfl⟩ := hprefixed
    have hfind' : findSection (lit "\"base\"") ('"' :: behind) =
        some (sectionPtr, sectionStart, rest) := by
      rw [← hfind, findSection, findSection, strstr_base_of_cut]
    obtain ⟨-, hptr', -, -⟩ := findSection_eq_some hkey.1 hfind'
    rw [cutSize_cut (List.prefix_append _ _), List.length_append]
    rw [List.length_cons] at hptr'
    omega
  · rw [cutSize, if_neg hprefixed]
    omega

/-- The text of a member is cut out behind its key. -/
theorem cutSize_memberText {text sectionPtr sectionStart rest : Text}
    (h : findSection (lit "\"type\"") text = some (sectionPtr, sectionStart, rest)) :
    cutSize (memberText sectionPtr rest) ≤ sectionPtr.length + 2 ∧
      sectionPtr.length ≤ text.length ∧ rest.length ≤ sectionPtr.length := by
  have hkey : '{' ∉ lit "\"type\"" := by unfold lit; decide
  have hwrap : lit "\x7b\"type\"" = lit "\x7b" ++ lit "\"type\"" := by unfold lit; rfl
  have hlength : (lit "\x7b").length = 1 ∧ (lit "\x7d").length = 1 := by unfold lit; decide
  obtain ⟨⟨inner, rfl⟩, hptr, hstart, hrest⟩ := findSection_eq_some hkey h
  have hcut : lit "\x7b\"type\"" <+: memberText (lit "\"type\"" ++ inner) rest := by
    rw [memberText, hwrap, List.append_assoc, before, List.take_append, List.take_of_length_le]
    · rw [List.append_assoc, ← List.append_assoc]
      exact List.prefix_append _ _
    · simp only [List.length_append] at hstart ⊢
      omega
  rw [cutSize_cut hcut]
  refine ⟨?_, hptr, by omega⟩
  rw [memberText, List.length_append, List.length_append, length_before]
  omega

end XHDF5.Client
