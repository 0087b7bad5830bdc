/-
# Reading a datatype back

The reader takes the sections out of a text by searching for their keys. Over the text of a datatype
with plain names every search ends at the section it is meant for, so the datatype is read back as
its image, which the branches of the reader determine level by level.
-/

import XHDF5.Client.DatatypeJson

namespace XHDF5.Client

open XHDF5.Math

/-! ## What is read back -/

/-- The member values that `H5Tconvert` is given. -/
def mappingOf (base : IntegerType) (members : List (Text × Int)) : List (Text × Json) :=
  members.map fun m => (m.1, .number (enumValue base m.2))

mutual

/-- What the reader makes of the text of a datatype. -/
def Datatype.image : Datatype → Outcome Datatype
  | .integer base => (integerOfBase base.nameText).bind fun base => .ok (.integer base)
  | .float size order => floatOfBase (predefinedName (lit "IEEE") (lit "F") size order)
  | .string none _ _ => .ok (.string none .nullterm .ascii)
  | .string (some length) _ _ =>
      if ¬ isInteger length then .undefined
      else if length = 0 then .fail
      else .ok (.string (some length) .nullpad .ascii)
  | .compound _ members =>
      if members = [] then .fail
      else
        (imageFields members).bind fun types =>
          (insertFields [] 0 (members.map fun m => some m.1) types).bind fun members =>
            .ok (.compound (types.map Datatype.size).sum members)
  | .enum base members =>
      if members = [] then .undefined
      else
        (integerOfBase base.nameText).bind fun image =>
          (insertValues image [] (mappingOf base members)).bind fun members =>
            .ok (.enum image members)
  | .array base dims =>
      base.image.bind fun base =>
        (arrayDims (dims.map fun d : Nat => .number d)).bind fun dims =>
          if 32 < dims.length ∨ 0 ∈ dims then .fail else .ok (.array base dims)
  | .reference kind =>
      .ok (.reference (if kind = .object then .object else .region))
  | .other _ => .fail

/-- What the reader makes of the member types of a compound. -/
def imageFields : List (Text × Nat × Datatype) → Outcome (List Datatype)
  | [] => .ok []
  | (_, _, memberType) :: members =>
      memberType.image.bind fun memberType =>
        (imageFields members).bind fun types => .ok (memberType :: types)

end

/-! ## The tree of a datatype on its own -/

/-- A value as the `type` of a text of its own. -/
def wrapped (gap : Text) (x : Json) : Json := .object [] gap [(lit "type", x)]

theorem plain_wrapped {gap : Text} {x : Json} (hgap : Json.Blank gap) (hx : x.Plain) :
    (wrapped gap x).Plain := by
  simp only [wrapped, Json.Plain, Json.PlainMembers]
  exact ⟨by decide, hgap, by unfold lit; decide, hx, trivial⟩

theorem render_wrapped (gap : Text) (x : Json) :
    (wrapped gap x).render = '{' :: (quoted (lit "type") ++ ':' :: (gap ++ (x.render ++ ['}']))) := by
  simp [wrapped, Json.render, Json.renderMembers, List.intercalate]

theorem at?_wrapped (gap key : Text) (x : Json) :
    (wrapped gap x).value.at? [lit "type", key] = x.value.member key := by
  have hself : (wrapped gap x).value.member (lit "type") = some x.value := by
    simp [wrapped, Json.value, Json.valueMembers, Json.member]
  rw [Json.at?, hself, Option.bind_some, Json.at?]
  cases x.value.member key <;> rfl

section Read

variable {parse : Text → Option Json} (hparse : Json.ReadsJson parse)

include hparse in
/-- One level of the reader, by the class of the value. -/
theorem rvConvertJsonToDatatype_wrapped {gap : Text} {x : Json} {datatypeClass : Text}
    (hplain : (wrapped gap x).Plain)
    (hclass : x.value.member (lit "class") = some (.string datatypeClass)) (depth : Nat) :
    rvConvertJsonToDatatype parse (depth + 1) (wrapped gap x).render =
      convertClass (rvConvertJsonToDatatype parse depth) (wrapped gap x).render
        (wrapped gap x).value datatypeClass := by
  rw [rvConvertJsonToDatatype, hparse _ hplain]
  simp only [at?_wrapped, hclass]

end Read

/-! ## The sections of a text -/

theorem quoted_lit_type : lit "\"type\"" = quoted (lit "type") := by unfold lit; rfl

theorem quoted_lit_base : lit "\"base\"" = quoted (lit "base") := by unfold lit; rfl

theorem quoted_lit_fields : lit "\"fields\"" = quoted (lit "fields") := by unfold lit; rfl

/-- The words before the value of the object that is the `type`, behind its class. -/
def classWords (gap datatypeClass : Text) : List Text :=
  [lit "type", ':' :: (gap ++ ['{']), lit "class", lit ": ", datatypeClass, lit ", "]

theorem render_classWords (gap datatypeClass key : Text) (x : Json)
    (members : List (Text × Json)) :
    (wrapped gap (.object blank blank ((lit "class", .string datatypeClass) ::
        (key, x) :: members))).render =
      ['{'] ++ behindQuotes (classWords gap datatypeClass)
        (quoted key ++ (lit ": " ++ (x.render ++
          Json.behind blank (lit "\x7d\x7d") (Json.renderMembers blank members)))) := by
  have hclose : lit "\x7d\x7d" = ['}', '}'] := by unfold lit; rfl
  have hcolon : lit ": " = ':' :: blank := by unfold blank lit; rfl
  have hcomma : lit ", " = ',' :: blank := by unfold blank lit; rfl
  have hentries := Json.intercalate_cons blank
    (quoted key ++ ':' :: (blank ++ x.render)) ['}', '}'] (Json.renderMembers blank members)
  rw [render_wrapped, Json.render, Json.renderMembers, Json.renderMembers]
  simp only [List.cons_append, List.append_assoc, List.nil_append, hclose, hcolon, hcomma,
    classWords, behindQuotes, List.foldr_cons, List.foldr_nil] at hentries ⊢
  rw [← hentries]
  simp [List.intercalate, quoted, Json.render]
/-- The words before a key pass the search for it. -/
theorem classWords_ne {gap datatypeClass key : Text} (hgap : Json.Blank gap)
    (hclass : '"' ∉ datatypeClass ∧ key ≠ datatypeClass)
    (hkey : key ≠ lit "type" ∧ key ≠ lit "class" ∧ key.head? ≠ some ':' ∧ key.head? ≠ some ',') :
    ∀ word ∈ classWords gap datatypeClass, '"' ∉ word ∧ key ≠ word := by
  have hquotes : '"' ∉ lit "type" ∧ '"' ∉ lit "class" ∧ '"' ∉ lit ": " ∧ '"' ∉ lit ", " := by
    unfold lit
    decide
  have hheads : (lit ": ").head? = some ':' ∧ (lit ", ").head? = some ',' := by
    unfold lit
    decide
  have hblank : '"' ∉ gap := by
    intro h
    cases hgap _ h
  intro word hword
  simp only [classWords, List.mem_cons, List.not_mem_nil, or_false] at hword
  rcases hword with rfl | rfl | rfl | rfl | rfl | rfl
  · exact ⟨hquotes.1, hkey.1⟩
  · refine ⟨by simp [hblank], ?_⟩
    rintro rfl
    exact hkey.2.2.1 rfl
  · exact ⟨hquotes.2.1, hkey.2.1⟩
  · refine ⟨hquotes.2.2.1, ?_⟩
    rintro rfl
    exact hkey.2.2.1 hheads.1
  · exact hclass
  · refine ⟨hquotes.2.2.2, ?_⟩
    rintro rfl
    exact hkey.2.2.2 hheads.2

/-- The section of the `base` is converted as a datatype of its own. -/
theorem convertBase_wrapped (convert : Text → Outcome Datatype) {gap datatypeClass : Text}
    {comma colon : Text} {base members : List (Text × Json)} (hgap : Json.Blank gap)
    (hclass : '"' ∉ datatypeClass ∧ lit "base" ≠ datatypeClass)
    (hplain : (Json.object comma colon base).Plain) :
    convertBase convert (wrapped gap (.object blank blank ((lit "class", .string datatypeClass) ::
        (lit "base", .object comma colon base) :: members))).render =
      convert (wrapped [] (.object comma colon base)).render := by
  have hbrace : '{' ∉ quoted (lit "base") ++ lit ": " := by unfold quoted lit; decide
  have hfind := @strstr_key ['{'] _ (lit ": " ++ ((Json.object comma colon base).render ++
      Json.behind blank (lit "\x7d\x7d") (Json.renderMembers blank members)))
    _ (show '"' ∉ lit "base" by unfold lit; decide) (by decide)
    (classWords_ne hgap hclass (by unfold lit; decide))
  rw [← render_classWords] at hfind
  rw [convertBase, quoted_lit_base,
    findSection_object hbrace hplain (by rw [hfind, List.append_assoc])]
  have htext : lit "\x7b\"type\":" ++ (Json.object comma colon base).render ++ lit "\x7d" =
      (wrapped [] (.object comma colon base)).render := by
    rw [render_wrapped, quoted]
    simp only [List.cons_append, List.append_assoc, List.nil_append]
    unfold lit
    rfl
  simp only [before_append, htext]

/-! ## The members of a compound -/

/-- The search for a type passes over the text in front of a member. -/
def PassesOver (lead : Text) : Prop :=
  ∀ text, strstr (quoted (lit "type")) (lead ++ '{' :: '"' :: text) =
    strstr (quoted (lit "type")) ('"' :: text)

theorem passesOver_comma : PassesOver (',' :: blank) := by
  intro text
  have hpre : '"' ∉ (',' :: blank) ++ ['{'] := by unfold blank lit; decide
  have hskip := @strstr_append _ (lit "type" ++ ['"']) _ ('"' :: text) hpre
  rwa [List.append_assoc] at hskip

theorem passesOver_fields : PassesOver (quoted (lit "fields") ++ lit ": [") := by
  intro text
  have hwords : ∀ word ∈ [lit "fields", lit ": [" ++ ['{']], '"' ∉ word ∧ lit "type" ≠ word := by
    unfold lit
    decide
  have hskip := @strstr_behindQuotes _ text _ (show '"' ∉ lit "type" by unfold lit; decide) hwords
  rw [← hskip]
  simp [behindQuotes, quoted]

/-- The section of a member's type, behind its name. -/
theorem findSection_field {name lead tail : Text} {comma colon : Text}
    {members : List (Text × Json)} (hname : Json.PlainText name) (hne : name ≠ lit "type")
    (hlead : PassesOver lead) (hplain : (Json.object comma colon members).Plain) :
    findSection (lit "\"type\"") (lead ++ ((Json.object blank blank
        [(lit "name", .string name), (lit "type", .object comma colon members)]).render ++ tail)) =
      some (quoted (lit "type") ++ lit ": " ++
          ((Json.object comma colon members).render ++ '}' :: tail),
        (Json.object comma colon members).render ++ '}' :: tail, '}' :: tail) := by
  have hbrace : '{' ∉ quoted (lit "type") ++ lit ": " := by unfold quoted lit; decide
  have hquote : '"' ∉ name := fun h => (hname _ h).1 rfl
  have hwords : ∀ word ∈ [lit "name", lit ": ", name, lit ", "],
      '"' ∉ word ∧ lit "type" ≠ word := by
    have hlits : ∀ word ∈ [lit "name", lit ": ", lit ", "], '"' ∉ word ∧ lit "type" ≠ word := by
      unfold lit
      decide
    intro word hword
    simp only [List.mem_cons, List.not_mem_nil, or_false] at hword hlits
    rcases hword with h | h | h | h
    · exact hlits word (Or.inl h)
    · exact hlits word (Or.inr (Or.inl h))
    · exact h ▸ ⟨hquote, hne.symm⟩
    · exact hlits word (Or.inr (Or.inr h))
  have hfind := @strstr_key [] _ (lit ": " ++
      ((Json.object comma colon members).render ++ '}' :: tail))
    _ (show '"' ∉ lit "type" by unfold lit; decide) (by decide) hwords
  have hcolon : lit ": " = ':' :: blank := by unfold blank lit; rfl
  have hcomma : lit ", " = ',' :: blank := by unfold blank lit; rfl
  have htext : (Json.object blank blank
      [(lit "name", .string name), (lit "type", .object comma colon members)]).render ++ tail =
      '{' :: (behindQuotes [lit "name", lit ": ", name, lit ", "] (quoted (lit "type") ++
        (lit ": " ++ ((Json.object comma colon members).render ++ '}' :: tail)))) := by
    rw [hcolon, hcomma]
    simp [Json.render, Json.renderMembers, List.intercalate, behindQuotes, quoted]
  rw [List.nil_append] at hfind
  apply findSection_object hbrace hplain
  rw [quoted_lit_type, htext]
  have hskip := hlead (lit "name" ++ behindQuotes [lit ": ", name, lit ", "]
    (quoted (lit "type") ++ (lit ": " ++
      ((Json.object comma colon members).render ++ '}' :: tail))))
  exact (hskip.trans hfind).trans (by rw [List.append_assoc])
/-- The value is an object. -/
def IsObject (x : Json) : Prop := ∃ comma colon members, x = .object comma colon members

/-- The types of the members are converted from their sections, each as a datatype of its own. -/
theorem compoundMemberTypes_fields (convert : Text → Outcome Datatype) (tail : Text) :
    ∀ (m : Text × Nat × Datatype) (members : List (Text × Nat × Datatype)) (lead : Text),
      PassesOver lead → (∀ n ∈ m :: members, IsObject n.2.2.tree) → PlainFields (m :: members) →
      compoundMemberTypes convert (m :: members).length (lead ++
          ((',' :: blank).intercalate (Json.renderItems (fieldTrees (m :: members))) ++
            ']' :: tail)) =
        Outcome.traverse (fun m => convert (wrapped blank m.2.2.tree).render) (m :: members)
  | (name, offset, memberType), members, lead, hlead, hobjects, hplain => by
      obtain ⟨comma, colon, object, hobject⟩ := hobjects (name, offset, memberType) (by simp)
      simp only [PlainFields] at hplain hobject
      have hmember := plain_tree memberType hplain.2.2.1
      have hwrapped : lit "\x7b" ++ (quoted (lit "type") ++ lit ": " ++ memberType.tree.render) ++
          lit "\x7d" = (wrapped blank memberType.tree).render := by
        rw [render_wrapped]
        simp only [quoted, List.cons_append, List.append_assoc, List.nil_append]
        unfold blank lit
        rfl
      rw [hobject] at hmember
      have hfind := @findSection_field _ _ (Json.behind blank (']' :: tail)
        (Json.renderItems (fieldTrees members)))
        _ _ _ hplain.1 hplain.2.1 hlead hmember
      rw [fieldTrees, Json.renderItems_cons, Json.intercalate_cons, List.length_cons,
        compoundMemberTypes, hobject, hfind, Outcome.traverse]
      have hbefore : ∀ first second rest : Text,
          before (first ++ (second ++ rest)) rest = first ++ second := by
        intro first second rest
        rw [← List.append_assoc, before_append]
      simp only [hbefore, ← hobject, hwrapped, List.tail_cons]
      apply congrArg
      funext image
      cases members with
      | nil =>
          simp [compoundMemberTypes, Outcome.traverse]
      | cons next members =>
          have hrest := compoundMemberTypes_fields convert tail next members (',' :: blank)
            passesOver_comma (fun n h => hobjects n (List.mem_cons_of_mem _ h)) hplain.2.2.2
          rw [← hrest]
          cases next with
          | mk name rest => simp [Json.behind, fieldTrees, Json.renderItems_cons]

theorem compoundMemberNames_fields (members : List (Text × Nat × Datatype)) :
    compoundMemberNames (Json.valueItems (fieldTrees members)) =
      .ok (members.map fun m => some m.1) := by
  induction members with
  | nil => rfl
  | cons m members ih =>
      cases m with
      | mk name rest =>
          have hne : lit "type" ≠ lit "name" := by unfold lit; decide
          simp [fieldTrees, Json.valueItems, Json.value, Json.valueMembers, compoundMemberNames,
            lastName, hne, ih]
/-! ## Reading -/

theorem isObject_of_convert {t : Datatype} {nested : Bool} {text : Text}
    (h : rvConvertDatatypeToJson nested t = .ok text) : IsObject t.tree := by
  cases t with
  | integer base => exact ⟨_, _, _, rfl⟩
  | float size order => exact ⟨_, _, _, by rw [Datatype.tree]⟩
  | string length pad charSet =>
      cases length with
      | none => exact ⟨_, _, _, by rw [Datatype.tree]⟩
      | some length => exact ⟨_, _, _, by rw [Datatype.tree]⟩
  | compound size members => exact ⟨_, _, _, by rw [Datatype.tree]⟩
  | enum base members => exact ⟨_, _, _, by rw [Datatype.tree]⟩
  | array base dims => exact ⟨_, _, _, by rw [Datatype.tree]⟩
  | reference kind => exact ⟨_, _, _, by rw [Datatype.tree]⟩
  | other size => cases h

theorem convert_of_strings {members : List (Text × Nat × Datatype)} {strings : List Text}
    (h : compoundMemberStrings members = .ok strings) :
    ∀ m ∈ members, ∃ body, rvConvertDatatypeToJson false m.2.2 = .ok body := by
  induction members generalizing strings with
  | nil => simp
  | cons m members ih =>
      cases m with
      | mk name rest =>
          rw [compoundMemberStrings] at h
          obtain ⟨body, hbody, h⟩ := Outcome.bind_eq_ok_iff.mp h
          obtain ⟨others, hothers, _⟩ := Outcome.bind_eq_ok_iff.mp h
          intro n hn
          rcases List.mem_cons.mp hn with rfl | hn
          · exact ⟨body, hbody⟩
          · exact ih hothers n hn

/-- The text of a member's type on its own is no longer than the texts of all members. -/
theorem length_wrapped_le {members : List (Text × Nat × Datatype)} {m : Text × Nat × Datatype}
    (hm : m ∈ members) : (wrapped blank m.2.2.tree).render.length ≤
      ((',' :: blank).intercalate (Json.renderItems (fieldTrees members))).length := by
  induction members with
  | nil => cases hm
  | cons first members ih =>
      have hcons := congrArg List.length (Json.intercalate_cons blank
        (Json.object blank blank [(lit "name", .string first.1),
          (lit "type", first.2.2.tree)]).render [] (Json.renderItems (fieldTrees members)))
      cases first with
      | mk name rest =>
          rw [fieldTrees, Json.renderItems_cons]
          rw [List.append_nil, List.length_append] at hcons
          rw [hcons]
          rcases List.mem_cons.mp hm with rfl | hm
          · simp [render_wrapped, Json.render, Json.renderMembers, quoted, List.intercalate]
            omega
          · apply Nat.le_trans (ih hm)
            cases hitems : Json.renderItems (fieldTrees members) with
            | nil => simp [List.intercalate]
            | cons item items =>
                simp [Json.behind]
                omega

/-- The keys of a type are different. -/
theorem keys_ne :
    lit "class" ≠ lit "base" ∧ lit "class" ≠ lit "fields" ∧ lit "class" ≠ lit "mapping" ∧
      lit "class" ≠ lit "dims" ∧ lit "class" ≠ lit "length" ∧ lit "class" ≠ lit "charSet" ∧
      lit "class" ≠ lit "strPad" ∧ lit "base" ≠ lit "mapping" ∧ lit "base" ≠ lit "dims" ∧
      lit "charSet" ≠ lit "strPad" ∧ lit "charSet" ≠ lit "length" ∧
      lit "strPad" ≠ lit "length" := by
  unfold lit
  decide

/-- The classes are different. -/
theorem classes_ne :
    lit "H5T_FLOAT" ≠ lit "H5T_INTEGER" ∧ lit "H5T_STRING" ≠ lit "H5T_INTEGER" ∧
      lit "H5T_STRING" ≠ lit "H5T_FLOAT" ∧ lit "H5T_COMPOUND" ≠ lit "H5T_INTEGER" ∧
      lit "H5T_COMPOUND" ≠ lit "H5T_FLOAT" ∧ lit "H5T_COMPOUND" ≠ lit "H5T_STRING" ∧
      lit "H5T_ARRAY" ≠ lit "H5T_INTEGER" ∧ lit "H5T_ARRAY" ≠ lit "H5T_FLOAT" ∧
      lit "H5T_ARRAY" ≠ lit "H5T_STRING" ∧ lit "H5T_ARRAY" ≠ lit "H5T_COMPOUND" ∧
      lit "H5T_ENUM" ≠ lit "H5T_INTEGER" ∧ lit "H5T_ENUM" ≠ lit "H5T_FLOAT" ∧
      lit "H5T_ENUM" ≠ lit "H5T_STRING" ∧ lit "H5T_ENUM" ≠ lit "H5T_COMPOUND" ∧
      lit "H5T_ENUM" ≠ lit "H5T_ARRAY" ∧ lit "H5T_REFERENCE" ≠ lit "H5T_INTEGER" ∧
      lit "H5T_REFERENCE" ≠ lit "H5T_FLOAT" ∧ lit "H5T_REFERENCE" ≠ lit "H5T_STRING" ∧
      lit "H5T_REFERENCE" ≠ lit "H5T_COMPOUND" ∧ lit "H5T_REFERENCE" ≠ lit "H5T_ARRAY" ∧
      lit "H5T_REFERENCE" ≠ lit "H5T_ENUM" := by
  unfold lit
  decide

theorem valueMembers_mapping (base : IntegerType) (members : List (Text × Int)) :
    Json.valueMembers (mappingOf base members) = mappingOf base members := by
  induction members with
  | nil => rfl
  | cons m members ih =>
      simp only [mappingOf, List.map_cons, Json.valueMembers, Json.value] at ih ⊢
      rw [ih]

theorem valueItems_ne_nil (m : Text × Nat × Datatype) (members : List (Text × Nat × Datatype)) :
    Json.valueItems (fieldTrees (m :: members)) ≠ [] := by
  cases m with
  | mk name rest => simp [fieldTrees, Json.valueItems]

theorem length_valueItems (members : List (Text × Nat × Datatype)) :
    (Json.valueItems (fieldTrees members)).length = members.length := by
  induction members with
  | nil => rfl
  | cons m members ih =>
      cases m with
      | mk name rest => simp [fieldTrees, Json.valueItems, ih]

/-- The value of a compound with these fields. -/
def compoundTree (fields : List Json) : Json :=
  .object blank blank [(lit "class", .string (lit "H5T_COMPOUND")),
    (lit "fields", .array blank fields)]

/-- The text of the base on its own is shorter than the whole text. -/
theorem length_base_lt (gap datatypeClass : Text) (x : Json) (members : List (Text × Json)) :
    (wrapped [] x).render.length + 1 <
      (wrapped gap (.object blank blank ((lit "class", .string datatypeClass) ::
        (lit "base", x) :: members))).render.length := by
  rw [render_classWords, render_wrapped]
  simp [classWords, behindQuotes, quoted]
  omega

theorem tree_compound (size : Nat) (members : List (Text × Nat × Datatype)) :
    (Datatype.compound size members).tree = compoundTree (fieldTrees members) := by
  rw [Datatype.tree, compoundTree]

theorem length_items_lt (gap : Text) (fields : List Json) :
    ((',' :: blank).intercalate (Json.renderItems fields)).length + 1 <
      (wrapped gap (compoundTree fields)).render.length := by
  rw [compoundTree, render_classWords]
  simp [Json.render, classWords, behindQuotes]
  omega

/-- The search for the fields of a compound ends in front of the first one. -/
theorem strstr_fields {gap : Text} (hgap : Json.Blank gap) (fields : List Json) :
    strstr (lit "\"fields\"") (wrapped gap (compoundTree fields)).render =
      some ((quoted (lit "fields") ++ lit ": [") ++
        ((',' :: blank).intercalate (Json.renderItems fields) ++ ']' :: lit "\x7d\x7d")) := by
  have hopen : lit ": [" = lit ": " ++ ['['] := by unfold lit; rfl
  have hfind := @strstr_key ['{'] _ (lit ": " ++ ((Json.array blank fields).render ++
      Json.behind blank (lit "\x7d\x7d") (Json.renderMembers blank [])))
    _ (show '"' ∉ lit "fields" by unfold lit; decide) (by decide) (classWords_ne hgap
      (show '"' ∉ lit "H5T_COMPOUND" ∧ lit "fields" ≠ lit "H5T_COMPOUND" by unfold lit; decide)
      (by unfold lit; decide))
  rw [← render_classWords] at hfind
  rw [quoted_lit_fields, compoundTree, hfind, hopen]
  simp [Json.render, Json.renderMembers, Json.behind]

section ReadImage

variable {parse : Text → Option Json}

theorem read_integer (hparse : Json.ReadsJson parse) (base : IntegerType) {gap : Text}
    (hgap : Json.Blank gap) (depth : Nat) :
    rvConvertJsonToDatatype parse (depth + 1) (wrapped gap base.tree).render =
      (Datatype.integer base).image := by
  have hclass : base.tree.value.member (lit "class") = some (.string (lit "H5T_INTEGER")) := by
    simp [IntegerType.tree, Json.value, Json.valueMembers, Json.member]
  have hbase : base.tree.value.member (lit "base") = some (.string base.nameText) := by
    simp [IntegerType.tree, Json.value, Json.valueMembers, Json.member, keys_ne]
  rw [rvConvertJsonToDatatype_wrapped hparse (plain_wrapped hgap (plain_integerTree base)) hclass]
  simp only [convertClass, if_true, typeBase, at?_wrapped, hbase, Outcome.ok_bind, Datatype.image]

mutual

/-- The text of a datatype on its own is read as the image of the datatype. -/
theorem read_image (hparse : Json.ReadsJson parse) : ∀ (t : Datatype) (nested : Bool) (text gap : Text) (depth : Nat),
    rvConvertDatatypeToJson nested t = .ok text → t.PlainNames → Json.Blank gap →
      (wrapped gap t.tree).render.length ≤ depth + 1 →
        rvConvertJsonToDatatype parse (depth + 1) (wrapped gap t.tree).render = t.image
  | .integer base, _, _, gap, depth, _, _, hgap, _ => by
      rw [Datatype.tree]
      exact read_integer hparse base hgap depth
  | .float size order, _, _, gap, depth, _, hplain, hgap, _ => by
      have hclass : (Datatype.float size order).tree.value.member (lit "class") =
          some (.string (lit "H5T_FLOAT")) := by
        simp [Datatype.tree, Json.value, Json.valueMembers, Json.member]
      have hbase : (Datatype.float size order).tree.value.member (lit "base") =
          some (.string (predefinedName (lit "IEEE") (lit "F") size order)) := by
        simp [Datatype.tree, Json.value, Json.valueMembers, Json.member, keys_ne]
      rw [rvConvertJsonToDatatype_wrapped hparse (plain_wrapped hgap (plain_tree _ hplain)) hclass]
      simp [convertClass, classes_ne, typeBase, at?_wrapped, hbase, Datatype.image]
  | .string none pad charSet, _, _, gap, depth, _, hplain, hgap, _ => by
      have hclass : (Datatype.string none pad charSet).tree.value.member (lit "class") =
          some (.string (lit "H5T_STRING")) := by
        simp [Datatype.tree, Json.value, Json.valueMembers, Json.member]
      have hlength : (Datatype.string none pad charSet).tree.value.member (lit "length") =
          some (.string (lit "H5T_VARIABLE")) := by
        simp [Datatype.tree, Json.value, Json.valueMembers, Json.member, keys_ne]
      have hcharSet : (Datatype.string none pad charSet).tree.value.member (lit "charSet") =
          some (.string (lit "H5T_CSET_ASCII")) := by
        simp [Datatype.tree, Json.value, Json.valueMembers, Json.member, keys_ne]
      have hstrPad : (Datatype.string none pad charSet).tree.value.member (lit "strPad") =
          some (.string (lit "H5T_STR_NULLTERM")) := by
        simp [Datatype.tree, Json.value, Json.valueMembers, Json.member, keys_ne]
      rw [rvConvertJsonToDatatype_wrapped hparse (plain_wrapped hgap (plain_tree _ hplain)) hclass]
      simp [convertClass, classes_ne, convertString, at?_wrapped, hlength, hcharSet, hstrPad,
        Datatype.image]
  | .string (some length) pad charSet, _, _, gap, depth, _, hplain, hgap, _ => by
      have hclass : (Datatype.string (some length) pad charSet).tree.value.member (lit "class") =
          some (.string (lit "H5T_STRING")) := by
        simp [Datatype.tree, Json.value, Json.valueMembers, Json.member]
      have hlength : (Datatype.string (some length) pad charSet).tree.value.member (lit "length") =
          some (.number length) := by
        simp [Datatype.tree, Json.value, Json.valueMembers, Json.member, keys_ne]
      have hcharSet : (Datatype.string (some length) pad charSet).tree.value.member
          (lit "charSet") = some (.string (lit "H5T_CSET_ASCII")) := by
        simp [Datatype.tree, Json.value, Json.valueMembers, Json.member, keys_ne]
      have hstrPad : (Datatype.string (some length) pad charSet).tree.value.member
          (lit "strPad") = some (.string (lit "H5T_STR_NULLPAD")) := by
        simp [Datatype.tree, Json.value, Json.valueMembers, Json.member, keys_ne]
      rw [rvConvertJsonToDatatype_wrapped hparse (plain_wrapped hgap (plain_tree _ hplain)) hclass]
      simp [convertClass, classes_ne, convertString, at?_wrapped, hlength, hcharSet, hstrPad,
        Datatype.image]
  | .compound size members, nested, text, gap, depth, h, hplain, hgap, hdepth => by
      obtain ⟨_, h⟩ := sized_eq_ok (by rwa [rvConvertDatatypeToJson] at h)
      obtain ⟨strings, hstrings, _⟩ := Outcome.bind_eq_ok_iff.mp h
      have hclass : (Datatype.compound size members).tree.value.member (lit "class") =
          some (.string (lit "H5T_COMPOUND")) := by
        simp [Datatype.tree, Json.value, Json.valueMembers, Json.member]
      have hfields : (Datatype.compound size members).tree.value.member (lit "fields") =
          some (.array [] (Json.valueItems (fieldTrees members))) := by
        simp [Datatype.tree, Json.value, Json.valueMembers, Json.member, keys_ne]
      rw [rvConvertJsonToDatatype_wrapped hparse (plain_wrapped hgap (plain_tree _ hplain)) hclass]
      simp only [convertClass, classes_ne, if_true, if_false, convertCompound, at?_wrapped, hfields,
        compoundMemberNames_fields, Outcome.ok_bind, Datatype.image]
      rw [Datatype.PlainNames] at hplain
      cases members with
      | nil => simp [fieldTrees, Json.valueItems]
      | cons m members =>
          have hobjects : ∀ n ∈ m :: members, IsObject n.2.2.tree := fun n hn =>
            (convert_of_strings hstrings n hn).elim fun _ hbody => isObject_of_convert hbody
          have hlengths : ∀ n ∈ m :: members,
              (wrapped blank n.2.2.tree).render.length ≤ depth := by
            intro n hn
            have hitem := length_wrapped_le hn
            have htext := length_items_lt gap (fieldTrees (m :: members))
            rw [tree_compound] at hdepth
            omega
          have htypes := compoundMemberTypes_fields (rvConvertJsonToDatatype parse depth)
            (lit "\x7d\x7d") m members _ passesOver_fields hobjects hplain
          rw [read_imageFields hparse (m :: members) strings depth hstrings hplain hlengths] at htypes
          rw [if_neg (valueItems_ne_nil m members), length_valueItems, tree_compound,
            strstr_fields hgap, if_neg (List.cons_ne_nil m members)]
          simp only [htypes]
  | .enum base members, nested, text, gap, depth, h, hplain, hgap, hdepth => by
      have hne : members ≠ [] := by
        rintro rfl
        obtain ⟨_, h⟩ := sized_eq_ok (by rwa [rvConvertDatatypeToJson] at h)
        simp at h
      have hclass : (Datatype.enum base members).tree.value.member (lit "class") =
          some (.string (lit "H5T_ENUM")) := by
        simp [Datatype.tree, Json.value, Json.valueMembers, Json.member]
      have hmapping : (Datatype.enum base members).tree.value.member (lit "mapping") =
          some (.object [] [] (mappingOf base members)) := by
        have hvalues := valueMembers_mapping base members
        rw [mappingOf] at hvalues
        simp [Datatype.tree, Json.value, Json.valueMembers, Json.member, keys_ne, mappingOf,
          hvalues]
      have hbase : convertBase (rvConvertJsonToDatatype parse depth)
          (wrapped gap (Datatype.enum base members).tree).render =
          (Datatype.integer base).image := by
        rw [Datatype.tree] at hdepth ⊢
        have hlength := length_base_lt gap (lit "H5T_ENUM") base.tree
          [(lit "mapping", .object blank blank (members.map fun m =>
            (m.1, .number (enumValue base m.2))))]
        rw [IntegerType.tree, convertBase_wrapped _ hgap (by unfold lit; decide)
          (plain_integerTree base), ← IntegerType.tree]
        cases depth with
        | zero => omega
        | succ depth => exact read_integer hparse base (by decide) depth
      rw [rvConvertJsonToDatatype_wrapped hparse (plain_wrapped hgap (plain_tree _ hplain)) hclass]
      simp only [convertClass, classes_ne, if_true, if_false, convertEnum, hbase, Datatype.image, hne]
      cases integerOfBase base.nameText with
      | undefined | fail => rfl
      | ok image => simp only [Outcome.ok_bind, at?_wrapped, hmapping]
  | .array base dims, nested, text, gap, depth, h, hplain, hgap, hdepth => by
      obtain ⟨_, h⟩ := sized_eq_ok (by rwa [rvConvertDatatypeToJson] at h)
      split at h
      · cases h
      · next hne =>
          obtain ⟨shape, _, h⟩ := Outcome.bind_eq_ok_iff.mp h
          obtain ⟨baseType, hconvert, _⟩ := Outcome.bind_eq_ok_iff.mp h
          have hclass : (Datatype.array base dims).tree.value.member (lit "class") =
              some (.string (lit "H5T_ARRAY")) := by
            simp [Datatype.tree, Json.value, Json.valueMembers, Json.member]
          have hdims : (Datatype.array base dims).tree.value.member (lit "dims") =
              some (.array [] (dims.map fun d : Nat => .number d)) := by
            simp [Datatype.tree, Json.value, Json.valueMembers, Json.member, keys_ne,
              Json.valueItems_numbers]
          have hbase : convertBase (rvConvertJsonToDatatype parse depth)
              (wrapped gap (Datatype.array base dims).tree).render = base.image := by
            rw [Datatype.PlainNames] at hplain
            obtain ⟨comma, colon, object, hobject⟩ := isObject_of_convert hconvert
            have hbasePlain := plain_tree base hplain
            have hlength := length_base_lt gap (lit "H5T_ARRAY") base.tree
              [(lit "dims", .array [] (dims.map fun d : Nat => .number d))]
            rw [Datatype.tree] at hdepth ⊢
            rw [hobject] at hbasePlain
            rw [hobject, convertBase_wrapped _ hgap (by unfold lit; decide) hbasePlain, ← hobject]
            cases depth with
            | zero => omega
            | succ depth =>
                exact read_image hparse base true baseType [] depth hconvert hplain (by decide) (by omega)
          rw [rvConvertJsonToDatatype_wrapped hparse (plain_wrapped hgap (plain_tree _ hplain))
            hclass]
          simp only [convertClass, classes_ne, if_true, if_false, convertArray, at?_wrapped, hdims,
            hbase, Datatype.image, List.map_eq_nil_iff, hne]
  | .reference kind, _, _, gap, depth, _, hplain, hgap, _ => by
      have hclass : (Datatype.reference kind).tree.value.member (lit "class") =
          some (.string (lit "H5T_REFERENCE")) := by
        simp [Datatype.tree, Json.value, Json.valueMembers, Json.member]
      have hbase : (Datatype.reference kind).tree.value.member (lit "base") =
          some (.string (if kind = .object then lit "H5T_STD_REF_OBJ"
            else lit "H5T_STD_REF_DSETREG")) := by
        simp [Datatype.tree, Json.value, Json.valueMembers, Json.member, keys_ne]
      have hne : lit "H5T_STD_REF_DSETREG" ≠ lit "H5T_STD_REF_OBJ" := by unfold lit; decide
      rw [rvConvertJsonToDatatype_wrapped hparse (plain_wrapped hgap (plain_tree _ hplain)) hclass]
      simp only [convertClass, classes_ne, if_true, if_false, typeBase, at?_wrapped, hbase,
        Outcome.ok_bind, referenceOfBase, Datatype.image]
      by_cases hkind : kind = .object <;> simp [hkind, hne]
  | .other _, _, _, gap, depth, h, _, _, _ => by
      cases h

/-- The member types are read as their images. -/
theorem read_imageFields (hparse : Json.ReadsJson parse) :
    ∀ (members : List (Text × Nat × Datatype)) (strings : List Text) (depth : Nat),
      compoundMemberStrings members = .ok strings → PlainFields members →
      (∀ m ∈ members, (wrapped blank m.2.2.tree).render.length ≤ depth) →
        Outcome.traverse (fun m : Text × Nat × Datatype =>
            rvConvertJsonToDatatype parse depth (wrapped blank m.2.2.tree).render) members =
          imageFields members
  | [], _, _, _, _, _ => by
      rw [imageFields, Outcome.traverse]
  | (name, offset, memberType) :: members, strings, depth, h, hplain, hdepth => by
      rw [compoundMemberStrings] at h
      obtain ⟨body, hbody, h⟩ := Outcome.bind_eq_ok_iff.mp h
      obtain ⟨others, hothers, _⟩ := Outcome.bind_eq_ok_iff.mp h
      rw [PlainFields] at hplain
      have hlength := hdepth (name, offset, memberType) (by simp)
      have hothers := read_imageFields hparse members others depth hothers hplain.2.2.2
        fun m hm => hdepth m (List.mem_cons_of_mem _ hm)
      cases depth with
      | zero =>
          rw [render_wrapped] at hlength
          cases hlength
      | succ depth =>
          have hfirst := read_image hparse memberType false body blank depth hbody hplain.2.2.1
            blank_blank hlength
          rw [Outcome.traverse, imageFields, hfirst, hothers]

end

end ReadImage

end XHDF5.Client
