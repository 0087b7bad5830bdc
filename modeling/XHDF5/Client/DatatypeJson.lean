/-
# The JSON values of datatypes

What the writer formats is the text of a JSON value, and with plain member names it is a plain one.
A count of braces over such a text stops where the value ends, whatever its strings contain.
-/

import XHDF5.Client.Datatype

namespace XHDF5.Client

open XHDF5.Math

/-! ## Values -/

/-- The blank behind commas and colons. -/
def blank : Text := lit " "

/-- The name of an integer, without the check of its length. -/
def IntegerType.nameText (base : IntegerType) : Text :=
  predefinedName (lit "STD") (if base.signed then lit "I" else lit "U") base.size base.order

/-- The JSON value of an integer. -/
def IntegerType.tree (base : IntegerType) : Json :=
  .object blank blank [(lit "class", .string (lit "H5T_INTEGER")),
    (lit "base", .string base.nameText)]

mutual

/-- The JSON value of a datatype. -/
def Datatype.tree : Datatype → Json
  | .integer base => base.tree
  | .float size order =>
      .object blank blank [(lit "class", .string (lit "H5T_FLOAT")),
        (lit "base", .string (predefinedName (lit "IEEE") (lit "F") size order))]
  | .string none _ _ =>
      .object blank blank [(lit "class", .string (lit "H5T_STRING")),
        (lit "charSet", .string (lit "H5T_CSET_ASCII")),
        (lit "strPad", .string (lit "H5T_STR_NULLTERM")),
        (lit "length", .string (lit "H5T_VARIABLE"))]
  | .string (some length) _ _ =>
      .object blank blank [(lit "class", .string (lit "H5T_STRING")),
        (lit "charSet", .string (lit "H5T_CSET_ASCII")),
        (lit "strPad", .string (lit "H5T_STR_NULLPAD")), (lit "length", .number length)]
  | .compound _ members =>
      .object blank blank [(lit "class", .string (lit "H5T_COMPOUND")),
        (lit "fields", .array blank (fieldTrees members))]
  | .enum base members =>
      .object blank blank [(lit "class", .string (lit "H5T_ENUM")), (lit "base", base.tree),
        (lit "mapping", .object blank blank (members.map fun m =>
          (m.1, .number (enumValue base m.2))))]
  | .array base dims =>
      .object blank blank [(lit "class", .string (lit "H5T_ARRAY")), (lit "base", base.tree),
        (lit "dims", .array [] (dims.map fun d : Nat => .number d))]
  | .reference kind =>
      .object [] blank [(lit "class", .string (lit "H5T_REFERENCE")),
        (lit "base", .string (if kind = .object then lit "H5T_STD_REF_OBJ"
          else lit "H5T_STD_REF_DSETREG"))]
  | .other _ => .number 0

/-- The JSON values of the members of a compound. -/
def fieldTrees : List (Text × Nat × Datatype) → List Json
  | [] => []
  | (name, _, memberType) :: members =>
      .object blank blank [(lit "name", .string name), (lit "type", memberType.tree)] ::
        fieldTrees members

end

mutual

/-- Names that JSON strings show as themselves. No member of a compound is called like the key of
its type. -/
def Datatype.PlainNames : Datatype → Prop
  | .compound _ members => PlainFields members
  | .enum _ members => ∀ m ∈ members, Json.PlainText m.1
  | .array base _ => base.PlainNames
  | _ => True

/-- The names of and in the members of a compound. -/
def PlainFields : List (Text × Nat × Datatype) → Prop
  | [] => True
  | (name, _, memberType) :: members =>
      Json.PlainText name ∧ name ≠ lit "type" ∧ memberType.PlainNames ∧ PlainFields members

end

/-! ## What the writer formats -/

theorem flatten_shapeParts (dims : List Nat) :
    (shapeParts dims).flatten = [','].intercalate (dims.map decimal) := by
  cases dims with
  | nil => rfl
  | cons d dims =>
      induction dims generalizing d with
      | nil => simp [shapeParts, List.intercalate]
      | cons e dims ih =>
          have hnext := ih e
          simp only [shapeParts, List.map_cons, List.flatten_cons] at hnext ⊢
          rw [List.cons_append, hnext]
          simp [List.intercalate]

theorem arrayShape_eq_ok {dims : List Nat} {shape : Text} (h : arrayShape dims = .ok shape) :
    shape = (Json.array [] (dims.map fun d : Nat => .number d)).render := by
  rw [arrayShape] at h
  split at h
  · rw [← Outcome.ok.inj h, Json.render, Json.renderItems_numbers, flatten_shapeParts]
  · cases h

theorem renderMembers_mapping (base : IntegerType) (members : List (Text × Int)) :
    Json.renderMembers blank (members.map fun m => (m.1, Json.number (enumValue base m.2))) =
      members.map fun m => lit "\"" ++ m.1 ++ lit "\": " ++ decimalInt (enumValue base m.2) := by
  induction members with
  | nil => rfl
  | cons m members ih =>
      rw [List.map_cons, Json.renderMembers, ih, List.map_cons]
      simp only [Json.render, quoted, blank, List.cons_append, List.append_assoc, List.nil_append]
      unfold lit
      rfl

theorem predefinedName_eq_ok {family kind name : Text} {size : Nat} {order : ByteOrder}
    (h : rvConvertPredefinedDatatypeToString family kind size order = .ok name) :
    name = predefinedName family kind size order := by
  simp only [rvConvertPredefinedDatatypeToString] at h
  split at h
  · cases h
  · exact (Outcome.ok.inj h).symm

theorem name_eq_ok {base : IntegerType} {name : Text} (h : base.name = .ok name) :
    name = base.nameText := by
  exact predefinedName_eq_ok h

theorem sized_eq_ok {size : Nat} {body : Outcome Text} {text : Text}
    (h : sized size body = .ok text) : size ≠ 0 ∧ body = .ok text := by
  rw [sized] at h
  split at h
  · cases h
  · next hsize => exact ⟨hsize, h⟩

theorem intercalate_blank (texts : List Text) :
    (lit ", ").intercalate texts = (',' :: blank).intercalate texts := by
  have hcomma : lit ", " = ',' :: blank := by
    unfold blank lit
    rfl
  rw [hcomma]

mutual

/-- What the writer formats is the text of the datatype's JSON value. -/
theorem convert_eq_ok : ∀ (t : Datatype) (nested : Bool) (text : Text),
    rvConvertDatatypeToJson nested t = .ok text → text = leading nested ++ t.tree.render
  | .integer base, nested, text, h => by
      obtain ⟨_, h⟩ := sized_eq_ok (by rwa [rvConvertDatatypeToJson] at h)
      obtain ⟨name, hname, h⟩ := Outcome.bind_eq_ok_iff.mp h
      rw [← Outcome.ok.inj h, name_eq_ok hname, Datatype.tree, IntegerType.tree]
      simp only [Json.render, Json.renderMembers, quoted, blank, List.intercalate,
        List.intersperse, List.flatten_cons, List.flatten_nil, List.cons_append,
        List.append_assoc, List.nil_append]
      unfold lit
      rfl
  | .float size order, nested, text, h => by
      obtain ⟨_, h⟩ := sized_eq_ok (by rwa [rvConvertDatatypeToJson] at h)
      obtain ⟨name, hname, h⟩ := Outcome.bind_eq_ok_iff.mp h
      rw [← Outcome.ok.inj h, predefinedName_eq_ok hname, Datatype.tree]
      simp only [Json.render, Json.renderMembers, quoted, blank, List.intercalate,
        List.intersperse, List.flatten_cons, List.flatten_nil, List.cons_append,
        List.append_assoc, List.nil_append]
      unfold lit
      rfl
  | .string none _ _, nested, text, h => by
      rw [rvConvertDatatypeToJson] at h
      rw [← Outcome.ok.inj h, Datatype.tree]
      simp only [Json.render, Json.renderMembers, quoted, blank, List.intercalate,
        List.intersperse, List.flatten_cons, List.flatten_nil, List.cons_append,
        List.append_assoc, List.nil_append]
      unfold lit
      rfl
  | .string (some length) _ _, nested, text, h => by
      obtain ⟨_, h⟩ := sized_eq_ok (by rwa [rvConvertDatatypeToJson] at h)
      rw [← Outcome.ok.inj h, Datatype.tree]
      simp only [Json.render, decimalInt_natCast, Json.renderMembers, quoted, blank,
        List.intercalate, List.intersperse, List.flatten_cons, List.flatten_nil, List.cons_append,
        List.append_assoc, List.nil_append]
      unfold lit
      rfl
  | .compound size members, nested, text, h => by
      obtain ⟨_, h⟩ := sized_eq_ok (by rwa [rvConvertDatatypeToJson] at h)
      obtain ⟨strings, hstrings, h⟩ := Outcome.bind_eq_ok_iff.mp h
      split at h
      · cases h
      · rw [← Outcome.ok.inj h, intercalate_blank, strings_eq_ok members strings hstrings,
          Datatype.tree]
        simp only [Json.render, Json.renderMembers, quoted, List.intercalate,
          List.intersperse, List.flatten_cons, List.flatten_nil, List.cons_append,
          List.append_assoc, List.nil_append]
        unfold blank lit
        rfl
  | .enum base members, nested, text, h => by
      obtain ⟨_, h⟩ := sized_eq_ok (by rwa [rvConvertDatatypeToJson] at h)
      split at h
      · cases h
      · obtain ⟨name, hname, h⟩ := Outcome.bind_eq_ok_iff.mp h
        rw [← Outcome.ok.inj h, intercalate_blank, name_eq_ok hname, ← renderMembers_mapping,
          Datatype.tree, IntegerType.tree]
        simp only [Json.render, Json.renderMembers, quoted, List.intercalate, List.intersperse,
          List.flatten_cons, List.flatten_nil, List.cons_append, List.append_assoc,
          List.nil_append]
        unfold blank lit
        rfl
  | .array base dims, nested, text, h => by
      obtain ⟨_, h⟩ := sized_eq_ok (by rwa [rvConvertDatatypeToJson] at h)
      split at h
      · cases h
      · obtain ⟨shape, hshape, h⟩ := Outcome.bind_eq_ok_iff.mp h
        obtain ⟨baseType, hbase, h⟩ := Outcome.bind_eq_ok_iff.mp h
        rw [← Outcome.ok.inj h, arrayShape_eq_ok hshape, convert_eq_ok base true baseType hbase,
          Datatype.tree]
        simp only [leading, Json.render, Json.renderMembers, quoted, List.intercalate,
          List.intersperse, List.flatten_cons, List.flatten_nil, List.cons_append,
          List.append_assoc, List.nil_append, if_true]
        unfold blank lit
        rfl
  | .reference kind, nested, text, h => by
      rw [rvConvertDatatypeToJson] at h
      rw [← Outcome.ok.inj h, Datatype.tree]
      simp only [Json.render, Json.renderMembers, quoted, blank, List.intercalate,
        List.intersperse, List.flatten_cons, List.flatten_nil, List.cons_append,
        List.append_assoc, List.nil_append]
      unfold lit
      rfl
  | .other _, nested, text, h => by
      cases h

theorem strings_eq_ok : ∀ (members : List (Text × Nat × Datatype)) (strings : List Text),
    compoundMemberStrings members = .ok strings → strings = Json.renderItems (fieldTrees members)
  | [], strings, h => by
      rw [compoundMemberStrings] at h
      rw [← Outcome.ok.inj h, fieldTrees, Json.renderItems]
  | (name, offset, memberType) :: members, strings, h => by
      rw [compoundMemberStrings] at h
      obtain ⟨body, hbody, h⟩ := Outcome.bind_eq_ok_iff.mp h
      obtain ⟨rest, hrest, h⟩ := Outcome.bind_eq_ok_iff.mp h
      rw [← Outcome.ok.inj h, convert_eq_ok memberType false body hbody,
        strings_eq_ok members rest hrest, fieldTrees, Json.renderItems_cons]
      apply congrArg (· :: _)
      simp only [leading, Json.render, Json.renderMembers, quoted, blank, List.intercalate,
        List.intersperse, List.flatten_cons, List.flatten_nil, List.cons_append,
        List.append_assoc, List.nil_append, Bool.false_eq_true, if_false]
      unfold lit
      rfl

end
/-! ## Plain values -/

theorem plainText_append {first second : Text} (hfirst : Json.PlainText first)
    (hsecond : Json.PlainText second) : Json.PlainText (first ++ second) := by
  intro c hc
  rcases List.mem_append.mp hc with h | h
  · exact hfirst c h
  · exact hsecond c h

theorem plainText_decimal (value : Nat) : Json.PlainText (decimal value) := by
  intro c hc
  have hdigit := isDigit_of_mem_decimal hc
  have hrange : 48 ≤ c.toNat ∧ c.toNat ≤ 57 := by
    simpa [Char.isDigit, UInt32.le_iff_toNat_le] using hdigit
  refine ⟨?_, ?_, by omega⟩
  · rintro rfl
    simp at hdigit
  · rintro rfl
    simp at hdigit

theorem plainText_predefinedName {family kind : Text} (hfamily : Json.PlainText family)
    (hkind : Json.PlainText kind) (size : Nat) (order : ByteOrder) :
    Json.PlainText (predefinedName family kind size order) := by
  have hprefixed : Json.PlainText (lit "H5T_") := by unfold lit; decide
  have hline : Json.PlainText (lit "_") := by unfold lit; decide
  have horder : Json.PlainText (if order = .little then lit "LE" else lit "BE") := by
    split <;> (unfold lit; decide)
  unfold predefinedName
  apply plainText_append _ horder
  apply plainText_append _ (plainText_decimal _)
  apply plainText_append _ hkind
  apply plainText_append _ hline
  exact plainText_append hprefixed hfamily

theorem plainText_nameText (base : IntegerType) : Json.PlainText base.nameText := by
  apply plainText_predefinedName
  · unfold lit; decide
  · split <;> (unfold lit; decide)

theorem blank_blank : Json.Blank blank := by unfold blank lit; decide

theorem plain_integerTree (base : IntegerType) : base.tree.Plain := by
  simp only [IntegerType.tree, Json.Plain, Json.PlainMembers]
  exact ⟨blank_blank, blank_blank, by unfold lit; decide, by unfold lit; decide,
    by unfold lit; decide, plainText_nameText base, trivial⟩

theorem plain_mapping (base : IntegerType) {members : List (Text × Int)}
    (hnames : ∀ m ∈ members, Json.PlainText m.1) :
    Json.PlainMembers (members.map fun m => (m.1, Json.number (enumValue base m.2))) := by
  induction members with
  | nil => simp [Json.PlainMembers]
  | cons m members ih =>
      simp only [List.map_cons, Json.PlainMembers, Json.Plain]
      exact ⟨hnames m (by simp), trivial, ih fun m hm => hnames m (List.mem_cons_of_mem _ hm)⟩

theorem plain_dims (dims : List Nat) :
    Json.PlainItems (dims.map fun d : Nat => Json.number d) := by
  induction dims with
  | nil => simp [Json.PlainItems]
  | cons d dims ih =>
      simp only [List.map_cons, Json.PlainItems, Json.Plain]
      exact ⟨trivial, ih⟩

mutual

/-- With plain names the value of a datatype is plain. -/
theorem plain_tree : ∀ t : Datatype, t.PlainNames → t.tree.Plain
  | .integer base, _ => plain_integerTree base
  | .float size order, _ => by
      simp only [Datatype.tree, Json.Plain, Json.PlainMembers]
      exact ⟨blank_blank, blank_blank, by unfold lit; decide, by unfold lit; decide,
        by unfold lit; decide,
        plainText_predefinedName (by unfold lit; decide) (by unfold lit; decide) size order,
        trivial⟩
  | .string none _ _, _ => by
      simp only [Datatype.tree, Json.Plain, Json.PlainMembers]
      exact ⟨blank_blank, blank_blank, by unfold lit; decide⟩
  | .string (some length) _ _, _ => by
      simp only [Datatype.tree, Json.Plain, Json.PlainMembers]
      exact ⟨blank_blank, blank_blank, by unfold lit; decide⟩
  | .compound size members, h => by
      rw [Datatype.PlainNames] at h
      simp only [Datatype.tree, Json.Plain, Json.PlainMembers]
      exact ⟨blank_blank, blank_blank, by unfold lit; decide, by unfold lit; decide,
        by unfold lit; decide, ⟨blank_blank, plain_fieldTrees members h⟩, trivial⟩
  | .enum base members, h => by
      rw [Datatype.PlainNames] at h
      simp only [Datatype.tree, Json.Plain, Json.PlainMembers]
      exact ⟨blank_blank, blank_blank, by unfold lit; decide, by unfold lit; decide,
        by unfold lit; decide, plain_integerTree base, by unfold lit; decide,
        ⟨blank_blank, blank_blank, plain_mapping base h⟩, trivial⟩
  | .array base dims, h => by
      rw [Datatype.PlainNames] at h
      simp only [Datatype.tree, Json.Plain, Json.PlainMembers]
      exact ⟨blank_blank, blank_blank, by unfold lit; decide, by unfold lit; decide,
        by unfold lit; decide, plain_tree base h, by unfold lit; decide,
        ⟨by decide, plain_dims dims⟩, trivial⟩
  | .reference kind, _ => by
      simp only [Datatype.tree, Json.Plain, Json.PlainMembers]
      refine ⟨by decide, blank_blank, by unfold lit; decide, by unfold lit; decide,
        by unfold lit; decide, ?_, trivial⟩
      split <;> (unfold lit; decide)
  | .other _, _ => by
      simp only [Datatype.tree, Json.Plain]

/-- With plain names the values of the members are plain. -/
theorem plain_fieldTrees : ∀ members : List (Text × Nat × Datatype), PlainFields members →
    Json.PlainItems (fieldTrees members)
  | [], _ => by
      simp only [fieldTrees, Json.PlainItems]
  | (name, offset, memberType) :: members, h => by
      rw [PlainFields] at h
      simp only [fieldTrees, Json.Plain, Json.PlainItems, Json.PlainMembers]
      exact ⟨⟨blank_blank, blank_blank, by unfold lit; decide, h.1, by unfold lit; decide,
        plain_tree memberType h.2.2.1, trivial⟩, plain_fieldTrees members h.2.2.2⟩

end
/-! ## Sections -/

/-- The count of braces passes over the text. -/
def Quiet (text : Text) : Prop :=
  ∀ depth rest, sectionEnd false false (depth + 1) (text ++ rest) =
    sectionEnd false false (depth + 1) rest

theorem quiet_nil : Quiet [] := fun _ _ => rfl

theorem quiet_append {first second : Text} (hfirst : Quiet first) (hsecond : Quiet second) :
    Quiet (first ++ second) := by
  intro depth rest
  rw [List.append_assoc, hfirst, hsecond]

theorem quiet_cons {c : Char} {text : Text} (hc : c ≠ '\\' ∧ c ≠ '"' ∧ c ≠ '{' ∧ c ≠ '}')
    (htext : Quiet text) : Quiet (c :: text) := by
  intro depth rest
  rw [List.cons_append, sectionEnd]
  simp [hc, htext depth rest]

theorem quiet_of_forall {text : Text}
    (h : ∀ c ∈ text, c ≠ '\\' ∧ c ≠ '"' ∧ c ≠ '{' ∧ c ≠ '}') : Quiet text := by
  induction text with
  | nil => exact quiet_nil
  | cons c text ih =>
      exact quiet_cons (h c (by simp)) (ih fun d hd => h d (List.mem_cons_of_mem _ hd))

theorem sectionEnd_suspended {text : Text} (htext : Json.PlainText text) (depth : Nat)
    (rest : Text) : sectionEnd true false (depth + 1) (text ++ rest) =
      sectionEnd true false (depth + 1) rest := by
  induction text with
  | nil => rfl
  | cons c text ih =>
      have hc := htext c (by simp)
      rw [List.cons_append, sectionEnd]
      simp [hc.1, hc.2.1, ih fun d hd => htext d (List.mem_cons_of_mem _ hd)]

theorem quiet_quoted {text : Text} (htext : Json.PlainText text) : Quiet (quoted text) := by
  intro depth rest
  have hend : sectionEnd true false (depth + 1) ('"' :: rest) =
      sectionEnd false false (depth + 1) rest := by
    rw [sectionEnd]
    simp
  rw [quoted, List.cons_append, List.append_assoc, List.singleton_append, ← hend,
    ← sectionEnd_suspended htext, sectionEnd]
  simp

theorem quiet_braces {text : Text} (htext : Quiet text) : Quiet ('{' :: (text ++ ['}'])) := by
  intro depth rest
  rw [List.cons_append, List.append_assoc, sectionEnd]
  simp [htext (depth + 1)]
  rw [sectionEnd]
  simp

theorem quiet_blank {gap : Text} (hgap : Json.Blank gap) : Quiet gap := by
  apply quiet_of_forall
  intro c hc
  rw [hgap c hc]
  decide

theorem quiet_intercalate {comma : Text} (hcomma : Json.Blank comma) {texts : List Text}
    (htexts : ∀ text ∈ texts, Quiet text) : Quiet ((',' :: comma).intercalate texts) := by
  induction texts with
  | nil => exact quiet_nil
  | cons text texts ih =>
      have hrest := ih fun text h => htexts text (List.mem_cons_of_mem _ h)
      cases texts with
      | nil => simpa [List.intercalate] using htexts text (by simp)
      | cons next texts =>
          have hjoin : (',' :: comma).intercalate (text :: next :: texts) =
              text ++ ',' :: (comma ++ (',' :: comma).intercalate (next :: texts)) := by
            simp [List.intercalate]
          rw [hjoin]
          apply quiet_append (htexts text (by simp))
          apply quiet_cons (by decide)
          exact quiet_append (quiet_blank hcomma) hrest

theorem quiet_decimalInt (value : Int) : Quiet (decimalInt value) := by
  have hdecimal : ∀ value : Nat, Quiet (decimal value) := by
    intro value
    apply quiet_of_forall
    intro c hc
    have hdigit := isDigit_of_mem_decimal hc
    refine ⟨?_, ?_, ?_, ?_⟩ <;> (rintro rfl; simp at hdigit)
  cases value with
  | ofNat value => exact hdecimal value
  | negSucc value => exact quiet_cons (by decide) (hdecimal (value + 1))

mutual

/-- The count of braces passes over the text of a plain value. -/
theorem quiet_render : ∀ x : Json, x.Plain → Quiet x.render
  | .string text, h => by
      rw [Json.Plain] at h
      exact quiet_quoted h
  | .number value, _ => quiet_decimalInt value
  | .array comma items, h => by
      rw [Json.Plain] at h
      apply quiet_cons (by decide)
      apply quiet_append (quiet_intercalate h.1 (quiet_renderItems items h.2))
      exact quiet_cons (by decide) quiet_nil
  | .object comma colon members, h => by
      rw [Json.Plain] at h
      exact quiet_braces (quiet_intercalate h.1 (quiet_renderMembers colon members h.2.1 h.2.2))

theorem quiet_renderItems : ∀ items : List Json, Json.PlainItems items →
    ∀ text ∈ Json.renderItems items, Quiet text
  | [], _, text, htext => by cases htext
  | x :: items, h, text, htext => by
      rw [Json.PlainItems] at h
      rcases List.mem_cons.mp htext with rfl | htext
      · exact quiet_render x h.1
      · exact quiet_renderItems items h.2 text htext

theorem quiet_renderMembers : ∀ (colon : Text) (members : List (Text × Json)), Json.Blank colon →
    Json.PlainMembers members → ∀ text ∈ Json.renderMembers colon members, Quiet text
  | colon, [], _, _, text, htext => by cases htext
  | colon, (key, x) :: members, hcolon, h, text, htext => by
      rw [Json.PlainMembers] at h
      rcases List.mem_cons.mp htext with rfl | htext
      · apply quiet_append (quiet_quoted h.1)
        apply quiet_cons (by decide)
        exact quiet_append (quiet_blank hcolon) (quiet_render x h.2.1)
      · exact quiet_renderMembers colon members hcolon h.2.2 text htext

end

/-- A section in braces ends where its braces do. -/
theorem findJsonSectionEnd_braces {inner : Text} (hinner : Quiet inner) (rest : Text) :
    findJsonSectionEnd ('{' :: (inner ++ '}' :: rest)) = some rest := by
  rw [findJsonSectionEnd, List.tail_cons, hinner 0, sectionEnd]
  simp [sectionEnd]

@[simp]
theorem before_append (first rest : Text) : before (first ++ rest) rest = first := by
  rw [before, List.length_append, Nat.add_sub_cancel, List.take_left]

/-- The section in braces that stands behind a key. -/
theorem findSection_braces {key text pre inner rest : Text} (hpre : '{' ∉ pre) (hinner : Quiet inner)
    (hkey : strstr key text = some (pre ++ '{' :: (inner ++ '}' :: rest))) :
    findSection key text = some (pre ++ '{' :: (inner ++ '}' :: rest),
      '{' :: (inner ++ '}' :: rest), rest) := by
  have hbrace : lit "\x7b" = ['{'] := by unfold lit; rfl
  have hstart : strstr (lit "\x7b") (pre ++ '{' :: (inner ++ '}' :: rest)) =
      some ('{' :: (inner ++ '}' :: rest)) := by
    rw [hbrace, strstr_append hpre]
    exact @strstr_self ['{'] _ (by simp)
  rw [findSection, hkey, Option.bind_some, hstart, Option.bind_some,
    findJsonSectionEnd_braces hinner]
  rfl

/-- The section of an object that stands behind a key. -/
theorem findSection_object {key text : Text} {pre comma colon : Text}
    {members : List (Text × Json)} {rest : Text} (hpre : '{' ∉ pre)
    (hplain : (Json.object comma colon members).Plain)
    (hkey : strstr key text = some (pre ++ ((Json.object comma colon members).render ++ rest))) :
    findSection key text = some (pre ++ ((Json.object comma colon members).render ++ rest),
      (Json.object comma colon members).render ++ rest, rest) := by
  rw [Json.Plain] at hplain
  have hquiet := quiet_intercalate hplain.1
    (quiet_renderMembers colon members hplain.2.1 hplain.2.2)
  rw [Json.render, List.cons_append, List.append_assoc, List.singleton_append] at hkey ⊢
  exact findSection_braces hpre hquiet hkey

end XHDF5.Client
