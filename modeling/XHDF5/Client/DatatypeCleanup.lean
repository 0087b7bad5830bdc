/-
# What reading a datatype leaves behind

The texts that are cut out get shorter, so the recursion of the reader ends. The loop that is to
close the members of a compound closes the same one again and again, and runs only when a compound
was already created. Where a text is rejected earlier the members that were built stay open, and so
does the base type of an array, whether the array is created or not.
-/

import XHDF5.Client.DatatypeCode

namespace XHDF5.Client

open XHDF5.Math

/-! ## Described and rejected texts -/

section Described

variable (parse : Text → Option Json)

/-- The tree of a text has a class. -/
def HasClass (text : Text) (tree : Json) (datatypeClass : Text) : Prop :=
  parse text = some tree ∧ tree.at? [lit "type", lit "class"] = some (.string datatypeClass)

/-- The classes without a datatype inside. -/
def PlainClass (datatypeClass : Text) : Prop :=
  datatypeClass ≠ lit "H5T_COMPOUND" ∧ datatypeClass ≠ lit "H5T_ARRAY" ∧
    datatypeClass ≠ lit "H5T_ENUM"

/-- The fields of a compound. -/
def HasFields (tree : Json) (fields : List Json) : Prop :=
  ∃ gap, tree.at? [lit "type", lit "fields"] = some (.array gap fields) ∧ fields ≠ []

/-- The dimensions of an array. -/
def HasDims (tree : Json) (items : List Json) : Prop :=
  ∃ gap, tree.at? [lit "type", lit "dims"] = some (.array gap items) ∧ items ≠ []

mutual

/-- A text describes a datatype, and whether the member types of a compound or the base type of an
array are among what it describes. -/
inductive Denotes : Text → Datatype → Bool → Prop
  | plain {text tree datatypeClass t} :
      HasClass parse text tree datatypeClass → PlainClass datatypeClass →
      convertPlain tree datatypeClass = .ok t → Denotes text t false
  | compound {text tree fields names sectionPtr types members} :
      HasClass parse text tree (lit "H5T_COMPOUND") → HasFields tree fields →
      compoundMemberNames fields = .ok names → strstr (lit "\"fields\"") text = some sectionPtr →
      DenotesMembers fields.length sectionPtr types →
      insertFrom 0 [] 0 names types = .ok members →
      Denotes text (.compound (types.map Datatype.size).sum members) true
  | array {text tree items inner base nested t} :
      HasClass parse text tree (lit "H5T_ARRAY") → HasDims tree items → baseOf text = some inner →
      Denotes inner base nested → arrayOf base items = .ok t → Denotes text t true
  | enum {text tree inner base nested t} :
      HasClass parse text tree (lit "H5T_ENUM") → baseOf text = some inner →
      Denotes inner base nested → enumOf tree base = .ok t → Denotes text t nested

/-- Sections of a text, one after the other, describe datatypes. -/
inductive DenotesMembers : Nat → Text → List Datatype → Prop
  | nil {text} : DenotesMembers 0 text []
  | cons {count text sectionPtr sectionStart rest t nested types} :
      findSection (lit "\"type\"") text = some (sectionPtr, sectionStart, rest) →
      Denotes (memberText sectionPtr rest) t nested → (rest = [] → count = 0) →
      DenotesMembers count rest.tail types → DenotesMembers (count + 1) text (t :: types)

end

/-- A text is rejected before a member type of a compound or the base type of an array is built. -/
inductive Rejected : Text → Prop
  | unreadable {text} :
      (∀ tree datatypeClass, ¬ HasClass parse text tree datatypeClass) → Rejected text
  | plain {text tree datatypeClass} :
      HasClass parse text tree datatypeClass → PlainClass datatypeClass →
      convertPlain tree datatypeClass = .fail → Rejected text
  | fields {text tree} :
      HasClass parse text tree (lit "H5T_COMPOUND") → (∀ fields, ¬ HasFields tree fields) →
      Rejected text
  | names {text tree fields} :
      HasClass parse text tree (lit "H5T_COMPOUND") → HasFields tree fields →
      compoundMemberNames fields = .fail → Rejected text
  | member {text tree fields names} :
      HasClass parse text tree (lit "H5T_COMPOUND") → HasFields tree fields →
      compoundMemberNames fields = .ok names →
      (∀ sectionPtr section_, strstr (lit "\"fields\"") text = some sectionPtr →
        findSection (lit "\"type\"") sectionPtr = some section_ →
        Rejected (memberText section_.1 section_.2.2)) → Rejected text
  | dims {text tree} :
      HasClass parse text tree (lit "H5T_ARRAY") → (∀ items, ¬ HasDims tree items) → Rejected text
  | arrayBase {text tree items} :
      HasClass parse text tree (lit "H5T_ARRAY") → HasDims tree items →
      (∀ inner, baseOf text = some inner → Rejected inner) → Rejected text
  | enumBase {text tree} :
      HasClass parse text tree (lit "H5T_ENUM") →
      (∀ inner, baseOf text = some inner → Rejected inner) → Rejected text
  | enum {text tree inner base} :
      HasClass parse text tree (lit "H5T_ENUM") → baseOf text = some inner →
      Denotes parse inner base false → enumOf tree base = .fail → Rejected text

/-- The reader returns, with a datatype or with an error, and after an error everything that it has
acquired is released once and nothing else is. -/
def ReturnsClean (text : Text) : Prop :=
  ∀ l : Ledger, ∃ fuel outcome l',
    rvConvertJsonToDatatypeCode parse fuel text l = some (outcome, l') ∧ outcome ≠ .undefined ∧
      l'.strays = l.strays ∧ (outcome = .fail → l'.held = l.held) ∧
        ∀ id t, outcome = .ok (id, t) → id ∈ l'.held

end Described

/-! ## What has ended -/

/-- When code ends, a value is one that is described, and a failure that leaves nothing behind is a
rejection. -/
def SoundEnds (m : Code (Nat × Datatype)) (D : Datatype → Bool → Prop) (R : Prop) : Prop :=
  ∀ l l' outcome, m l = some (outcome, l') → outcome ≠ .undefined →
    ∃ kept, l.Leaves kept l' ∧
      (∀ id t, outcome = .ok (id, t) → ∃ more, kept = id :: more ∧ D t (decide (more ≠ []))) ∧
      (outcome = .fail → kept = [] → R)

section SoundEnds

variable {m : Code (Nat × Datatype)} {D : Datatype → Bool → Prop} {R : Prop}

theorem sound_fail (h : R) : SoundEnds (.lift .fail) D R := by
  intro l l' outcome hrun _
  cases hrun
  exact ⟨[], .refl l, nofun, fun _ _ => h⟩

theorem sound_within (h : SoundEnds m D R) : SoundEnds (.within m) D R := by
  intro l l' outcome hrun hdefined
  obtain ⟨l₁, hm, rfl⟩ := Code.within_eq_some hdefined hrun
  obtain ⟨kept, hkept, hend⟩ := h _ _ _ hm hdefined
  exact ⟨kept, hkept.release, hend⟩

theorem sound_created {t : Outcome Datatype} (hok : ∀ value, t = .ok value → D value false)
    (hfail : t = .fail → R) : SoundEnds (created t) D R := by
  intro l l' outcome hrun hdefined
  rw [created] at hrun
  rcases Code.bind_eq_some hrun with ⟨_, h⟩ | ⟨h, rfl⟩ | ⟨value, l₁, h, hrun⟩
  · exact absurd h hdefined
  · cases h
    exact ⟨[], .refl l, nofun, fun _ _ => hfail rfl⟩
  · cases h
    cases hrun
    refine ⟨[l.next], Ledger.leaves_acquire l, ?_, nofun⟩
    intro id t heq
    cases heq
    exact ⟨[], rfl, hok _ rfl⟩

end SoundEnds

section Branches

variable {parse : Text → Option Json} {convert : Text → Code (Nat × Datatype)} {text : Text}
  {tree : Json} (hconvert : ∀ x, SoundEnds (convert x) (Denotes parse x) (Rejected parse x))

include hconvert

/-- What the loop over the member types keeps are the members. -/
theorem memberTypes_sound {count : Nat} {l l' : Ledger} {outcome : Outcome (List (Nat × Datatype))}
    (hrun : memberTypes convert count text l = some (outcome, l'))
    (hdefined : outcome ≠ .undefined) :
    ∃ kept, l.Leaves kept l' ∧
      (∀ types, outcome = .ok types → DenotesMembers parse count text (types.map Prod.snd) ∧
        types.length = count ∧ (count ≠ 0 → kept ≠ [])) ∧
      (outcome = .fail → kept = [] → ∀ section_, findSection (lit "\"type\"") text = some section_ →
        Rejected parse (memberText section_.1 section_.2.2)) := by
  induction count generalizing text l l' outcome with
  | zero =>
      cases hrun
      refine ⟨[], .refl l, ?_, (by simp)⟩
      intro types htypes
      cases htypes
      exact ⟨.nil, rfl, fun h => absurd rfl h⟩
  | succ count ih =>
      rw [memberTypes] at hrun
      cases hfind : findSection (lit "\"type\"") text with
      | none =>
          rw [hfind] at hrun
          cases hrun
          exact ⟨[], .refl l, (by simp), fun _ _ => (by simp)⟩
      | some found =>
          obtain ⟨sectionPtr, sectionStart, rest⟩ := found
          rw [hfind] at hrun
          rcases Code.bind_eq_some hrun with ⟨_, h⟩ | ⟨hmember, rfl⟩ | ⟨⟨id, t⟩, l₁, hmember, hrun⟩
          · exact absurd h hdefined
          · obtain ⟨kept, hkept, -, hfail⟩ := hconvert _ _ _ _ hmember (by simp)
            refine ⟨kept, hkept, (by simp), fun _ hnil section_ hsection => ?_⟩
            cases hsection
            exact hfail rfl hnil
          · obtain ⟨kept, hkept, hok, -⟩ := hconvert _ _ _ _ hmember (by simp)
            obtain ⟨more, rfl, ht⟩ := hok id t rfl
            split at hrun
            · cases hrun
              exact absurd rfl hdefined
            · next hrest =>
                have hlast : rest = [] → count = 0 := fun h => by simpa [h] using hrest
                rcases Code.bind_eq_some hrun with
                  ⟨_, h⟩ | ⟨htypes, rfl⟩ | ⟨types, l₂, htypes, hrun⟩
                · exact absurd h hdefined
                · obtain ⟨kept', hkept', -⟩ := ih htypes (by simp)
                  exact ⟨_, hkept.trans hkept', (by simp), fun _ h => by simp at h⟩
                · obtain ⟨kept', hkept', htypes, -⟩ := ih htypes (by simp)
                  obtain ⟨hdescribes, hlength, -⟩ := htypes types rfl
                  cases hrun
                  refine ⟨_, hkept.trans hkept', ?_, (by simp)⟩
                  intro types' h
                  cases h
                  exact ⟨.cons hfind ht hlast hdescribes, congrArg Nat.succ hlength, by simp⟩

theorem convertCompoundCode_sound {fuel : Nat}
    (hclass : HasClass parse text tree (lit "H5T_COMPOUND")) :
    SoundEnds (convertCompoundCode convert fuel text tree) (Denotes parse text)
      (Rejected parse text) := by
  rw [convertCompoundCode]
  split
  · next gap fields hfields =>
      split
      · next hempty =>
          refine sound_fail (.fields hclass ?_)
          rintro others ⟨gap', hothers, hne⟩
          cases hfields.symm.trans hothers
          exact hne hempty
      · next hne =>
          have hfields : HasFields tree fields := ⟨gap, hfields, hne⟩
          refine sound_within (sound_within (sound_within ?_))
          intro l l' outcome hrun hdefined
          cases hnames : compoundMemberNames fields with
          | undefined =>
              rw [hnames] at hrun
              cases hrun
              exact absurd rfl hdefined
          | fail =>
              rw [hnames] at hrun
              cases hrun
              exact ⟨[], .refl l, (by simp), fun _ _ => .names hclass hfields hnames⟩
          | ok names =>
              rw [hnames, Code.bind_of_ok (Code.lift_apply _)] at hrun
              cases hsection : strstr (lit "\"fields\"") text with
              | none =>
                  simp only [hsection] at hrun
                  cases hrun
                  refine ⟨[], .refl l, (by simp), fun _ _ => .member hclass hfields hnames ?_⟩
                  intro sectionPtr section_ hother
                  cases hsection.symm.trans hother
              | some sectionPtr =>
                  simp only [hsection] at hrun
                  rcases Code.bind_eq_some hrun with
                    ⟨_, h⟩ | ⟨htypes, rfl⟩ | ⟨types, l₁, htypes, hrun⟩
                  · exact absurd h hdefined
                  · obtain ⟨kept, hkept, -, hfail⟩ := memberTypes_sound hconvert htypes (by simp)
                    refine ⟨kept, hkept, (by simp), fun _ hnil => .member hclass hfields hnames ?_⟩
                    intro other section_ hother hfound
                    cases hsection.symm.trans hother
                    exact hfail rfl hnil section_ hfound
                  · obtain ⟨kept, hkept, hok, -⟩ := memberTypes_sound hconvert htypes (by simp)
                    obtain ⟨hdescribes, -, hsome⟩ := hok types rfl
                    have hkept_ne := hsome (mt List.length_eq_zero_iff.mp hne)
                    obtain ⟨members, hinsert, rfl, rfl⟩ := insertMembers_eq_some hrun
                    refine ⟨_, hkept.trans (Ledger.leaves_acquire l₁), ?_, (by simp)⟩
                    intro id t h
                    cases h
                    refine ⟨kept, rfl, ?_⟩
                    rw [decide_eq_true hkept_ne]
                    exact .compound hclass hfields hnames hsection hdescribes hinsert
  · next hother =>
      refine sound_fail (.fields hclass ?_)
      rintro fields ⟨gap, hfields, -⟩
      exact hother gap fields hfields

theorem convertArrayCode_sound (hclass : HasClass parse text tree (lit "H5T_ARRAY")) :
    SoundEnds (convertArrayCode convert text tree) (Denotes parse text)
      (Rejected parse text) := by
  rw [convertArrayCode]
  split
  · next gap items hitems =>
      split
      · next hempty =>
          refine sound_fail (.dims hclass ?_)
          rintro others ⟨gap', hothers, hne⟩
          cases hitems.symm.trans hothers
          exact hne hempty
      · next hne =>
          have hdims : HasDims tree items := ⟨gap, hitems, hne⟩
          refine sound_within ?_
          cases hfind : findSection (lit "\"base\"") text with
          | none =>
              refine sound_fail (.arrayBase hclass hdims ?_)
              intro inner hinner
              rw [baseOf, hfind] at hinner
              cases hinner
          | some found =>
              have hbase : baseOf text = some (baseText found.2.1 found.2.2) := by
                rw [baseOf, hfind, Option.map_some]
              refine sound_within ?_
              intro l l' outcome hrun hdefined
              rcases Code.bind_eq_some hrun with
                ⟨_, h⟩ | ⟨hinner, rfl⟩ | ⟨⟨id, t⟩, l₁, hinner, hrun⟩
              · exact absurd h hdefined
              · obtain ⟨kept, hkept, -, hfail⟩ := hconvert _ _ _ _ hinner (by simp)
                refine ⟨kept, hkept, (by simp), fun _ hnil => .arrayBase hclass hdims ?_⟩
                intro inner hother
                cases hbase.symm.trans hother
                exact hfail rfl hnil
              · obtain ⟨kept, hkept, hok, -⟩ := hconvert _ _ _ _ hinner (by simp)
                obtain ⟨more, rfl, ht⟩ := hok id t rfl
                have harray := sound_created (D := fun value nested =>
                  arrayOf t items = .ok value ∧ nested = false) (R := True)
                  (fun value h => ⟨h, rfl⟩) (fun _ => trivial)
                obtain ⟨kept', hkept', hok, -⟩ := harray _ _ _ hrun hdefined
                refine ⟨_, hkept.trans hkept', ?_, fun _ h => by simp at h⟩
                intro id' t' h
                obtain ⟨more', rfl, harray, -⟩ := hok id' t' h
                refine ⟨_, rfl, ?_⟩
                rw [decide_eq_true (by simp)]
                exact .array hclass hdims hbase ht harray
  · next hother =>
      refine sound_fail (.dims hclass ?_)
      rintro items ⟨gap, hitems, -⟩
      exact hother gap items hitems

theorem convertEnumCode_sound (hclass : HasClass parse text tree (lit "H5T_ENUM")) :
    SoundEnds (convertEnumCode convert text tree) (Denotes parse text) (Rejected parse text) := by
  rw [convertEnumCode]
  cases hfind : findSection (lit "\"base\"") text with
  | none =>
      refine sound_fail (.enumBase hclass ?_)
      intro inner hinner
      rw [baseOf, hfind] at hinner
      cases hinner
  | some found =>
      have hbase : baseOf text = some (baseText found.2.1 found.2.2) := by
        rw [baseOf, hfind, Option.map_some]
      refine sound_within ?_
      intro l l' outcome hrun hdefined
      rcases Code.bind_eq_some hrun with ⟨_, h⟩ | ⟨hinner, rfl⟩ | ⟨⟨id, t⟩, l₁, hinner, hrun⟩
      · exact absurd h hdefined
      · obtain ⟨kept, hkept, -, hfail⟩ := hconvert _ _ _ _ hinner (by simp)
        refine ⟨kept, hkept, (by simp), fun _ hnil => .enumBase hclass ?_⟩
        intro inner hother
        cases hbase.symm.trans hother
        exact hfail rfl hnil
      · obtain ⟨kept, hkept, hok, -⟩ := hconvert _ _ _ _ hinner (by simp)
        obtain ⟨more, rfl, ht⟩ := hok id t rfl
        obtain ⟨l₂, hmapping, rfl⟩ := Code.releasing_eq_some hdefined hrun
        rcases insertMapping_cases tree t l₁ with ⟨value, henum, hend⟩ | ⟨henum, l₃, hend, hkept'⟩
        · cases hmapping.symm.trans hend
          have hall := hkept.trans (Ledger.leaves_acquire l₁)
          refine ⟨_, hall.release_kept (hkept.not_mem_next List.mem_cons_self), ?_, (by simp)⟩
          intro id' t' h
          cases h
          exact ⟨more, rfl, .enum hclass hbase ht henum⟩
        · cases hmapping.symm.trans hend
          have hall : l.Leaves ([] ++ id :: more) _ := hkept.trans hkept'
          refine ⟨_, hall.release_kept List.not_mem_nil, (by simp), ?_⟩
          intro _ hnil
          rw [List.nil_append] at hnil
          rw [hnil, decide_eq_false (by simp)] at ht
          exact .enum hclass hbase ht henum

theorem convertClassCode_sound {fuel : Nat} {datatypeClass : Text}
    (hclass : HasClass parse text tree datatypeClass) :
    SoundEnds (convertClassCode convert fuel text tree datatypeClass) (Denotes parse text)
      (Rejected parse text) := by
  rw [convertClassCode]
  split
  · next h => exact convertCompoundCode_sound hconvert (h ▸ hclass)
  · next hcompound =>
      split
      · next h => exact convertArrayCode_sound hconvert (h ▸ hclass)
      · next harray =>
          split
          · next h => exact convertEnumCode_sound hconvert (h ▸ hclass)
          · next henum =>
              exact sound_created (fun _ => .plain hclass ⟨hcompound, harray, henum⟩)
                (.plain hclass ⟨hcompound, harray, henum⟩)

end Branches

/-- When the reader returns, the text describes the datatype, or was rejected if it leaves
nothing. -/
theorem rvConvertJsonToDatatypeCode_sound (parse : Text → Option Json) (fuel : Nat) (text : Text) :
    SoundEnds (rvConvertJsonToDatatypeCode parse fuel text) (Denotes parse text)
      (Rejected parse text) := by
  induction fuel generalizing text with
  | zero => exact fun _ _ _ => nofun
  | succ fuel ih =>
      rw [rvConvertJsonToDatatypeCode]
      cases hparse : parse text with
      | none =>
          refine sound_fail (.unreadable ?_)
          rintro tree datatypeClass ⟨htree, -⟩
          cases hparse.symm.trans htree
      | some tree =>
          refine sound_within ?_
          split
          · next datatypeClass hclass => exact convertClassCode_sound ih ⟨hparse, hclass⟩
          · next hother =>
              refine sound_fail (.unreadable ?_)
              rintro other datatypeClass ⟨htree, hclass⟩
              cases hparse.symm.trans htree
              exact hother datatypeClass hclass

/-! ## What ends -/

/-- Code ends with every value that is described, and keeps more than the value only when it is to,
and it fails and leaves nothing when the text is rejected. -/
def CompleteEnds (m : Code (Nat × Datatype)) (D : Datatype → Bool → Prop) (R : Prop) : Prop :=
  ∀ l, (∀ t nested, D t nested → ∃ id more, m.Ends l (.ok (id, t)) (id :: more) ∧
    decide (more ≠ []) = nested) ∧ (R → m.Ends l .fail [])

theorem created_ends {t : Datatype} (l : Ledger) :
    (created (.ok t)).Ends l (.ok (l.next, t)) [l.next] :=
  ⟨l.acquire, rfl, Ledger.leaves_acquire l⟩

theorem complete_within {m : Code (Nat × Datatype)} {D : Datatype → Bool → Prop} {R : Prop}
    (h : CompleteEnds m D R) : CompleteEnds (.within m) D R := by
  intro l
  refine ⟨fun t nested ht => ?_, fun hR => Code.ends_within nofun ((h l.acquire).2 hR)⟩
  obtain ⟨id, more, hends, hnested⟩ := (h l.acquire).1 t nested ht
  exact ⟨id, more, Code.ends_within nofun hends, hnested⟩

section Classes

variable {parse : Text → Option Json} {text : Text} {tree other : Json} {first second : Text}

theorem HasClass.eq (h : HasClass parse text tree first) (h' : HasClass parse text other second) :
    other = tree ∧ second = first := by
  cases h.1.symm.trans h'.1
  cases h.2.symm.trans h'.2
  exact ⟨rfl, rfl⟩

theorem Denotes.hasClass {t : Datatype} {nested : Bool} (h : Denotes parse text t nested) :
    ∃ tree datatypeClass, HasClass parse text tree datatypeClass := by
  cases h with
  | plain h | compound h | array h | enum h => exact ⟨_, _, h⟩

theorem created_complete (hclass : HasClass parse text tree first) (hplain : PlainClass first) :
    CompleteEnds (created (convertPlain tree first)) (Denotes parse text)
      (Rejected parse text) := by
  intro l
  constructor
  · intro t nested h
    cases h with
    | plain hother _ hconvert =>
        obtain ⟨rfl, rfl⟩ := hclass.eq hother
        rw [hconvert]
        exact ⟨l.next, [], created_ends l, rfl⟩
    | compound hother => exact absurd (hclass.eq hother).2.symm hplain.1
    | array hother => exact absurd (hclass.eq hother).2.symm hplain.2.1
    | enum hother => exact absurd (hclass.eq hother).2.symm hplain.2.2
  · intro h
    cases h with
    | unreadable h => exact absurd hclass (h _ _)
    | plain hother _ hconvert =>
        obtain ⟨rfl, rfl⟩ := hclass.eq hother
        rw [hconvert]
        exact Code.ends_bind_fail (Code.ends_lift _)
    | fields hother | names hother | member hother =>
        exact absurd (hclass.eq hother).2.symm hplain.1
    | dims hother | arrayBase hother => exact absurd (hclass.eq hother).2.symm hplain.2.1
    | enumBase hother | enum hother => exact absurd (hclass.eq hother).2.symm hplain.2.2

theorem HasFields.eq {fields others : List Json} (h : HasFields tree fields)
    (h' : HasFields tree others) : others = fields := by
  obtain ⟨gap, h, -⟩ := h
  obtain ⟨gap', h', -⟩ := h'
  cases h.symm.trans h'
  rfl

theorem HasDims.eq {items others : List Json} (h : HasDims tree items) (h' : HasDims tree others) :
    others = items := by
  obtain ⟨gap, h, -⟩ := h
  obtain ⟨gap', h', -⟩ := h'
  cases h.symm.trans h'
  rfl

end Classes

section Branches

variable {parse : Text → Option Json} {convert : Text → Code (Nat × Datatype)} {text : Text}
  {tree : Json}

theorem memberTypes_complete {size count : Nat} {types : List Datatype}
    (hconvert : ∀ x, cutSize x < size →
      CompleteEnds (convert x) (Denotes parse x) (Rejected parse x))
    (hsize : ∀ sectionPtr sectionStart rest,
      findSection (lit "\"type\"") text = some (sectionPtr, sectionStart, rest) →
        sectionPtr.length + 2 < size)
    (h : DenotesMembers parse count text types) (l : Ledger) :
    ∃ handles kept, handles.map Prod.snd = types ∧
      (memberTypes convert count text).Ends l (.ok handles) kept ∧ (types ≠ [] → kept ≠ []) := by
  induction count generalizing text types l with
  | zero =>
      cases h
      exact ⟨[], [], rfl, Code.ends_lift _, fun h => absurd rfl h⟩
  | succ count ih =>
      cases h with
      | @cons _ _ sectionPtr sectionStart rest t nested types hfind ht hlast htypes =>
          obtain ⟨hcut, -, hrest⟩ := cutSize_memberText hfind
          have hptr := hsize _ _ _ hfind
          obtain ⟨id, more, hends, -⟩ := (hconvert _ (by omega) l).1 t nested ht
          obtain ⟨l₁, hrun, hkept⟩ := hends
          obtain ⟨handles, kept, rfl, ⟨l₂, hrun', hkept'⟩, -⟩ := ih (by
            intro ptr start rest' hnext
            obtain ⟨-, hnext, -⟩ := cutSize_memberText hnext
            rw [List.length_tail] at hnext
            omega) htypes l₁
          refine ⟨(id, t) :: handles, kept ++ id :: more, rfl, ⟨l₂, ?_, hkept.trans hkept'⟩,
            by simp⟩
          have hgo : ¬ (rest = [] ∧ count ≠ 0) := fun h => h.2 (hlast h.1)
          rw [memberTypes, hfind]
          simp only
          rw [Code.bind_of_ok hrun, if_neg hgo, Code.bind_of_ok hrun']
          rfl

theorem DenotesMembers.ne_nil {count : Nat} {types : List Datatype}
    (h : DenotesMembers parse count text types) (hcount : count ≠ 0) : types ≠ [] := by
  cases h with
  | nil => exact absurd rfl hcount
  | cons => exact List.cons_ne_nil _ _

theorem memberTypes_rejected {size count : Nat}
    (hconvert : ∀ x, cutSize x < size →
      CompleteEnds (convert x) (Denotes parse x) (Rejected parse x))
    (hsize : ∀ sectionPtr sectionStart rest,
      findSection (lit "\"type\"") text = some (sectionPtr, sectionStart, rest) →
        sectionPtr.length + 2 < size)
    (h : ∀ section_, findSection (lit "\"type\"") text = some section_ →
      Rejected parse (memberText section_.1 section_.2.2)) (hcount : count ≠ 0) (l : Ledger) :
    (memberTypes convert count text).Ends l .fail [] := by
  cases count with
  | zero => exact absurd rfl hcount
  | succ count =>
      rw [memberTypes]
      cases hfind : findSection (lit "\"type\"") text with
      | none => exact Code.ends_lift _
      | some found =>
          obtain ⟨hcut, -⟩ := cutSize_memberText hfind
          have hptr := hsize _ _ _ hfind
          exact Code.ends_bind_fail ((hconvert _ (by omega) l).2 (h _ hfind))

/-- The text of every member is shorter than the text of the compound. -/
theorem length_section_of_fields {fieldsPtr sectionPtr sectionStart rest : Text}
    (hfields : strstr (lit "\"fields\"") text = some fieldsPtr)
    (h : findSection (lit "\"type\"") fieldsPtr = some (sectionPtr, sectionStart, rest)) :
    sectionPtr.length + 2 < cutSize text := by
  obtain ⟨⟨behind, rfl⟩, hsuffix⟩ := strstr_eq_some hfields
  have hlength : (lit "\"fields\"").length = 8 := by unfold lit; decide
  have hfind : findSection (lit "\"type\"") ('"' :: behind) =
      some (sectionPtr, sectionStart, rest) := by
    rw [← h, findSection, findSection, strstr_type_of_fields]
  obtain ⟨-, hptr, -⟩ := cutSize_memberText hfind
  have htext := hsuffix.length_le
  rw [List.length_append] at htext
  rw [List.length_cons] at hptr
  rw [cutSize]
  omega

variable (hconvert : ∀ x, cutSize x < cutSize text →
  CompleteEnds (convert x) (Denotes parse x) (Rejected parse x))

include hconvert

theorem convertCompoundCode_complete {fuel : Nat}
    (hclass : HasClass parse text tree (lit "H5T_COMPOUND")) :
    CompleteEnds (convertCompoundCode convert fuel text tree) (Denotes parse text)
      (Rejected parse text) := by
  have harray : lit "H5T_ARRAY" ≠ lit "H5T_COMPOUND" := by unfold lit; decide
  have henum : lit "H5T_ENUM" ≠ lit "H5T_COMPOUND" := by unfold lit; decide
  intro l
  constructor
  · intro t nested h
    cases h with
    | plain hother hplain => exact absurd (hclass.eq hother).2 hplain.1
    | array hother => exact absurd (hclass.eq hother).2 harray
    | enum hother => exact absurd (hclass.eq hother).2 henum
    | compound hother hfields hnames hsection htypes hinsert =>
        obtain ⟨rfl, -⟩ := hclass.eq hother
        obtain ⟨gap, hfields, hne⟩ := hfields
        obtain ⟨handles, kept, rfl, ⟨l₁, hrun, hkept⟩, hsome⟩ :=
          memberTypes_complete hconvert (fun _ _ _ => length_section_of_fields hsection) htypes
            l.acquire.acquire.acquire
        have hkept_ne := hsome (htypes.ne_nil (mt List.length_eq_zero_iff.mp hne))
        refine ⟨l₁.next, kept, ?_, decide_eq_true hkept_ne⟩
        rw [convertCompoundCode, hfields]
        simp only
        rw [if_neg hne]
        refine Code.ends_within (by simp) (Code.ends_within (by simp) (Code.ends_within (by simp) ?_))
        refine ⟨l₁.acquire, ?_, hkept.trans (Ledger.leaves_acquire l₁)⟩
        rw [hnames, Code.bind_of_ok (Code.lift_apply _), hsection]
        simp only
        rw [Code.bind_of_ok hrun, insertMembers, Code.bind_of_ok Code.acquire_apply, hinsert]
        rfl
  · intro h
    rw [convertCompoundCode]
    cases h with
    | unreadable h => exact absurd hclass (h _ _)
    | plain hother hplain => exact absurd (hclass.eq hother).2 hplain.1
    | dims hother => exact absurd (hclass.eq hother).2 harray
    | arrayBase hother => exact absurd (hclass.eq hother).2 harray
    | enumBase hother => exact absurd (hclass.eq hother).2 henum
    | enum hother => exact absurd (hclass.eq hother).2 henum
    | fields hother hfields =>
        obtain ⟨rfl, -⟩ := hclass.eq hother
        split
        · next gap fields hsome =>
            split
            · exact Code.ends_lift _
            · next hne => exact absurd ⟨gap, hsome, hne⟩ (hfields fields)
        · exact Code.ends_lift _
    | names hother hfields hnames =>
        obtain ⟨rfl, -⟩ := hclass.eq hother
        obtain ⟨gap, hfields, hne⟩ := hfields
        rw [hfields]
        simp only
        rw [if_neg hne, hnames]
        refine Code.ends_within (by simp) (Code.ends_within (by simp) (Code.ends_within (by simp) ?_))
        exact Code.ends_bind_fail (Code.ends_lift _)
    | @member _ _ fields names hother hfields hnames hmember =>
        obtain ⟨rfl, -⟩ := hclass.eq hother
        obtain ⟨gap, hfields, hne⟩ := hfields
        rw [hfields]
        simp only
        rw [if_neg hne, hnames]
        refine Code.ends_within (by simp) (Code.ends_within (by simp) (Code.ends_within (by simp) ?_))
        rw [Code.Ends, Code.bind_of_ok (Code.lift_apply _)]
        cases hsection : strstr (lit "\"fields\"") text with
        | none => exact Code.ends_lift _
        | some fieldsPtr =>
            refine Code.ends_bind_fail (memberTypes_rejected hconvert
              (fun _ _ _ => length_section_of_fields hsection)
              (fun section_ => hmember fieldsPtr section_ hsection)
              (mt List.length_eq_zero_iff.mp hne) _)

theorem convertArrayCode_complete (hclass : HasClass parse text tree (lit "H5T_ARRAY")) :
    CompleteEnds (convertArrayCode convert text tree) (Denotes parse text)
      (Rejected parse text) := by
  have hcompound : lit "H5T_COMPOUND" ≠ lit "H5T_ARRAY" := by unfold lit; decide
  have henum : lit "H5T_ENUM" ≠ lit "H5T_ARRAY" := by unfold lit; decide
  intro l
  constructor
  · intro t nested h
    cases h with
    | plain hother hplain => exact absurd (hclass.eq hother).2 hplain.2.1
    | compound hother => exact absurd (hclass.eq hother).2 hcompound
    | enum hother => exact absurd (hclass.eq hother).2 henum
    | @array _ _ items inner base nested t hother hdims hbase hinner harray =>
        obtain ⟨rfl, -⟩ := hclass.eq hother
        obtain ⟨gap, hdims, hne⟩ := hdims
        obtain ⟨id, more, ⟨l₁, hrun, hkept⟩, -⟩ :=
          (hconvert inner (cutSize_baseOf hbase) l.acquire.acquire).1 base nested hinner
        obtain ⟨⟨sectionPtr, sectionStart, rest⟩, hfind, rfl⟩ := Option.map_eq_some_iff.mp hbase
        refine ⟨l₁.next, id :: more, ?_, rfl⟩
        rw [convertArrayCode, hdims]
        simp only
        rw [if_neg hne, hfind]
        refine Code.ends_within (by simp) (Code.ends_within (by simp) ?_)
        refine ⟨l₁.acquire, ?_, hkept.trans (Ledger.leaves_acquire l₁)⟩
        rw [Code.bind_of_ok hrun, harray]
        rfl
  · intro h
    rw [convertArrayCode]
    cases h with
    | unreadable h => exact absurd hclass (h _ _)
    | plain hother hplain => exact absurd (hclass.eq hother).2 hplain.2.1
    | fields hother => exact absurd (hclass.eq hother).2 hcompound
    | names hother => exact absurd (hclass.eq hother).2 hcompound
    | member hother => exact absurd (hclass.eq hother).2 hcompound
    | enumBase hother => exact absurd (hclass.eq hother).2 henum
    | enum hother => exact absurd (hclass.eq hother).2 henum
    | dims hother hdims =>
        obtain ⟨rfl, -⟩ := hclass.eq hother
        split
        · next gap items hsome =>
            split
            · exact Code.ends_lift _
            · next hne => exact absurd ⟨gap, hsome, hne⟩ (hdims items)
        · exact Code.ends_lift _
    | arrayBase hother hdims hinner =>
        obtain ⟨rfl, -⟩ := hclass.eq hother
        obtain ⟨gap, hdims, hne⟩ := hdims
        rw [hdims]
        simp only
        rw [if_neg hne]
        refine Code.ends_within (by simp) ?_
        cases hfind : findSection (lit "\"base\"") text with
        | none => exact Code.ends_lift _
        | some found =>
            have hbase : baseOf text = some (baseText found.2.1 found.2.2) := by
              rw [baseOf, hfind, Option.map_some]
            exact Code.ends_within (by simp) (Code.ends_bind_fail
              ((hconvert _ (cutSize_baseOf hbase) _).2 (hinner _ hbase)))

theorem convertEnumCode_complete (hclass : HasClass parse text tree (lit "H5T_ENUM")) :
    CompleteEnds (convertEnumCode convert text tree) (Denotes parse text)
      (Rejected parse text) := by
  have hcompound : lit "H5T_COMPOUND" ≠ lit "H5T_ENUM" := by unfold lit; decide
  have harray : lit "H5T_ARRAY" ≠ lit "H5T_ENUM" := by unfold lit; decide
  intro l
  rw [convertEnumCode]
  constructor
  · intro t nested h
    cases h with
    | plain hother hplain => exact absurd (hclass.eq hother).2 hplain.2.2
    | compound hother => exact absurd (hclass.eq hother).2 hcompound
    | array hother => exact absurd (hclass.eq hother).2 harray
    | @enum _ _ inner base _ _ hother hbase hinner henum =>
        obtain ⟨rfl, -⟩ := hclass.eq hother
        obtain ⟨id, more, ⟨l₁, hrun, hkept⟩, hnested⟩ :=
          (hconvert inner (cutSize_baseOf hbase) l.acquire).1 base nested hinner
        obtain ⟨⟨sectionPtr, sectionStart, rest⟩, hfind, rfl⟩ := Option.map_eq_some_iff.mp hbase
        refine ⟨l₁.next, more, ?_, hnested⟩
        rw [hfind]
        refine Code.ends_within (by simp) ?_
        rcases insertMapping_cases _ base l₁ with ⟨value, henum', hend⟩ | ⟨henum', -⟩
        · cases henum.symm.trans henum'
          refine ⟨l₁.acquire.release id, ?_, (hkept.trans (Ledger.leaves_acquire l₁)).release_kept
            (hkept.not_mem_next List.mem_cons_self)⟩
          simp only [Code.bind_of_ok hrun, Code.releasing, hend]
        · cases henum.symm.trans henum'
  · intro h
    cases h with
    | unreadable h => exact absurd hclass (h _ _)
    | plain hother hplain => exact absurd (hclass.eq hother).2 hplain.2.2
    | fields hother => exact absurd (hclass.eq hother).2 hcompound
    | names hother => exact absurd (hclass.eq hother).2 hcompound
    | member hother => exact absurd (hclass.eq hother).2 hcompound
    | dims hother => exact absurd (hclass.eq hother).2 harray
    | arrayBase hother => exact absurd (hclass.eq hother).2 harray
    | enumBase hother hinner =>
        cases hfind : findSection (lit "\"base\"") text with
        | none => exact Code.ends_lift _
        | some found =>
            have hbase : baseOf text = some (baseText found.2.1 found.2.2) := by
              rw [baseOf, hfind, Option.map_some]
            exact Code.ends_within (by simp) (Code.ends_bind_fail
              ((hconvert _ (cutSize_baseOf hbase) _).2 (hinner _ hbase)))
    | @enum _ _ inner base hother hbase hinner henum =>
        obtain ⟨rfl, -⟩ := hclass.eq hother
        obtain ⟨id, more, ⟨l₁, hrun, hkept⟩, hnested⟩ :=
          (hconvert inner (cutSize_baseOf hbase) l.acquire).1 base false hinner
        obtain ⟨⟨sectionPtr, sectionStart, rest⟩, hfind, rfl⟩ := Option.map_eq_some_iff.mp hbase
        have hmore : more = [] := Decidable.of_not_not (of_decide_eq_false hnested)
        rw [hfind]
        refine Code.ends_within (by simp) ?_
        rcases insertMapping_cases _ base l₁ with ⟨value, henum', -⟩ | ⟨-, l₂, hend, hkept'⟩
        · cases henum.symm.trans henum'
        · rw [hmore] at hkept
          have hall : l.acquire.Leaves ([] ++ id :: []) l₂ := hkept.trans hkept'
          refine ⟨l₂.release id, ?_, hall.release_kept List.not_mem_nil⟩
          simp only [Code.bind_of_ok hrun, Code.releasing, hend]

theorem convertClassCode_complete {fuel : Nat} {datatypeClass : Text}
    (hclass : HasClass parse text tree datatypeClass) :
    CompleteEnds (convertClassCode convert fuel text tree datatypeClass) (Denotes parse text)
      (Rejected parse text) := by
  rw [convertClassCode]
  split
  · next h => exact convertCompoundCode_complete hconvert (h ▸ hclass)
  · next hcompound =>
      split
      · next h => exact convertArrayCode_complete hconvert (h ▸ hclass)
      · next harray =>
          split
          · next h => exact convertEnumCode_complete hconvert (h ▸ hclass)
          · next henum =>
              have hplain : PlainClass datatypeClass := ⟨hcompound, harray, henum⟩
              exact created_complete hclass hplain

end Branches

/-- With a bound above its size the reader returns for every text that is described or rejected. -/
theorem rvConvertJsonToDatatypeCode_complete (parse : Text → Option Json) (fuel : Nat) (text : Text)
    (hfuel : cutSize text < fuel) : CompleteEnds (rvConvertJsonToDatatypeCode parse fuel text)
      (Denotes parse text) (Rejected parse text) := by
  induction fuel generalizing text with
  | zero => exact absurd hfuel (Nat.not_lt_zero _)
  | succ fuel ih =>
      have hconvert : ∀ x, cutSize x < cutSize text →
          CompleteEnds (rvConvertJsonToDatatypeCode parse fuel x) (Denotes parse x)
            (Rejected parse x) :=
        fun x hx => ih x (Nat.lt_of_lt_of_le hx (Nat.le_of_lt_succ hfuel))
      rw [rvConvertJsonToDatatypeCode]
      cases hparse : parse text with
      | none =>
          refine fun l => ⟨fun t nested h => ?_, fun _ => Code.ends_lift _⟩
          obtain ⟨tree, datatypeClass, htree, -⟩ := h.hasClass
          cases hparse.symm.trans htree
      | some tree =>
          refine complete_within ?_
          split
          · next datatypeClass hclass => exact convertClassCode_complete hconvert ⟨hparse, hclass⟩
          · next hother =>
              refine fun l => ⟨fun t nested h => ?_, fun _ => Code.ends_lift _⟩
              obtain ⟨other, datatypeClass, htree, hclass⟩ := h.hasClass
              cases hparse.symm.trans htree
              exact absurd hclass (hother datatypeClass)

/-! ## When the reader returns clean -/

/-- A reader that returns clean was given a text that is described or rejected. -/
theorem ReturnsClean.described_or_rejected {parse : Text → Option Json} {text : Text}
    (h : ReturnsClean parse text) :
    (∃ t nested, Denotes parse text t nested) ∨ Rejected parse text := by
  obtain ⟨fuel, outcome, l', hrun, hdefined, -, hheld, -⟩ := h .empty
  obtain ⟨kept, hkept, hok, hfail⟩ :=
    rvConvertJsonToDatatypeCode_sound parse fuel text _ _ _ hrun hdefined
  cases outcome with
  | undefined => exact absurd rfl hdefined
  | fail => exact .inr (hfail rfl (hkept.held_eq_iff.mp (hheld rfl)))
  | ok value =>
      obtain ⟨more, -, ht⟩ := hok value.1 value.2 rfl
      exact .inl ⟨_, _, ht⟩

/-- The type of the field. -/
def fieldTypeTree : Json :=
  .object [] [] [(lit "class", .string (lit "H5T_INTEGER")),
    (lit "base", .string (lit "H5T_STD_I8LE"))]

/-- The text of the type. -/
def fieldTypeText : Text :=
  lit "\x7b\"type\":\x7b\"class\":\"H5T_INTEGER\",\"base\":\"H5T_STD_I8LE\"\x7d\x7d"

/-- The fields of the compound: one, with an empty name. -/
def namelessFields : List Json :=
  [.object [] [] [(lit "name", .string []), (lit "type", fieldTypeTree)]]

/-- The text of the compound. -/
def namelessText : Text :=
  lit "\x7b\"type\":\x7b\"class\":\"H5T_COMPOUND\",\"fields\":[\x7b\"name\":\"\",\"type\":" ++
    lit "\x7b\"class\":\"H5T_INTEGER\",\"base\":\"H5T_STD_I8LE\"\x7d\x7d]\x7d\x7d"

/-- A parser that knows the two texts. -/
def namelessParse (text : Text) : Option Json :=
  if text = namelessText then
    some (.object [] [] [(lit "type", .object [] [] [(lit "class", .string (lit "H5T_COMPOUND")),
      (lit "fields", .array [] namelessFields)])])
  else if text = fieldTypeText then some (.object [] [] [(lit "type", fieldTypeTree)])
  else none

/-- The text of the type is cut out of the text of the compound. -/
theorem memberText_nameless : ((strstr (lit "\"fields\"") namelessText).bind fun fieldsPtr =>
    (findSection (lit "\"type\"") fieldsPtr).map fun section_ =>
      memberText section_.1 section_.2.2) = some fieldTypeText := by
  decide +kernel

theorem hasClass_nameless : ∃ tree, HasClass namelessParse namelessText tree (lit "H5T_COMPOUND") ∧
    HasFields tree namelessFields := by
  refine ⟨_, ⟨if_pos rfl, ?_⟩, [], ?_, List.cons_ne_nil _ _⟩
  · simp [Json.at?, Json.member]
  · have hne : lit "class" ≠ lit "fields" := by unfold lit; decide
    simp [Json.at?, Json.member, hne]

theorem names_nameless : compoundMemberNames namelessFields = .ok [some []] := by
  have hne : lit "type" ≠ lit "name" := by unfold lit; decide
  simp [namelessFields, compoundMemberNames, lastName, hne]

/-- The type of the field is described, so it is not what is rejected. -/
theorem describes_fieldType : ∃ t, Denotes namelessParse fieldTypeText t false := by
  have hne : fieldTypeText ≠ namelessText := by decide +kernel
  have hclass : HasClass namelessParse fieldTypeText (.object [] [] [(lit "type", fieldTypeTree)])
      (lit "H5T_INTEGER") := by
    refine ⟨by rw [namelessParse, if_neg hne, if_pos rfl], ?_⟩
    simp [fieldTypeTree, Json.at?, Json.member]
  have hplain : PlainClass (lit "H5T_INTEGER") := by unfold PlainClass lit; decide
  have hbase : lit "class" ≠ lit "base" := by unfold lit; decide
  have hinteger : integerOfBase (lit "H5T_STD_I8LE") = .ok ⟨1, .little, true⟩ := by
    unfold lit
    decide
  refine ⟨.integer ⟨1, .little, true⟩, .plain hclass hplain ?_⟩
  rw [convertPlain, if_pos rfl]
  simp [typeBase, fieldTypeTree, Json.at?, Json.member, hbase, hinteger]

/-- No text is described and rejected. -/
theorem Denotes.not_rejected {parse : Text → Option Json} {text : Text} {t : Datatype}
    {nested : Bool} (h : Denotes parse text t nested) : ¬ Rejected parse text := by
  intro hrejected
  have hcomplete := rvConvertJsonToDatatypeCode_complete parse _ text (Nat.lt_succ_self _) .empty
  obtain ⟨id, more, ⟨l, hok, -⟩, -⟩ := hcomplete.1 t nested h
  obtain ⟨l', hfail, -⟩ := hcomplete.2 hrejected
  cases hok.symm.trans hfail

end XHDF5.Client
