/-
# A dataset that is opened

The client reads the description that the plugin writes. The dataspace comes back with its current
dimensions for the maximum ones, the datatype only when the file stores the native type, and the
layout not at all.
-/

import XHDF5.Client.DatatypeRead
import XHDF5.Client.Open
import XHDF5.Plugin.Describe

namespace XHDF5.Exchange

open XHDF5.Math XHDF5.Client XHDF5.Plugin

/-! ## The description is plain -/

section Plain

theorem plainWord_timeToString (time : Int) : Doc.PlainWord (timeToString time) := by
  refine .inr (.inr ⟨if time < 0 then ['-'] else [], toFloat time.natAbs, lit "000000", ?_, ?_, ?_, ?_⟩)
  · unfold timeToString lit
    rfl
  · split
    · exact .inr rfl
    · exact .inl rfl
  · unfold lit
    decide
  · unfold lit
    decide

theorem separates_comma : Doc.Separates false (lit ", ") :=
  ⟨[], [' '], by unfold lit; rfl, Json.blank_nil, by decide⟩

theorem separates_bare : Doc.Separates false (lit ",") :=
  ⟨[], [], by unfold lit; rfl, Json.blank_nil, Json.blank_nil⟩

theorem blank_lit : Json.Blank (lit " ") := by unfold lit; decide

theorem plain_spaced {items : List Doc} (h : ∀ x ∈ items, x.Plain) :
    Doc.PlainItems true (spaced items) := by
  cases items with
  | nil => trivial
  | cons x items =>
      rw [spaced, Doc.PlainItems]
      refine ⟨Json.blank_nil, h x (by simp), ?_⟩
      have hrest : ∀ y ∈ items, y.Plain := fun y hy => h y (by simp [hy])
      clear h
      induction items with
      | nil => trivial
      | cons y items ih =>
          rw [List.map_cons, Doc.PlainItems]
          exact ⟨separates_comma, hrest y (by simp), ih fun z hz => hrest z (by simp [hz])⟩

theorem plain_dimsDoc (values : List Nat) : (dimsDoc values).Plain := by
  rw [dimsDoc, Doc.Plain]
  refine ⟨Json.blank_nil, plain_spaced fun x hx => ?_⟩
  obtain ⟨value, -, rfl⟩ := List.mem_map.mp hx
  exact plain_word value

theorem plainText_h5spaceToString (space : Dataspace) : Json.PlainText (h5spaceToString space) := by
  unfold h5spaceToString lit
  split <;> decide

theorem plainText_h5typeToString (type : StoredType) : Json.PlainText (h5typeToString type) := by
  unfold h5typeToString lit
  split <;> decide

theorem plainText_describedTypes : ∀ entry ∈ describedTypes, Json.PlainText entry.1 := by
  unfold describedTypes lit
  simp only [List.forall_mem_cons]
  decide

theorem plainText_baseTypeName (nativeType : ElementType → ElementType) (type : StoredType) :
    Json.PlainText (baseTypeName nativeType type) := by
  unfold baseTypeName
  split
  · unfold h5basetypeToString
    cases hfind : describedTypes.find? _ with
    | none => exact fun c hc => by cases hc
    | some entry => exact plainText_describedTypes entry (List.mem_of_find?_eq_some hfind)
  · exact fun c hc => by cases hc
  · exact plainText_describedTypes _ (List.get_mem _ _)

theorem plain_shapeDoc (space : Dataspace) : (shapeDoc space).Plain := by
  rw [shapeDoc, Doc.Plain]
  simp only [Doc.PlainMembers, Doc.Separates, if_true]
  exact ⟨Json.blank_nil, blank_lit, by unfold lit; decide, Json.blank_nil, plainText_h5spaceToString space,
    separates_bare, by unfold lit; decide, Json.blank_nil, plain_dimsDoc _,
    separates_bare, by unfold lit; decide, Json.blank_nil, plain_dimsDoc _, trivial⟩

theorem plain_typeDoc {typeClass base : Text} (hclass : Json.PlainText typeClass)
    (hbase : Json.PlainText base) : (typeDoc typeClass base).Plain := by
  unfold typeDoc
  split
  · simp only [Doc.Plain, Doc.PlainMembers]
    exact ⟨Json.blank_nil, blank_lit, by unfold lit; decide, Json.blank_nil, hclass,
      separates_bare, by unfold lit; decide, Json.blank_nil, hbase, trivial⟩
  · simp only [Doc.Plain, Doc.PlainMembers]
    exact ⟨Json.blank_nil, blank_lit, by unfold lit; decide, Json.blank_nil, hclass, trivial⟩

theorem plain_describedLayout (dims : List Nat) : (describedLayout dims).Plain := by
  rw [describedLayout, Doc.Plain]
  simp only [Doc.PlainMembers]
  exact ⟨Json.blank_nil, blank_lit, by unfold lit; decide, Json.blank_nil, by rw [Doc.Plain]; unfold lit; decide,
    separates_bare, by unfold lit; decide, Json.blank_nil, plain_dimsDoc _, trivial⟩

theorem plain_hrefsDoc : hrefsDoc.Plain := by
  have hpaths : ∀ link ∈ hrefs, Json.PlainText link.1 ∧ Json.PlainText link.2 := by
    unfold hrefs lit
    simp only [List.forall_mem_cons]
    decide
  rw [hrefsDoc, Doc.Plain]
  refine ⟨Json.blank_nil, plain_spaced fun x hx => ?_⟩
  obtain ⟨link, hlink, rfl⟩ := List.mem_map.mp hx
  simp only [Doc.Plain, Doc.PlainMembers]
  exact ⟨Json.blank_nil, Json.blank_nil, by unfold lit; decide, blank_lit, (hpaths link hlink).1,
    separates_comma, by unfold lit; decide, blank_lit,
    plainText_append (by unfold lit; decide) (hpaths link hlink).2, trivial⟩

/-- With a plain path the description is a plain document. -/
theorem plain_descriptionDoc (nativeType : ElementType → ElementType) (created lastModified : Int)
    {filepath : Text} (hpath : Json.PlainText filepath) (dataset : FileDataset) :
    (descriptionDoc nativeType created lastModified filepath dataset).Plain := by
  have hkeys : ∀ key ∈ [lit "id", lit "root", lit "attributeCount", lit "created", lit "domain",
      lit "class", lit "hrefs", lit "shape", lit "type", lit "layout", lit "creationProperties",
      lit "lastModified", datasetId, rootId, lit "dataset"], Json.PlainText key := by
    unfold datasetId rootId lit
    simp only [List.forall_mem_cons]
    decide
  simp only [List.forall_mem_cons] at hkeys
  obtain ⟨hid, hroot, hcount, hcreated, hdomain, hclass, hhrefs, hshape, htype, hlayout, hprops,
    hmodified, hdatasetId, hrootId, hdataset, -⟩ := hkeys
  have hempty : (Doc.object [] []).Plain := by
    rw [Doc.Plain]
    exact ⟨Json.blank_nil, trivial⟩
  have htypeDoc := plain_typeDoc (plainText_h5typeToString dataset.type)
    (plainText_baseTypeName nativeType dataset.type)
  rw [descriptionDoc, Doc.Plain]
  refine ⟨Json.blank_nil, Json.blank_nil, hid, blank_lit, hdatasetId,
    separates_comma, hroot, blank_lit, hrootId, separates_comma, hcount, blank_lit, plain_word 0,
    separates_comma, hcreated, blank_lit, plainWord_timeToString created,
    separates_comma, hdomain, blank_lit, hpath, separates_comma, hclass, blank_lit, hdataset,
    separates_comma, hhrefs, blank_lit, plain_hrefsDoc,
    separates_comma, hshape, blank_lit, plain_shapeDoc _, separates_comma, htype, blank_lit, htypeDoc,
    separates_comma, hlayout, blank_lit, plain_describedLayout _, separates_bare, hprops, blank_lit, hempty,
    separates_comma, hmodified, blank_lit, plainWord_timeToString lastModified, trivial⟩

end Plain

/-! ## The tree of the description -/

section Tree

variable {nativeType : ElementType → ElementType} {created lastModified : Int} {filepath : Text}
  {dataset : FileDataset}

theorem json_dimsDoc (values : List Nat) :
    (dimsDoc values).json? = some (.array [] (values.map fun value : Nat => .number value)) := by
  have hword (value : Nat) : (Doc.word (decimal value)).json? = some (.number value) := by
    have hread := @Json.readNumber_append value [] nofun
    rw [List.append_nil, decimalInt_natCast] at hread
    rw [Doc.json?, hread]
    rfl
  have hitems : Doc.jsonItems (spaced (values.map fun value => .word (decimal value))) =
      some (values.map fun value : Nat => .number value) := by
    apply Doc.jsonItems_map
    cases values with
    | nil => exact .nil
    | cons value values =>
        refine .cons (hword value) ?_
        rw [List.map_map]
        exact List.forall₂_map_left_iff.mpr (List.forall₂_map_right_iff.mpr
          (List.forall₂_same.mpr fun next _ => hword next))
  rw [dimsDoc, Doc.json?, hitems]
  rfl

theorem json_describedLayout (dims : List Nat) : ∃ j, (describedLayout dims).json? = some j := by
  obtain ⟨values, hvalues⟩ := @Doc.exists_jsonMembers
    [(lit " ", lit "class", [], .string (lit "H5D_CHUNKED")), (lit ",", lit "dims", [], dimsDoc dims)]
    (by
      simp only [List.forall_mem_cons]
      exact ⟨⟨_, rfl⟩, ⟨_, json_dimsDoc _⟩, nofun⟩)
  exact ⟨.object [] [] values, by rw [describedLayout, Doc.json?, hvalues]; rfl⟩

theorem mem_spaced {items : List Doc} {item : Text × Doc} (h : item ∈ spaced items) :
    item.2 ∈ items := by
  cases items with
  | nil => cases h
  | cons x items =>
      rcases List.mem_cons.mp h with rfl | h
      · exact List.mem_cons_self
      · obtain ⟨y, hy, rfl⟩ := List.mem_map.mp h
        exact List.mem_cons_of_mem _ hy

theorem json_shapeDoc (space : Dataspace) : ∃ j, (shapeDoc space).json? = some j := by
  obtain ⟨values, hvalues⟩ := @Doc.exists_jsonMembers
    [(lit " ", lit "class", [], .string (h5spaceToString space)),
      (lit ",", lit "dims", [], dimsDoc (dimsOf space)),
      (lit ",", lit "maxdims", [], dimsDoc (dimsOf space))] (by
        simp only [List.forall_mem_cons]
        exact ⟨⟨_, rfl⟩, ⟨_, json_dimsDoc _⟩, ⟨_, json_dimsDoc _⟩, nofun⟩)
  exact ⟨.object [] [] values, by rw [shapeDoc, Doc.json?, hvalues]; rfl⟩

theorem json_typeDoc (typeClass base : Text) : ∃ j, (typeDoc typeClass base).json? = some j := by
  unfold typeDoc
  split <;> exact ⟨_, rfl⟩

theorem json_time (time : Int) : ∃ j, (Doc.word (timeToString time)).json? = some j := by
  have hrest : ∀ c ∈ (lit ".000000").head?, c.isDigit = false := by
    unfold lit
    rintro c ⟨⟩
    rfl
  obtain ⟨r, hr⟩ : ∃ r, Json.readNumber (timeToString time) = some r := by
    unfold timeToString
    split
    · rw [List.singleton_append, Json.readNumber, scanDigits_decimal_append _ _ hrest]
      exact ⟨_, rfl⟩
    · have hread := Json.readNumber_append (toFloat time.natAbs) hrest
      rw [decimalInt_natCast] at hread
      exact ⟨_, hread⟩
  exact ⟨.number r.1, by rw [Doc.json?, hr]; rfl⟩

theorem json_hrefsDoc : ∃ j, hrefsDoc.json? = some j := by
  have hlinks : ∀ x ∈ hrefs.map fun link => Doc.object [([], lit "rel", lit " ", .string link.1),
      (lit ", ", lit "href", lit " ",
        .string (lit "https://hepslustretest02.ihep.ac.cn:1094/" ++ link.2))] [],
      ∃ j, x.json? = some j := by
    intro x hx
    obtain ⟨link, -, rfl⟩ := List.mem_map.mp hx
    exact ⟨_, rfl⟩
  obtain ⟨values, hvalues⟩ := Doc.exists_jsonItems fun item hitem =>
    hlinks item.2 (mem_spaced hitem)
  exact ⟨.array [] values, by rw [hrefsDoc, Doc.json?, hvalues]; rfl⟩

theorem json_descriptionDoc :
    ∃ j, (descriptionDoc nativeType created lastModified filepath dataset).json? = some j := by
  have hcount : ∃ j, (Doc.word (decimal 0)).json? = some j := ⟨_, rfl⟩
  obtain ⟨values, hvalues⟩ := @Doc.exists_jsonMembers
    [([], lit "id", lit " ", .string datasetId), (lit ", ", lit "root", lit " ", .string rootId),
    (lit ", ", lit "attributeCount", lit " ", .word (decimal 0)),
    (lit ", ", lit "created", lit " ", .word (timeToString created)),
    (lit ", ", lit "domain", lit " ", .string filepath),
    (lit ", ", lit "class", lit " ", .string (lit "dataset")), (lit ", ", lit "hrefs", lit " ", hrefsDoc),
    (lit ", ", lit "shape", lit " ", shapeDoc dataset.space),
    (lit ", ", lit "type", lit " ",
      typeDoc (h5typeToString dataset.type) (baseTypeName nativeType dataset.type)),
    (lit ", ", lit "layout", lit " ", describedLayout (layoutDims dataset)),
    (lit ",", lit "creationProperties", lit " ", .object [] []),
    (lit ", ", lit "lastModified", lit " ", .word (timeToString lastModified))] (by
      simp only [List.forall_mem_cons]
      exact ⟨⟨_, rfl⟩, ⟨_, rfl⟩, hcount, json_time created, ⟨_, rfl⟩, ⟨_, rfl⟩, json_hrefsDoc,
        json_shapeDoc _, json_typeDoc _ _, json_describedLayout _, ⟨_, rfl⟩, json_time lastModified,
        nofun⟩)
  exact ⟨.object [] [] values, by rw [descriptionDoc, Doc.json?, hvalues]; rfl⟩

/-- What the members of the description are. -/
theorem member_descriptionDoc : ∀ entry ∈
    [(lit "id", Doc.string datasetId), (lit "root", .string rootId), (lit "domain", .string filepath),
      (lit "shape", shapeDoc dataset.space), (lit "creationProperties", .object [] [])],
    (descriptionDoc nativeType created lastModified filepath dataset).member entry.1 =
      some entry.2 := by
  simp only [List.forall_mem_cons]
  refine ⟨?_, ?_, ?_, ?_, ?_, nofun⟩ <;>
    (unfold descriptionDoc; repeat rw [lit_ofList]) <;> rfl

theorem member_link :
    (descriptionDoc nativeType created lastModified filepath dataset).member (lit "link") = none := by
  unfold descriptionDoc
  repeat rw [lit_ofList]
  rfl

end Tree

/-! ## What is read -/

/-- The dataspace that is read for one that was described. -/
def describedSpace : Dataspace → Dataspace
  | .simple extent => .simple (extent.map fun d =>
      (readSize d.1, if readSize d.1 = 0 then h5sUnlimited else readSize d.1))
  | space => space

theorem valid_describedSpace {space : Dataspace} (h : space.Valid) : (describedSpace space).Valid := by
  cases space with
  | null | scalar => trivial
  | simple extent =>
      obtain ⟨hne, hrank, -⟩ := h
      refine ⟨by simpa [describedSpace] using hne, by simpa [describedSpace] using hrank, fun d hd => ?_⟩
      obtain ⟨e, -, rfl⟩ := List.mem_map.mp hd
      have hlt : readSize e.1 < h5sUnlimited :=
        Nat.lt_of_le_of_lt (Nat.min_le_right _ _) (by decide)
      refine ⟨hlt, ?_, ?_⟩
      · dsimp only
        split
        · next hzero => exact hlt.le
        · exact Nat.le_refl _
      · dsimp only
        split
        · exact Nat.le_refl _
        · exact hlt.le

section Read

variable {yajl : Text → Option Doc} (hyajl : Doc.ReadsDocuments yajl)
  {nativeType : ElementType → ElementType} {created lastModified : Int} {filepath : Text}
  (hpath : Json.PlainText filepath) (dataset : FileDataset)

include hyajl hpath

theorem yajl_descriptionDoc :
    yajl (descriptionDoc nativeType created lastModified filepath dataset).render =
      some (descriptionDoc nativeType created lastModified filepath dataset).bare :=
  hyajl _ (plain_descriptionDoc nativeType created lastModified hpath dataset)

theorem rvCopyObjectLocInfo_description :
    rvCopyObjectLocInfo yajl (descriptionDoc nativeType created lastModified filepath dataset).render =
      .ok ⟨filepath, datasetId⟩ := by
  have hmembers := @member_descriptionDoc nativeType created lastModified filepath dataset
  simp only [List.forall_mem_cons] at hmembers
  obtain ⟨hid, hroot, hdomain, -⟩ := hmembers
  have hlength : datasetId.length = 38 ∧ rootId.length = 38 := by
    unfold datasetId rootId lit
    decide
  have hlink (key : Text) :
      stringAt (descriptionDoc nativeType created lastModified filepath dataset).bare
        [lit "link", key] = none := by
    rw [stringAt, Doc.member_bare, member_link]
    rfl
  have hstring {key text : Text} (h : (descriptionDoc nativeType created lastModified filepath
      dataset).member key = some (.string text)) :
      stringAt (descriptionDoc nativeType created lastModified filepath dataset).bare [key] =
        some text := by
    rw [stringAt, Doc.member_bare, h]
    rfl
  have huri : rvCopyObjectUriCallback yajl
      (descriptionDoc nativeType created lastModified filepath dataset).render = .ok datasetId := by
    rw [rvCopyObjectUriCallback, yajl_descriptionDoc hyajl hpath dataset]
    simp only [hlink, hstring hid]
    rw [if_neg (by simp), Option.none_or, Option.some_or]
    simp only [hlength, uriMaxLength]
    rfl
  rw [rvCopyObjectLocInfo, yajl_descriptionDoc hyajl hpath dataset]
  simp only [hstring hdomain, hstring hroot, hlength, uriMaxLength, huri]
  rfl

theorem rvParseDataspace_description :
    rvParseDataspace (yajlTreeParse yajl)
        (descriptionDoc nativeType created lastModified filepath dataset).render =
      .ok (describedSpace dataset.space) := by
  obtain ⟨tree, htree⟩ := @json_descriptionDoc nativeType created lastModified filepath dataset
  obtain ⟨shape, hshape⟩ := json_shapeDoc dataset.space
  have hmember : (descriptionDoc nativeType created lastModified filepath dataset).member
      (lit "shape") = some (shapeDoc dataset.space) :=
    member_descriptionDoc (lit "shape", shapeDoc dataset.space) (by simp)
  have hparse : yajlTreeParse yajl
      (descriptionDoc nativeType created lastModified filepath dataset).render = some tree := by
    rw [yajlTreeParse, yajl_descriptionDoc hyajl hpath dataset, Option.bind_some, Doc.json?_bare, htree]
  have hat (key : Text) : tree.at? [lit "shape", key] =
      ((shapeDoc dataset.space).member key).bind Doc.json? := Doc.at_json htree hshape hmember key
  have hclass : tree.at? [lit "shape", lit "class"] =
      some (.string (h5spaceToString dataset.space)) := by
    rw [hat]
    unfold shapeDoc
    repeat rw [lit_ofList]
    rfl
  have hdims : tree.at? [lit "shape", lit "dims"] = some (.array []
      ((dimsOf dataset.space).map fun value : Nat => .number value)) := by
    have hmember : (shapeDoc dataset.space).member (lit "dims") =
        some (dimsDoc (dimsOf dataset.space)) := by
      unfold shapeDoc
      repeat rw [lit_ofList]
      rfl
    rw [hat, hmember, Option.bind_some, json_dimsDoc]
  have hmaxdims : tree.at? [lit "shape", lit "maxdims"] = some (.array []
      ((dimsOf dataset.space).map fun value : Nat => .number value)) := by
    have hmember : (shapeDoc dataset.space).member (lit "maxdims") =
        some (dimsDoc (dimsOf dataset.space)) := by
      unfold shapeDoc
      repeat rw [lit_ofList]
      rfl
    rw [hat, hmember, Option.bind_some, json_dimsDoc]
  have hvalid := valid_describedSpace dataset.valid
  rw [rvParseDataspace, hparse]
  simp only [hclass, hdims, hmaxdims, Option.bind_some, arrayItems]
  cases hspace : dataset.space with
  | null => rw [h5spaceToString, if_pos rfl]; rfl
  | scalar => rw [h5spaceToString, if_neg classes_shape.1, if_pos rfl]; rfl
  | simple extent =>
      have hne := dataset.valid
      rw [hspace] at hne hvalid
      have hread := parseExtent_numbers (extent.map fun d => (d.1, d.1))
      simp only [List.map_map, Function.comp_def] at hread
      obtain ⟨d, rest, rfl⟩ := List.exists_cons_of_ne_nil hne.1
      rw [h5spaceToString, if_neg classes_shape.2.1, if_neg classes_shape.2.2, if_pos rfl]
      simp only [dimsOf, List.map_map, Function.comp_def]
      refine (congrArg (Outcome.bind · h5screateSimple) hread).trans ?_
      rw [Outcome.ok_bind, h5screateSimple]
      exact if_pos hvalid

theorem rvParseDatasetCreationPropertiesCallback_description (size : Nat) :
    rvParseDatasetCreationPropertiesCallback yajl size
        (descriptionDoc nativeType created lastModified filepath dataset).render = .ok .default := by
  have hmember : (descriptionDoc nativeType created lastModified filepath dataset).member
      (lit "creationProperties") = some (.object [] []) :=
    member_descriptionDoc (lit "creationProperties", Doc.object [] []) (by simp)
  rw [rvParseDatasetCreationPropertiesCallback, yajl_descriptionDoc hyajl hpath dataset,
    Option.bind_some, Doc.member_bare, hmember]
  rfl

end Read

/-! ## The section of the type -/

section TypeSection

variable {nativeType : ElementType → ElementType} {created lastModified : Int} {filepath : Text}

/-- The members of the description before the type. -/
def membersBefore (created : Int) (filepath : Text) (space : Dataspace) :
    List (Text × Text × Text × Doc) :=
  [([], lit "id", lit " ", .string datasetId), (lit ", ", lit "root", lit " ", .string rootId),
    (lit ", ", lit "attributeCount", lit " ", .word (decimal 0)),
    (lit ", ", lit "created", lit " ", .word (timeToString created)),
    (lit ", ", lit "domain", lit " ", .string filepath),
    (lit ", ", lit "class", lit " ", .string (lit "dataset")), (lit ", ", lit "hrefs", lit " ", hrefsDoc),
    (lit ", ", lit "shape", lit " ", shapeDoc space)]

/-- The members of the description behind the type. -/
def membersBehind (lastModified : Int) (dims : List Nat) : List (Text × Text × Text × Doc) :=
  [(lit ", ", lit "layout", lit " ", describedLayout dims),
    (lit ",", lit "creationProperties", lit " ", .object [] []),
    (lit ", ", lit "lastModified", lit " ", .word (timeToString lastModified))]

theorem descriptionDoc_eq (dataset : FileDataset) :
    descriptionDoc nativeType created lastModified filepath dataset =
      .object (membersBefore created filepath dataset.space ++ (lit ", ", lit "type", lit " ",
        typeDoc (h5typeToString dataset.type) (baseTypeName nativeType dataset.type)) ::
          membersBehind lastModified (layoutDims dataset)) [] := rfl

theorem searchable_type : Doc.Searchable (lit "type") where
  quote := by unfold lit; decide
  head := by
    unfold lit
    exact ⟨'t', rfl, by decide, by decide⟩

theorem silentItems {key : Text} {items : List (Text × Doc)} (h : ∀ item ∈ items, item.2.Silent key) :
    Doc.SilentItems key items := by
  induction items with
  | nil => trivial
  | cons item items ih =>
      rw [Doc.SilentItems]
      exact ⟨h item (by simp), ih fun other hother => h other (by simp [hother])⟩

theorem silent_hrefsDoc : hrefsDoc.Silent (lit "type") := by
  have hkeys : lit "rel" ≠ lit "type" ∧ lit "href" ≠ lit "type" := by unfold lit; decide
  have hlinks : ∀ link ∈ hrefs, link.1 ≠ lit "type" ∧
      lit "https://hepslustretest02.ihep.ac.cn:1094/" ++ link.2 ≠ lit "type" := by
    unfold hrefs lit
    decide
  rw [hrefsDoc, Doc.Silent]
  refine silentItems fun item hitem => ?_
  obtain ⟨link, hlink, hvalue⟩ := List.mem_map.mp (mem_spaced hitem)
  rw [← hvalue]
  exact ⟨hkeys.1, (hlinks link hlink).1, hkeys.2, (hlinks link hlink).2, trivial⟩

theorem silent_membersBefore (created : Int) {filepath : Text} (hpath : filepath ≠ lit "type")
    (space : Dataspace) :
    Doc.SilentMembers (lit "type") (membersBefore created filepath space) := by
  have hdims (values : List Nat) : (dimsDoc values).Silent (lit "type") := by
    rw [dimsDoc, Doc.Silent]
    refine silentItems fun item hitem => ?_
    obtain ⟨value, -, hvalue⟩ := List.mem_map.mp (mem_spaced hitem)
    rw [← hvalue]
    trivial
  have hspace : h5spaceToString space ≠ lit "type" := by
    unfold h5spaceToString lit
    split <;> decide
  have hkeys : ∀ key ∈ [lit "id", lit "root", lit "attributeCount", lit "created", lit "domain",
      lit "class", lit "hrefs", lit "shape", lit "dims", lit "maxdims", lit "dataset", datasetId,
      rootId], key ≠ lit "type" := by
    unfold datasetId rootId lit
    decide
  simp only [List.forall_mem_cons] at hkeys
  simp only [membersBefore, shapeDoc, Doc.SilentMembers, Doc.Silent]
  obtain ⟨hid, hroot, hcount, hcreated, hdomain, hclass, hhrefs, hshape, hdimsKey, hmaxdims, hdataset,
    hdatasetId, hrootId, -⟩ := hkeys
  exact ⟨hid, hdatasetId, hroot, hrootId, hcount, trivial, hcreated, trivial, hdomain, hpath, hclass,
    hdataset, hhrefs, silent_hrefsDoc, hshape, ⟨hclass, hspace, hdimsKey, hdims _, hmaxdims, hdims _,
      trivial⟩, trivial⟩

/-- The text between the braces of the type. -/
theorem render_typeDoc_braces {typeClass base : Text} (hclass : Json.PlainText typeClass)
    (hbase : Json.PlainText base) : ∃ inner, Quiet inner ∧
      (typeDoc typeClass base).render = '{' :: (inner ++ ['}']) := by
  have hkeys : Json.PlainText (lit "class") ∧ Json.PlainText (lit "base") := by unfold lit; decide
  have hgaps : Quiet (lit " ") ∧ Quiet (lit ",") := by
    constructor <;> (apply quiet_of_forall; unfold lit; decide)
  have hfirst : Quiet (lit " " ++ (quoted (lit "class") ++ ':' :: quoted typeClass)) :=
    quiet_append hgaps.1 (quiet_append (quiet_quoted hkeys.1)
      (quiet_cons (by decide) (quiet_quoted hclass)))
  unfold typeDoc
  split
  · refine ⟨_, quiet_append hfirst (quiet_append hgaps.2 (quiet_append (quiet_quoted hkeys.2)
      (quiet_cons (c := ':') (by decide) (quiet_quoted hbase)))), ?_⟩
    simp only [Doc.render, Doc.renderMembers, quoted, List.append_assoc, List.cons_append,
      List.nil_append]
  · refine ⟨_, hfirst, ?_⟩
    simp only [Doc.render, Doc.renderMembers, quoted, List.append_assoc, List.cons_append,
      List.nil_append]

/-- The section of the type is found. -/
theorem findSection_type {space : Dataspace} (hpath : filepath ≠ lit "type")
    (hbefore : Doc.PlainMembers true (membersBefore created filepath space)) {typeClass base : Text}
    (hclass : Json.PlainText typeClass) (hbase : Json.PlainText base) (rest : Text) :
    findSection (lit "\"type\"") ('{' :: (Doc.renderMembers (membersBefore created filepath space) ++
        (lit ", " ++ (quoted (lit "type") ++ lit ": " ++ ((typeDoc typeClass base).render ++ rest))))) =
      some (quoted (lit "type") ++ lit ": " ++ ((typeDoc typeClass base).render ++ rest),
        (typeDoc typeClass base).render ++ rest, rest) := by
  have hbrace : '{' ∉ quoted (lit "type") ++ lit ": " := by unfold quoted lit; decide
  have hends (text : Text) : Doc.EndsWord (lit ", " ++ text) := Doc.endsWord_separated separates_comma _
  obtain ⟨inner, hinner, hrender⟩ := render_typeDoc_braces hclass hbase
  have htype : (typeDoc typeClass base).render ++ rest = '{' :: (inner ++ '}' :: rest) := by
    rw [hrender, List.cons_append, List.append_assoc, List.singleton_append]
  rw [htype]
  apply findSection_braces hbrace hinner
  rw [quoted_lit_type, Doc.strstr_cons _ (by decide),
    Doc.strstr_renderMembers searchable_type true _ hbefore (silent_membersBefore created hpath space) _
      (hends _), Doc.strstr_gap _ separates_comma, List.append_assoc]
  exact strstr_self (by simp [quoted])

end TypeSection

section ReadType

variable {yajl : Text → Option Doc} (hyajl : Doc.ReadsDocuments yajl)

/-- The type alone. -/
def typeOnly (typeClass base : Text) : Doc :=
  .object [([], lit "type", lit " ", typeDoc typeClass base)] []

theorem render_typeOnly (typeClass base : Text) : (typeOnly typeClass base).render =
    lit "\x7b" ++ (quoted (lit "type") ++ lit ": " ++ (typeDoc typeClass base).render) ++
      lit "\x7d" := by
  simp only [typeOnly, Doc.render, Doc.renderMembers, quoted]
  repeat rw [lit_ofList]
  simp only [List.cons_append, List.nil_append, List.append_assoc]

/-- What the classes of numbers and the others are converted to. -/
def convertedType (typeClass base : Text) : Outcome Datatype :=
  if base = [] then .fail
  else if typeClass = lit "H5T_INTEGER" then
    (integerOfBase base).bind fun base => .ok (.integer base)
  else if typeClass = lit "H5T_FLOAT" then floatOfBase base
  else .fail

theorem rvConvertJsonToDatatype_typeOnly (hyajl : Doc.ReadsDocuments yajl) (type : StoredType)
    {base : Text} (hbase : Json.PlainText base) (depth : Nat) :
    rvConvertJsonToDatatype (yajlTreeParse yajl) (depth + 1)
        (typeOnly (h5typeToString type) base).render =
      convertedType (h5typeToString type) base := by
  have hclassText := plainText_h5typeToString type
  generalize hclass : h5typeToString type = typeClass at hclassText ⊢
  have hplain : (typeOnly typeClass base).Plain := by
    rw [typeOnly, Doc.Plain]
    exact ⟨Json.blank_nil, Json.blank_nil, by unfold lit; decide, blank_lit,
      plain_typeDoc hclassText hbase, trivial⟩
  obtain ⟨type', htype⟩ := json_typeDoc typeClass base
  obtain ⟨tree, htree⟩ : ∃ j, (typeOnly typeClass base).json? = some j :=
    ⟨_, by rw [typeOnly, Doc.json?, Doc.jsonMembers, htype]; rfl⟩
  have hparse : yajlTreeParse yajl (typeOnly typeClass base).render = some tree := by
    rw [yajlTreeParse, hyajl _ hplain, Option.bind_some, Doc.json?_bare, htree]
  have hat (key : Text) : tree.at? [lit "type", key] =
      ((typeDoc typeClass base).member key).bind Doc.json? :=
    Doc.at_json htree htype (by
      unfold typeOnly
      repeat rw [lit_ofList]
      rfl) key
  have hclassAt : tree.at? [lit "type", lit "class"] = some (.string typeClass) := by
    rw [hat]
    unfold typeDoc
    repeat rw [lit_ofList]
    rfl
  have hbaseAt : tree.at? [lit "type", lit "base"] =
      if base = [] then none else some (.string base) := by
    rw [hat]
    unfold typeDoc
    by_cases hnil : base = []
    · rw [if_neg (not_not.mpr hnil), if_pos hnil]
      repeat rw [lit_ofList]
      rfl
    · rw [if_pos hnil, if_neg hnil]
      repeat rw [lit_ofList]
      rfl
  have hlength : tree.at? [lit "type", lit "length"] = none := by
    rw [hat]
    unfold typeDoc
    split <;> (repeat rw [lit_ofList]) <;> rfl
  have hlits : lit "H5T_FLOAT" ≠ lit "H5T_INTEGER" ∧ lit "H5T_STRING" ≠ lit "H5T_INTEGER" ∧
      lit "H5T_STRING" ≠ lit "H5T_FLOAT" := by
    unfold lit
    decide
  have hothers : typeClass ∉ [lit "H5T_COMPOUND", lit "H5T_ARRAY", lit "H5T_ENUM",
      lit "H5T_REFERENCE"] := by
    rw [← hclass]
    unfold h5typeToString lit
    split <;> decide
  simp only [List.mem_cons, List.not_mem_nil, or_false, not_or] at hothers
  obtain ⟨hcompound, harray, henum, hreference⟩ := hothers
  have hbaseOf : typeBase tree = if base = [] then .fail else .ok base := by
    rw [typeBase, hbaseAt]
    by_cases hnil : base = []
    · rw [if_pos hnil, if_pos hnil]
    · rw [if_neg hnil, if_neg hnil]
  rw [rvConvertJsonToDatatype, hparse]
  simp only [hclassAt]
  rw [convertClass, convertedType, hbaseOf]
  by_cases hnil : base = []
  · simp only [hnil, if_true, Outcome.fail_bind, convertString, hlength, hcompound, harray, henum,
      hreference, if_false]
    split_ifs <;> rfl
  · simp only [hnil, if_false, Outcome.ok_bind, convertString, hlength, hcompound, harray, henum,
      hreference]
    split_ifs <;> rfl

variable {nativeType : ElementType → ElementType} {created lastModified : Int} {filepath : Text}

theorem rvParseDatatype_description (hyajl : Doc.ReadsDocuments yajl)
    (hplain : Json.PlainText filepath) (hpath : filepath ≠ lit "type") (dataset : FileDataset) :
    rvParseDatatype (yajlTreeParse yajl)
        (descriptionDoc nativeType created lastModified filepath dataset).render =
      convertedType (h5typeToString dataset.type) (baseTypeName nativeType dataset.type) := by
  have hbase := plainText_baseTypeName nativeType dataset.type
  have hdoc := plain_descriptionDoc nativeType created lastModified hplain dataset
  have hbefore : Doc.PlainMembers true (membersBefore created filepath dataset.space) := by
    rw [descriptionDoc_eq, Doc.Plain] at hdoc
    exact (Doc.plainMembers_append.mp hdoc.2).1
  have hrender : (descriptionDoc nativeType created lastModified filepath dataset).render =
      '{' :: (Doc.renderMembers (membersBefore created filepath dataset.space) ++ (lit ", " ++
        (quoted (lit "type") ++ lit ": " ++ ((typeDoc (h5typeToString dataset.type)
          (baseTypeName nativeType dataset.type)).render ++
            (Doc.renderMembers (membersBehind lastModified (layoutDims dataset)) ++ ['}']))))) := by
    have hcolon : lit ": " = ':' :: lit " " := by unfold lit; rfl
    rw [descriptionDoc_eq, Doc.render, Doc.renderMembers_append, Doc.renderMembers, hcolon]
    simp only [quoted, List.append_assoc, List.cons_append, List.nil_append]
  have hsection (rest : Text) : before (quoted (lit "type") ++ lit ": " ++
      ((typeDoc (h5typeToString dataset.type) (baseTypeName nativeType dataset.type)).render ++ rest))
        rest = quoted (lit "type") ++ lit ": " ++
          (typeDoc (h5typeToString dataset.type) (baseTypeName nativeType dataset.type)).render := by
    rw [← List.append_assoc, before_append]
  rw [rvParseDatatype, hrender, findSection_type hpath hbefore
    (plainText_h5typeToString dataset.type) hbase]
  simp only [hsection, ← render_typeOnly]
  obtain ⟨depth, hdepth⟩ : ∃ depth, (typeOnly (h5typeToString dataset.type)
      (baseTypeName nativeType dataset.type)).render.length = depth + 1 :=
    ⟨_, List.length_cons⟩
  rw [hdepth, rvConvertJsonToDatatype_typeOnly hyajl dataset.type hbase]

end ReadType

/-! ## What an opened dataset should be -/

/-- The element type that a datatype of the client is. -/
def elementType? : Datatype → Option ElementType
  | .integer base =>
      if h : 0 < base.size then
        some (.integer { standardInteger base.size base.signed h with order := base.order })
      else none
  | .float 4 order => some (.float { ieeeF32 with order })
  | .float 8 order => some (.float { ieeeF64 with order })
  | _ => none

/-- The description is JSON, and the dataset is not opened or opened as it is in the file. -/
def OpensFaithfully (yajl : Text → Option Doc) (others : List (Text × Dataspace)) (response : Text)
    (dataset : FileDataset) : Prop :=
  JsonText response ∧ (rvDatasetOpenDescribed yajl others id response = .fail ∨
    ∃ opened, rvDatasetOpenDescribed yajl others id response = .ok opened ∧ opened.space = dataset.space ∧
      (elementType? opened.type).map StoredType.number = some dataset.type ∧
        opened.dcpl.layout = dataset.layout)

/-- The description of the type names a base type for a number. -/
def HasBase (nativeType : ElementType → ElementType) : StoredType → Prop
  | .number type => nativeType type ∈ describedTypes.map Prod.snd
  | .other _ _ => False

/-- The dimensions fit a `long long` and are the maximum ones, but a dimension without an element has
no maximum. -/
def Readable : Dataspace → Prop
  | .simple extent => ∀ d ∈ extent, d.1 < 2 ^ 63 ∧ d.2 = if d.1 = 0 then h5sUnlimited else d.1
  | _ => True

/-- The dataspace that an opened dataset gets is its own. -/
def GetsSpace (others : List (Text × Dataspace)) (space : Dataspace) : Prop :=
  match others.find? fun other => other.1 = datasetId with
  | some other => other.2 = space
  | none => Readable space

/-- The type that the description names. -/
def described (nativeType : ElementType → ElementType) : StoredType → StoredType
  | .number type => .number (nativeType type)
  | type => type

/-- The type is the native one, the layout contiguous, and the dataspace can be read, unless there is
no base type. -/
def OpensAsStored (nativeType : ElementType → ElementType) (others : List (Text × Dataspace))
    (dataset : FileDataset) : Prop :=
  HasBase nativeType dataset.type →
    GetsSpace others dataset.space ∧ dataset.type = described nativeType dataset.type ∧
      dataset.layout = .contiguous

/-- A path that stands in a JSON string as it is, and is not taken for the key of the type. -/
structure Describable (filepath : Text) : Prop where
  ne_nil : filepath ≠ []
  plain : Json.PlainText filepath
  ne_type : filepath ≠ lit "type"

theorem describedSpace_eq_iff {space : Dataspace} (hvalid : space.Valid) :
    describedSpace space = space ↔ Readable space := by
  cases space with
  | null | scalar => exact iff_of_true rfl trivial
  | simple extent =>
      rw [describedSpace, Readable, Dataspace.simple.injEq]
      conv_lhs => rhs; rw [← List.map_id extent]
      rw [List.map_inj_left]
      refine forall₂_congr fun d hd => ?_
      rw [id, Prod.ext_iff]
      dsimp only
      rw [readSize_eq_iff]
      refine and_congr_right fun hd => ?_
      rw [readSize_eq_iff.mpr hd, eq_comm]

/-- Each described type is converted to itself. -/
theorem convertedType_described : ∀ entry ∈ describedTypes, ∃ type,
    convertedType (h5typeToString (.number entry.2)) entry.1 = .ok type ∧
      elementType? type = some entry.2 := by
  unfold describedTypes convertedType h5typeToString
  repeat rw [lit_ofList]
  simp only [List.forall_mem_cons]
  refine ⟨?_, ?_, ?_, ?_, ?_, ?_, ?_, ?_, ?_, nofun⟩ <;> exact ⟨_, rfl, rfl⟩

section Main

variable {yajl : Text → Option Doc} {nativeType : ElementType → ElementType}

theorem convertedType_of_base (hnative : SearchesUpward nativeType) {type : StoredType}
    (hbase : HasBase nativeType type) : ∃ read,
      convertedType (h5typeToString type) (baseTypeName nativeType type) = .ok read ∧
        (elementType? read).map StoredType.number = some (described nativeType type) := by
  cases type with
  | other typeClass base => exact absurd hbase id
  | number type =>
      obtain ⟨entry, hentry, hsnd, hname⟩ := h5basetypeToString_mem hbase
      obtain ⟨read, hread, helement⟩ := convertedType_described entry hentry
      have hclass : h5typeToString (.number type) = h5typeToString (.number entry.2) := by
        rw [hsnd]
        cases type with
        | integer t => rw [hnative.integer]; rfl
        | float t => rw [hnative.float]; rfl
      refine ⟨read, ?_, ?_⟩
      · rw [hclass, baseTypeName, hname, hread]
      · rw [helement, hsnd]
        rfl

theorem convertedType_of_no_base {type : StoredType} (hbase : ¬ HasBase nativeType type) :
    convertedType (h5typeToString type) (baseTypeName nativeType type) = .fail := by
  cases type with
  | number type =>
      rw [baseTypeName, h5basetypeToString_eq_nil hbase, convertedType, if_pos rfl]
  | other typeClass base =>
      have hclass : h5typeToString (.other typeClass base) ≠ lit "H5T_INTEGER" ∧
          h5typeToString (.other typeClass base) ≠ lit "H5T_FLOAT" := by
        cases typeClass <;> (simp only [h5typeToString]; unfold lit; decide)
      rw [convertedType, if_neg hclass.1, if_neg hclass.2, ite_self]

/-- What the client makes of a description. -/
theorem rvDatasetOpenDescribed_description (hyajl : Doc.ReadsDocuments yajl) {created lastModified : Int}
    {filepath : Text} (h5path : Text) (hpath : Describable filepath) (dataset : FileDataset)
    {S : Type} (others : List (Text × S)) (register : Dataspace → S) :
    rvDatasetOpenDescribed yajl others register (xrdConvertDatasetToJson
        (xrdGetDatasetInfo nativeType created lastModified filepath h5path dataset)) =
      (convertedType (h5typeToString dataset.type) (baseTypeName nativeType dataset.type)).bind
        fun type => .ok ⟨⟨filepath, datasetId⟩,
          ((others.find? fun other => other.1 = datasetId).map Prod.snd).getD
            (register (describedSpace dataset.space)), type, .default⟩ := by
  rw [xrdConvertDatasetToJson_eq nativeType created lastModified h5path dataset hpath.ne_nil,
    rvDatasetOpenDescribed, rvCopyObjectLocInfo_description hyajl hpath.plain dataset, Outcome.ok_bind]
  have hspace : openedSpace yajl others register datasetId
      (descriptionDoc nativeType created lastModified filepath dataset).render =
        .ok (((others.find? fun other => other.1 = datasetId).map Prod.snd).getD
          (register (describedSpace dataset.space))) := by
    unfold openedSpace
    cases others.find? fun other => other.1 = datasetId with
    | some other => rfl
    | none => rw [rvParseDataspace_description hyajl hpath.plain dataset]; rfl
  rw [hspace, Outcome.ok_bind, rvParseDatatype_description hyajl hpath.plain hpath.ne_type]
  congr 1
  funext type
  rw [rvParseDatasetCreationPropertiesCallback_description hyajl hpath.plain dataset]
  rfl

/-- With a path that JSON shows as itself, a dataset is opened faithfully exactly when it is stored
as it is opened. -/
theorem opensFaithfully_iff_of_describable (hyajl : Doc.ReadsDocuments yajl) (hnative : SearchesUpward nativeType)
    (created lastModified : Int) {filepath : Text} (h5path : Text) (hpath : Describable filepath)
    (others : List (Text × Dataspace)) (dataset : FileDataset) :
    OpensFaithfully yajl others (xrdConvertDatasetToJson
        (xrdGetDatasetInfo nativeType created lastModified filepath h5path dataset)) dataset ↔
      OpensAsStored nativeType others dataset := by
  have hjson : JsonText (xrdConvertDatasetToJson
      (xrdGetDatasetInfo nativeType created lastModified filepath h5path dataset)) := by
    rw [xrdConvertDatasetToJson_eq nativeType created lastModified h5path dataset hpath.ne_nil]
    exact (plain_descriptionDoc nativeType created lastModified hpath.plain dataset).jsonText
  have hspace : ((others.find? fun other => other.1 = datasetId).map Prod.snd).getD
      (describedSpace dataset.space) = dataset.space ↔ GetsSpace others dataset.space := by
    unfold GetsSpace
    cases others.find? fun other => other.1 = datasetId with
    | some other => exact Iff.rfl
    | none => exact describedSpace_eq_iff dataset.valid
  rw [OpensFaithfully, and_iff_right hjson, rvDatasetOpenDescribed_description hyajl h5path hpath]
  by_cases hbase : HasBase nativeType dataset.type
  · obtain ⟨read, hread, helement⟩ := convertedType_of_base hnative hbase
    rw [hread, Outcome.ok_bind, OpensAsStored, ← hspace]
    constructor
    · rintro (hfail | ⟨opened, hopened, hown, htype, hlayout⟩) -
      · cases hfail
      · cases Outcome.ok.inj hopened
        rw [helement, Option.some.injEq] at htype
        exact ⟨hown, htype.symm, hlayout.symm⟩
    · intro h
      obtain ⟨hown, htype, hlayout⟩ := h hbase
      exact .inr ⟨_, rfl, hown, by rw [helement, ← htype], hlayout.symm⟩
  · rw [convertedType_of_no_base hbase]
    exact iff_of_true (.inl rfl) fun h => absurd h hbase

end Main

/-! ## Four numbers -/

/-- Four doubles, in a layout. -/
def fourNumbers (layout : Layout) (h : ∀ dims, layout = .chunked dims → dims.length = 1) :
    FileDataset where
  space := .simple [(4, 4)]
  type := .number (.float ieeeF64)
  layout
  valid := by decide
  chunkRank := h

theorem describable_f : Describable ['f'] := ⟨by decide, by decide, by unfold lit; decide⟩

end XHDF5.Exchange
