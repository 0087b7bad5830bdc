/-
# Creation properties as a document

The text of the creation properties is that of a document: one member for each property that is
printed. Between the members stand commas; behind the last filter that is printed one may be left.
-/

import XHDF5.Client.CreateBody
import XHDF5.Client.DatatypeJson
import XHDF5.Math.Document

namespace XHDF5.Client

open XHDF5.Math

/-! ## The members -/

def crtOrderDoc (flags : Nat) : Option Doc :=
  if flags = 0 then none else some (.string (lit "H5P_CRT_ORDER_" ++ crtOrderName flags))

def phaseChangeDoc (maxCompact minDense : UInt32) : Option Doc :=
  if maxCompact = 8 ∧ minDense = 6 then none
  else
    some (.object [([], lit "maxCompact", blank, .word (decimal maxCompact.toNat)),
      (lit ", ", lit "minDense", blank, .word (decimal minDense.toNat))] [])

def fillTimeDoc (fillTime : FillTime) : Option Doc :=
  if fillTime = .ifset then none
  else
    some (.string (lit "H5D_FILL_TIME_" ++ if fillTime = .alloc then lit "ALLOC" else lit "NEVER"))

def fillValueDoc : FillValue → Option Doc
  | .default => none
  | .undefined => some (.word (lit "null"))
  | .userDefined bytes => some (.string (base64String bytes))

def encodingDoc : FillValue → Option Doc
  | .userDefined _ => some (.string (lit "base64"))
  | _ => none

def FilterValue.doc : FilterValue → Doc
  | .number value => .word (decimal value.toNat)
  | .name text => .string text

def FilterEntry.doc (entry : FilterEntry) : Doc :=
  .object (([], lit "class", blank, .string entry.className) ::
    (lit ",", lit "id", blank, .word (decimal entry.id)) ::
      entry.fields.map fun field => (lit ",", field.1, blank, field.2.doc)) []

/-- The entries of the filters that are printed. -/
inductive PrintedAs (cdValues : Nat → UInt32) : Int → FilterEntry → Nat → Prop
  | deflate : PrintedAs cdValues 1
      ⟨lit "H5Z_FILTER_DEFLATE", 1, [(lit "level", .number (cdValues 0))]⟩ (2 * maxNumLength)
  | shuffle : PrintedAs cdValues 2 ⟨lit "H5Z_FILTER_SHUFFLE", 2, []⟩ maxNumLength
  | fletcher32 : PrintedAs cdValues 3 ⟨lit "H5Z_FILTER_FLETCHER32", 3, []⟩ maxNumLength
  | szip {mask : Text} (hmask : szipOptionMask (cdValues 0) = some mask) : PrintedAs cdValues 4
      ⟨lit "H5Z_FILTER_SZIP", 4,
        [(lit "bitsPerPixel", .number (cdValues 2)), (lit "coding", .name mask),
          (lit "pixelsPerBlock", .number (cdValues 1)),
          (lit "pixelsPerScanline", .number (cdValues 3))]⟩ (4 * maxNumLength + mask.length)
  | nbit : PrintedAs cdValues 5 ⟨lit "H5Z_FILTER_NBIT", 5, []⟩ maxNumLength
  | scaleOffset {type : Text} (htype : scaleType (cdValues 0) = some type) : PrintedAs cdValues 6
      ⟨lit "H5Z_FILTER_SCALEOFFSET", 6,
        [(lit "scaleType", .name type), (lit "scaleOffset", .number (cdValues 1))]⟩
      (2 * maxNumLength + type.length)
  | lzf : PrintedAs cdValues 32000 ⟨lit "H5Z_FILTER_LZF", 32000, []⟩ maxNumLength

theorem unprintable_ne_entry (optional : Bool) (entry : FilterEntry) (more : Nat) :
    unprintable optional ≠ .entry entry more := by
  cases optional <;> nofun

theorem filterCase_eq_entry {cdValues : Nat → UInt32} {id : Int} {optional : Bool}
    {entry : FilterEntry} {more : Nat} (h : filterCase id optional cdValues = .entry entry more) :
    PrintedAs cdValues id entry more := by
  unfold filterCase at h
  split_ifs at h with h1 h2 h3 h4 h5 h6 h7 h8
  · cases h
    exact h1 ▸ .deflate
  · cases h
    exact h2 ▸ .shuffle
  · cases h
    exact h3 ▸ .fletcher32
  · cases hmask : szipOptionMask (cdValues 0) with
    | none =>
        rw [hmask] at h
        exact absurd h (unprintable_ne_entry _ _ _)
    | some mask =>
        rw [hmask] at h
        cases h
        exact h4 ▸ .szip hmask
  · cases h
    exact h5 ▸ .nbit
  · cases htype : scaleType (cdValues 0) with
    | none =>
        rw [htype] at h
        exact absurd h (unprintable_ne_entry _ _ _)
    | some type =>
        rw [htype] at h
        cases h
        exact h6 ▸ .scaleOffset htype
  · cases h
    exact h7 ▸ .lzf
  · exact absurd h (unprintable_ne_entry _ _ _)

/-- The filters that are printed. -/
def printedFilters (cdValues : Nat → UInt32) : List Filter → List FilterEntry
  | [] => []
  | f :: filters =>
      match filterCase f.id f.optional (f.get cdValues) with
      | .entry entry _ => entry :: printedFilters (f.get cdValues) filters
      | _ => printedFilters (f.get cdValues) filters

/-- What stands between the last filter that is printed and the bracket: a comma when filters follow
that are left out. -/
def filtersClose (cdValues : Nat → UInt32) : List Filter → Text
  | [] => []
  | f :: filters =>
      match filterCase f.id f.optional (f.get cdValues) with
      | .entry _ _ =>
          if printedFilters (f.get cdValues) filters = [] ∧ filters ≠ [] then [',']
          else filtersClose (f.get cdValues) filters
      | _ => filtersClose (f.get cdValues) filters

def filtersDoc (cdValues : Nat → UInt32) (filters : List Filter) : Option Doc :=
  if filters = [] then none
  else if printedFilters cdValues filters = [] then some (.array [] blank)
  else
    some (.array (Doc.listed blank ((printedFilters cdValues filters).map FilterEntry.doc))
      (filtersClose cdValues filters))

/-- An array of numbers. -/
def numbersDoc (values : List Nat) : Doc :=
  .array (Doc.listed [] (values.map fun value => .word (decimal value))) []

def layoutDoc : Layout → Option Doc
  | .compact => some (.object [([], lit "class", blank, .string (lit "H5D_COMPACT"))] [])
  | .contiguous => some (.object [([], lit "class", blank, .string (lit "H5D_CONTIGUOUS"))] [])
  | .chunked dims =>
      some (.object [([], lit "class", blank, .string (lit "H5D_CHUNKED")),
        (lit ",", lit "dims", blank, numbersDoc dims)] [])
  | .virtual => none

def trackTimesDoc (trackTimes : Bool) : Doc :=
  .string (if trackTimes then lit "true" else lit "false")

/-- The properties behind the first one. -/
def laterProperties (cdValues : Nat → UInt32) (p : CreationProperties) : List (Text × Option Doc) :=
  [(lit "attributeCreationOrder", crtOrderDoc p.crtOrderFlags),
    (lit "attributePhaseChange", phaseChangeDoc p.maxCompact p.minDense),
    (lit "fillTime", fillTimeDoc p.fillTime),
    (lit "fillValue", fillValueDoc p.fillValue),
    (lit "fillValue_encoding", encodingDoc p.fillValue),
    (lit "filters", filtersDoc cdValues p.filters),
    (lit "layout", layoutDoc p.layout),
    (lit "trackTimes", some (trackTimesDoc p.trackTimes))]

/-- The members that are present, each behind a comma. -/
def presentMembers (properties : List (Text × Option Doc)) : List (Text × Text × Text × Doc) :=
  properties.flatMap fun property =>
    match property.2 with
    | none => []
    | some x => [(lit ", ", property.1, blank, x)]

/-- The object of the creation properties. -/
def creationPropertiesDoc (cdValues : Nat → UInt32) (p : CreationProperties) : Doc :=
  .object (([], lit "allocTime", blank, .string p.allocTime.name) ::
    presentMembers (laterProperties cdValues p)) []

/-! ## Texts -/

/-- What stands before the value of a property behind the first one. -/
def lead (key : Text) : Text := lit ", \"" ++ (key ++ lit "\": ")

/-- The text of a property behind the first one. -/
def propertyText (key : Text) : Option Doc → Text
  | none => []
  | some x => lead key ++ x.render

theorem lit_comma : lit "," = [','] := by unfold lit; rfl

theorem lit_quote : lit "\"" = ['"'] := by unfold lit; rfl

theorem lead_eq (key : Text) : lead key = lit ", " ++ ('"' :: (key ++ '"' :: ':' :: blank)) := by
  unfold lead blank lit
  simp

theorem renderMembers_presentMembers (properties : List (Text × Option Doc)) :
    Doc.renderMembers (presentMembers properties) =
      properties.flatMap fun property => propertyText property.1 property.2 := by
  induction properties with
  | nil => rfl
  | cons property properties ih =>
      rw [presentMembers, List.flatMap_cons, List.flatMap_cons]
      cases hvalue : property.2 with
      | none => exact ih
      | some x =>
          rw [List.singleton_append, Doc.renderMembers, propertyText, lead_eq]
          change lit ", " ++ ('"' :: (property.1 ++ '"' :: ':' :: (blank ++ (x.render ++
            Doc.renderMembers (presentMembers properties))))) = _
          rw [ih]
          simp only [List.append_assoc, List.cons_append]

section Texts

variable {version : ServerApiVersion} {cdValues : Nat → UInt32}

@[simp]
theorem printedText_appended (text : Text) : printedText (appended text) = text := by
  simp [appended, PrintStep.text]

@[simp]
theorem printedText_symbol (text : Text) : printedText (symbol text) = text := by
  simp [symbol, PrintStep.text]

@[simp]
theorem printedText_formatted (format : Text) (more : Nat) (text : Text) :
    printedText (formatted format more text) = text := by
  simp [formatted, PrintStep.text]

theorem render_string (text : Text) : (Doc.string text).render = '"' :: (text ++ ['"']) := rfl

theorem printedText_crtOrder (flags : Nat) :
    printedText (crtOrderSteps flags) =
      propertyText (lit "attributeCreationOrder") (crtOrderDoc flags) := by
  rw [crtOrderSteps, crtOrderDoc]
  split
  · rfl
  · have hlead : lit ", \"attributeCreationOrder\": \"" =
        lead (lit "attributeCreationOrder") ++ ['"'] := by
      unfold lead
      repeat rw [lit_ofList]
      rfl
    rw [printedText_formatted, propertyText, render_string, hlead, lit_quote]
    simp only [List.append_assoc, List.cons_append, List.nil_append]

theorem printedText_phaseChange (maxCompact minDense : UInt32) :
    printedText (phaseChangeSteps maxCompact minDense) =
      propertyText (lit "attributePhaseChange") (phaseChangeDoc maxCompact minDense) := by
  rw [phaseChangeSteps, phaseChangeDoc]
  split
  · rfl
  · have hlead : lit ", \"attributePhaseChange\": \x7b\"maxCompact\": " =
        lead (lit "attributePhaseChange") ++ '{' :: '"' :: (lit "maxCompact" ++ '"' :: ':' :: blank) := by
      unfold lead blank
      repeat rw [lit_ofList]
      rfl
    have hnext : lit ", \"minDense\": " = lead (lit "minDense") := by
      unfold lead
      repeat rw [lit_ofList]
      rfl
    have hclose : lit "\x7d" = ['}'] := by
      rw [lit_ofList]
    rw [printedText_formatted, propertyText, hlead, hnext, hclose, lead_eq (lit "minDense")]
    simp only [Doc.render, Doc.renderMembers, List.append_assoc, List.cons_append, List.nil_append]

theorem printedText_fillTime (fillTime : FillTime) :
    printedText (fillTimeSteps fillTime) = propertyText (lit "fillTime") (fillTimeDoc fillTime) := by
  rw [fillTimeSteps, fillTimeDoc]
  split
  · rfl
  · have hlead : lit ", \"fillTime\": \"" = lead (lit "fillTime") ++ ['"'] := by
      unfold lead
      repeat rw [lit_ofList]
      rfl
    rw [printedText_formatted, propertyText, render_string, hlead, lit_quote]
    simp only [List.append_assoc, List.cons_append, List.nil_append]

theorem printedText_fillValue {fillValue : FillValue}
    (h : .fail ∉ fillValueSteps version fillValue) :
    printedText (fillValueSteps version fillValue) =
      propertyText (lit "fillValue") (fillValueDoc fillValue) ++
        propertyText (lit "fillValue_encoding") (encodingDoc fillValue) := by
  cases fillValue with
  | default => rfl
  | undefined =>
      rw [fillValueSteps, printedText_appended]
      unfold propertyText fillValueDoc encodingDoc lead
      repeat rw [lit_ofList]
      rfl
  | userDefined bytes =>
      rw [fillValueSteps] at h ⊢
      split at h
      · exact absurd (List.mem_singleton.mpr rfl) h
      · next hversion =>
          have hlead : lit ", \"fillValue\": \"" = lead (lit "fillValue") ++ ['"'] := by
            unfold lead
            repeat rw [lit_ofList]
            rfl
          have hencoding : lit ", \"fillValue_encoding\": \"base64\"" =
              lead (lit "fillValue_encoding") ++ '"' :: (lit "base64" ++ ['"']) := by
            unfold lead
            repeat rw [lit_ofList]
            rfl
          rw [if_neg hversion, printedText_append, printedText_appended, hlead, hencoding, lit_quote]
          simp only [fillValueDoc, encodingDoc, propertyText, render_string, printedText_cons,
            printedText_nil, PrintStep.text, List.append_assoc, List.cons_append, List.nil_append,
            List.append_nil]

/-! ### Filters -/

theorem FilterEntry.render_doc (entry : FilterEntry) : entry.doc.render = entry.text := by
  have hfields (fields : List (Text × FilterValue)) :
      Doc.renderMembers (fields.map fun field => (lit ",", field.1, blank, field.2.doc)) =
        (fields.map fun field => (field.1, field.2.text)).flatMap
          fun field => lit ",\"" ++ field.1 ++ lit "\": " ++ field.2 := by
    have hlit : lit ",\"" = lit "," ++ ['"'] ∧ lit "\": " = '"' :: ':' :: blank := by
      unfold blank
      repeat rw [lit_ofList]
      decide
    induction fields with
    | nil => rfl
    | cons field fields ih =>
        have hvalue : field.2.doc.render = field.2.text := by
          cases field.2 <;> rfl
        rw [List.map_cons, Doc.renderMembers, ih, List.map_cons, List.flatMap_cons, hvalue, hlit.1,
          hlit.2]
        simp only [List.append_assoc, List.cons_append, List.nil_append]
  have hlit : lit "\x7b\"class\": \"" = '{' :: '"' :: (lit "class" ++ '"' :: ':' :: (blank ++ ['"'])) ∧
      lit "\",\"id\": " = '"' :: (lit "," ++ '"' :: (lit "id" ++ '"' :: ':' :: blank)) ∧
        lit "\x7d" = ['}'] := by
    unfold blank
    repeat rw [lit_ofList]
    decide
  rw [FilterEntry.doc, FilterEntry.text, filterText, hlit.1, hlit.2.1, hlit.2.2]
  simp only [Doc.render, Doc.renderMembers, hfields, List.append_assoc, List.cons_append,
    List.nil_append]

theorem filtersClose_nil {filters : List Filter} (h : printedFilters cdValues filters = []) :
    filtersClose cdValues filters = [] := by
  induction filters generalizing cdValues with
  | nil => rfl
  | cons f filters ih =>
      rw [printedFilters] at h
      rw [filtersClose]
      split at h
      · cases h
      · exact ih h

/-- The filters that are printed, with commas, and a comma behind the last when others follow. -/
theorem printedText_filterSteps (filters : List Filter) :
    printedText (filterSteps cdValues filters) =
      [','].intercalate ((printedFilters cdValues filters).map FilterEntry.text) ++
        filtersClose cdValues filters := by
  induction filters generalizing cdValues with
  | nil => rfl
  | cons f filters ih =>
      simp only [filterSteps, printedFilters, filtersClose]
      cases hcase : filterCase f.id f.optional (f.get cdValues) with
      | entry entry more =>
          simp only [printedText_append, FilterEntry.steps, printedText_formatted, ih]
          by_cases hlast : filters = []
          · subst hlast
            simp [printedFilters, filtersClose, List.intercalate]
          · rw [if_neg hlast, printedText_symbol, lit_comma]
            cases hprinted : printedFilters (f.get cdValues) filters with
            | nil =>
                rw [filtersClose_nil hprinted, if_pos ⟨rfl, hlast⟩]
                simp [List.intercalate]
            | cons next entries =>
                rw [if_neg fun h => by cases h.1]
                simp [List.intercalate]
      | skipped => exact ih
      | refused | noParameters => rw [printedText_cons]; exact ih

theorem printedText_filters (filters : List Filter) :
    printedText (filtersSteps cdValues filters) =
      propertyText (lit "filters") (filtersDoc cdValues filters) := by
  rw [filtersSteps, filtersDoc]
  by_cases hnil : filters = []
  · rw [if_pos hnil, if_pos hnil]
    rfl
  · have hlead : lit ", \"filters\": [ " = lead (lit "filters") ++ '[' :: blank := by
      unfold lead blank
      repeat rw [lit_ofList]
      rfl
    have hclose : lit "]" = [']'] := by
      rw [lit_ofList]
    rw [if_neg hnil, if_neg hnil, printedText_append, printedText_append, printedText_appended,
      printedText_symbol, printedText_filterSteps, hlead, hclose]
    cases hprinted : printedFilters cdValues filters with
    | nil =>
        rw [if_pos rfl, filtersClose_nil hprinted]
        simp [propertyText, Doc.render, Doc.renderItems, List.intercalate]
    | cons entry entries =>
        have hrender : Doc.render ∘ FilterEntry.doc = FilterEntry.text :=
          funext FilterEntry.render_doc
        rw [if_neg (List.cons_ne_nil entry entries), propertyText, List.map_cons, List.map_cons,
          Doc.render, Doc.renderItems_listed, List.map_cons, List.map_map, hrender,
          FilterEntry.render_doc]
        simp only [List.append_assoc, List.cons_append]

/-! ### Layouts -/

theorem render_numbersDoc {dims : List Nat} (h : dims ≠ []) :
    (numbersDoc dims).render = '[' :: ([','].intercalate (dims.map decimal) ++ [']']) := by
  obtain ⟨d, dims, rfl⟩ := List.exists_cons_of_ne_nil h
  rw [numbersDoc, Doc.render, List.map_cons, Doc.renderItems_listed, List.map_cons, List.map_map,
    List.nil_append, List.nil_append, List.map_cons]
  rfl

theorem printedText_layout {layout : Layout} {files : List ExternalFile}
    (hfail : .fail ∉ layoutSteps files layout) (hfiles : layout = .contiguous → files = []) :
    printedText (layoutSteps files layout) = propertyText (lit "layout") (layoutDoc layout) := by
  have hclass : lit ", \"layout\": \x7b\"class\": \"" =
      lead (lit "layout") ++ '{' :: '"' :: (lit "class" ++ '"' :: ':' :: (blank ++ ['"'])) := by
    unfold lead blank
    repeat rw [lit_ofList]
    rfl
  cases layout with
  | compact =>
      rw [layoutSteps, printedText_appended]
      unfold propertyText layoutDoc lead blank
      repeat rw [lit_ofList]
      rfl
  | contiguous =>
      rw [layoutSteps, hfiles rfl, externalStorageSteps, if_pos rfl]
      unfold propertyText layoutDoc lead blank symbol contiguousLayoutStr
      repeat rw [lit_ofList]
      rfl
  | chunked dims =>
      rw [layoutSteps] at hfail ⊢
      by_cases hnil : dims = []
      · rw [if_pos hnil] at hfail
        exact absurd (List.mem_singleton.mpr rfl) hfail
      · rw [if_neg hnil] at hfail ⊢
        cases hshape : arrayShape dims with
        | ok shape =>
            have hlead : lit ", \"layout\": \x7b\"class\": \"H5D_CHUNKED\",\"dims\": " =
                lead (lit "layout") ++ '{' :: '"' :: (lit "class" ++ '"' :: ':' :: (blank ++ '"' ::
                  (lit "H5D_CHUNKED" ++ '"' :: (lit "," ++ '"' :: (lit "dims" ++ '"' :: ':' :: blank))))) := by
              unfold lead blank
              repeat rw [lit_ofList]
              rfl
            have hclose : lit "\x7d" = ['}'] := by
              rw [lit_ofList]
            have hdims : shape = (numbersDoc dims).render := by
              rw [arrayShape] at hshape
              split at hshape
              · rw [← Outcome.ok.inj hshape, flatten_shapeParts, render_numbersDoc hnil]
              · cases hshape
            rw [printedText_formatted, hlead, hclose, hdims]
            simp only [propertyText, layoutDoc, Doc.render, Doc.renderMembers, List.append_assoc, List.cons_append,
              List.nil_append]
        | fail | undefined =>
            rw [hshape] at hfail
            exact absurd (List.mem_singleton.mpr rfl) hfail
  | virtual => exact absurd (List.mem_singleton.mpr rfl) hfail

theorem printedText_trackTimes (trackTimes : Bool) :
    printedText (trackTimesSteps trackTimes) =
      propertyText (lit "trackTimes") (some (trackTimesDoc trackTimes)) := by
  have hlead : lit ", \"trackTimes\": \"" = lead (lit "trackTimes") ++ ['"'] := by
    unfold lead
    repeat rw [lit_ofList]
    rfl
  rw [trackTimesSteps, printedText_appended, hlead, lit_quote, propertyText, trackTimesDoc,
    render_string]
  simp only [List.append_assoc, List.cons_append, List.nil_append]

/-- The key and the colon in front of the object. -/
def creationPropertiesKey : Text := '"' :: (lit "creationProperties" ++ '"' :: ':' :: blank)

/-- The member in front of all others. -/
def allocTimeMember (p : CreationProperties) : Text × Text × Text × Doc :=
  ([], lit "allocTime", blank, .string p.allocTime.name)

/-- The text up to the properties behind a number of them. -/
def textUpTo (count : Nat) (cdValues : Nat → UInt32) (p : CreationProperties) : Text :=
  creationPropertiesKey ++ '{' ::
    Doc.renderMembers (allocTimeMember p :: presentMembers ((laterProperties cdValues p).take count))

theorem textUpTo_succ {count : Nat} {p : CreationProperties} {property : Text × Option Doc}
    (h : (laterProperties cdValues p)[count]? = some property) :
    textUpTo (count + 1) cdValues p =
      textUpTo count cdValues p ++ propertyText property.1 property.2 := by
  have hpresent (first second : List (Text × Option Doc)) :
      presentMembers (first ++ second) = presentMembers first ++ presentMembers second :=
    List.flatMap_append
  have hone : Doc.renderMembers (presentMembers [property]) =
      propertyText property.1 property.2 := by
    rw [renderMembers_presentMembers, List.flatMap_cons, List.flatMap_nil, List.append_nil]
  rw [textUpTo, textUpTo, List.take_add_one, h, Option.toList_some, hpresent, ← List.cons_append,
    Doc.renderMembers_append, hone, List.append_assoc, List.cons_append]

/-- The steps in front of the layout section. -/
def earlierSteps (version : ServerApiVersion) (cdValues : Nat → UInt32) (p : CreationProperties) :
    List PrintStep :=
  appended (lit "\"creationProperties\": \x7b") ++ allocTimeSteps p.allocTime ++
    crtOrderSteps p.crtOrderFlags ++ phaseChangeSteps p.maxCompact p.minDense ++
    fillTimeSteps p.fillTime ++ fillValueSteps version p.fillValue ++ filtersSteps cdValues p.filters

theorem creationPropertiesSteps_eq (p : CreationProperties) :
    creationPropertiesSteps version cdValues p = earlierSteps version cdValues p ++
      (layoutSteps p.externalFiles p.layout ++ (trackTimesSteps p.trackTimes ++ symbol (lit "\x7d"))) := by
  simp only [creationPropertiesSteps, earlierSteps, List.append_assoc]

theorem printedText_earlierSteps {p : CreationProperties}
    (hfail : .fail ∉ earlierSteps version cdValues p) :
    printedText (earlierSteps version cdValues p) = textUpTo 6 cdValues p := by
  simp only [earlierSteps, List.mem_append, not_or] at hfail
  have hkey : lit "\"creationProperties\": \x7b" = creationPropertiesKey ++ ['{'] := by
    unfold creationPropertiesKey blank
    repeat rw [lit_ofList]
    rfl
  have halloc : lit "\"allocTime\": \"" = '"' :: (lit "allocTime" ++ '"' :: ':' :: (blank ++ ['"'])) := by
    unfold blank
    repeat rw [lit_ofList]
    rfl
  have hfirst : printedText (allocTimeSteps p.allocTime) =
      '"' :: (lit "allocTime" ++ '"' :: ':' :: (blank ++ '"' :: (p.allocTime.name ++ ['"']))) := by
    simp only [allocTimeSteps, printedText_cons, printedText_nil, PrintStep.text, halloc, lit_quote,
      List.append_assoc, List.cons_append, List.nil_append, List.append_nil]
  have hlater : Doc.renderMembers (presentMembers ((laterProperties cdValues p).take 6)) =
      printedText (crtOrderSteps p.crtOrderFlags) ++
        (printedText (phaseChangeSteps p.maxCompact p.minDense) ++
          (printedText (fillTimeSteps p.fillTime) ++
            (printedText (fillValueSteps version p.fillValue) ++
              printedText (filtersSteps cdValues p.filters)))) := by
    rw [renderMembers_presentMembers, printedText_crtOrder, printedText_phaseChange,
      printedText_fillTime, printedText_fillValue hfail.1.2, printedText_filters]
    simp only [laterProperties, List.take_succ_cons, List.take_zero, List.flatMap_cons,
      List.flatMap_nil, List.append_nil, List.append_assoc]
  simp only [earlierSteps, printedText_append, printedText_appended, hkey, hfirst, textUpTo,
    allocTimeMember, Doc.renderMembers, Doc.render, hlater, List.append_assoc, List.cons_append,
    List.nil_append]

theorem textUpTo_all (p : CreationProperties) :
    textUpTo 8 cdValues p ++ ['}'] =
      creationPropertiesKey ++ (creationPropertiesDoc cdValues p).render := by
  rw [textUpTo, List.take_of_length_le (by rfl)]
  simp only [creationPropertiesDoc, allocTimeMember, Doc.render, List.append_assoc, List.cons_append,
    List.nil_append]

/-- Without external files the properties that are printed are those of the document. -/
theorem printedText_creationProperties {p : CreationProperties}
    (hfail : .fail ∉ creationPropertiesSteps version cdValues p)
    (hfiles : p.layout = .contiguous → p.externalFiles = []) :
    printedText (creationPropertiesSteps version cdValues p) =
      creationPropertiesKey ++ (creationPropertiesDoc cdValues p).render := by
  rw [creationPropertiesSteps_eq] at hfail ⊢
  simp only [List.mem_append, not_or] at hfail
  have hclose : lit "\x7d" = ['}'] := by
    rw [lit_ofList]
  rw [← textUpTo_all, @textUpTo_succ cdValues 7 p _ rfl, @textUpTo_succ cdValues 6 p _ rfl,
    ← printedText_earlierSteps hfail.1, printedText_append, printedText_append,
    printedText_layout hfail.2.1 hfiles, printedText_append, printedText_trackTimes,
    printedText_symbol, hclose]
  simp only [List.append_assoc]

end Texts

/-! ## Room -/

section Room

variable {version : ServerApiVersion} {cdValues : Nat → UInt32}

theorem alwaysAmple_appended (text : Text) : AlwaysAmple (appended text) :=
  fun pos len => ⟨by rw [← Nat.add_assoc]; omega, trivial⟩

theorem alwaysAmple_symbol {text : Text} (h : text.length ≤ 1) : AlwaysAmple (symbol text) :=
  fun pos len => ⟨by omega, trivial⟩

/-- A format leaves enough room when its text is not longer than the format and the room for the
arguments. -/
theorem alwaysAmple_formatted {format text : Text} {more : Nat}
    (h : text.length ≤ format.length + more) : AlwaysAmple (formatted format more text) :=
  fun pos len => ⟨by omega, trivial⟩

theorem length_decimal_uint32 (value : UInt32) : (decimal value.toNat).length ≤ maxNumLength :=
  ((length_decimal_le_iff (by decide)).mpr
    (Nat.lt_of_lt_of_le value.toNat_lt (by decide : 2 ^ 32 ≤ 10 ^ 10))).trans (by decide)

theorem alwaysAmple_allocTime (allocTime : AllocTime) : AlwaysAmple (allocTimeSteps allocTime) := by
  intro pos len
  refine ⟨?_, trivial⟩
  have hlength : (lit "\"allocTime\": \"" ++ allocTime.name ++ lit "\"").length ≤
      (lit "\"allocTime\": \"H5D_ALLOC_TIME_DEFAULT\"").length + 1 := by
    cases allocTime <;> (unfold AllocTime.name; repeat rw [lit_ofList]) <;> decide
  omega

theorem alwaysAmple_crtOrder (flags : Nat) : AlwaysAmple (crtOrderSteps flags) := by
  rw [crtOrderSteps]
  split
  · exact alwaysAmple_nil
  · apply alwaysAmple_formatted
    rw [crtOrderName]
    repeat rw [lit_ofList]
    split <;> decide

theorem alwaysAmple_phaseChange (maxCompact minDense : UInt32) :
    AlwaysAmple (phaseChangeSteps maxCompact minDense) := by
  rw [phaseChangeSteps]
  split
  · exact alwaysAmple_nil
  · apply alwaysAmple_formatted
    have hcompact := length_decimal_uint32 maxCompact
    have hdense := length_decimal_uint32 minDense
    have hformat : (lit ", \"attributePhaseChange\": \x7b\"maxCompact\": ").length +
        (lit ", \"minDense\": ").length + (lit "\x7d").length ≤
          (lit ", \"attributePhaseChange\": \x7b\"maxCompact\": %u, \"minDense\": %u\x7d").length := by
      repeat rw [lit_ofList]
      decide
    simp only [List.length_append]
    omega

theorem alwaysAmple_fillTime (fillTime : FillTime) : AlwaysAmple (fillTimeSteps fillTime) := by
  rw [fillTimeSteps]
  split
  · exact alwaysAmple_nil
  · apply alwaysAmple_formatted
    repeat rw [lit_ofList]
    split <;> decide

theorem alwaysAmple_fillValue {fillValue : FillValue}
    (h : .fail ∉ fillValueSteps version fillValue) :
    AlwaysAmple (fillValueSteps version fillValue) := by
  cases fillValue with
  | default => exact alwaysAmple_nil
  | undefined => exact alwaysAmple_appended _
  | userDefined bytes =>
      rw [fillValueSteps] at h ⊢
      split at h
      · exact absurd (List.mem_singleton.mpr rfl) h
      · next hversion =>
          rw [if_neg hversion]
          exact (alwaysAmple_appended _).append fun pos len => ⟨Nat.le_max_right _ _, trivial⟩

theorem length_fields (value : FilterValue → Text) (fields : List (Text × FilterValue)) :
    ((fields.map fun field => (field.1, value field.2)).flatMap
      fun field => lit ",\"" ++ field.1 ++ lit "\": " ++ field.2).length =
      (fields.map fun field => (value field.2).length).sum +
        (fields.map fun field => (lit ",\"" ++ field.1 ++ lit "\": ").length).sum := by
  induction fields with
  | nil => rfl
  | cons field fields ih =>
      rw [List.map_cons, List.flatMap_cons, List.length_append, ih, List.length_append]
      simp only [List.map_cons, List.sum_cons]
      omega

/-- The object of a filter is not longer than its format when the arguments are not longer than what
stands for them and the room that is left. -/
theorem alwaysAmple_entry {entry : FilterEntry} {more : Nat}
    (h : (decimal entry.id).length + (entry.fields.map fun field => field.2.text.length).sum ≤
      (lit "%d").length + (entry.fields.map fun field => field.2.format.length).sum + more) :
    AlwaysAmple (entry.steps more) := by
  have htext := length_fields FilterValue.text entry.fields
  have hformat := length_fields FilterValue.format entry.fields
  apply alwaysAmple_formatted
  simp only [FilterEntry.text, filterText, List.length_append] at htext hformat ⊢
  omega

theorem PrintedAs.ample {id : Int} {entry : FilterEntry} {more : Nat}
    (h : PrintedAs cdValues id entry more) : AlwaysAmple (entry.steps more) := by
  have hnumber (i : Nat) : (FilterValue.number (cdValues i)).text.length ≤ maxNumLength :=
    length_decimal_uint32 (cdValues i)
  have hname (text : Text) : (FilterValue.name text).text.length = text.length + 2 := by
    simp [FilterValue.text, quoted]
  have hnumberFormat (value : UInt32) : (FilterValue.number value).format.length = 2 := by
    unfold FilterValue.format lit
    rfl
  have hnameFormat (text : Text) : (FilterValue.name text).format.length = 4 := by
    unfold FilterValue.format lit
    rfl
  have hid : (decimal 1).length = 1 ∧ (decimal 4).length = 1 ∧ (decimal 6).length = 1 ∧
      (lit "%d").length = 2 := by
    rw [lit_ofList]
    decide
  have h0 := hnumber 0
  have h1 := hnumber 1
  have h2 := hnumber 2
  have h3 := hnumber 3
  cases h with
  | shuffle | fletcher32 | nbit | lzf => exact alwaysAmple_entry (by rw [lit_ofList]; decide)
  | deflate | szip _ | scaleOffset _ =>
      apply alwaysAmple_entry
      simp only [List.map_cons, List.map_nil, List.sum_cons, List.sum_nil, hid, hname, hnumberFormat,
        hnameFormat]
      omega

/-- A pipeline without a filter that stops the function is printed into ample room. -/
theorem alwaysAmple_filterSteps {filters : List Filter} (hfail : .fail ∉ filterSteps cdValues filters)
    (hundefined : .undefined ∉ filterSteps cdValues filters) :
    AlwaysAmple (filterSteps cdValues filters) := by
  induction filters generalizing cdValues with
  | nil => exact alwaysAmple_nil
  | cons f filters ih =>
      simp only [filterSteps] at hfail hundefined ⊢
      cases hcase : filterCase f.id f.optional (f.get cdValues) with
      | entry entry more =>
          simp only [hcase, List.mem_append, not_or] at hfail hundefined
          refine ((filterCase_eq_entry hcase).ample.append ?_).append (ih hfail.2 hundefined.2)
          split
          · exact alwaysAmple_nil
          · exact alwaysAmple_symbol (by rw [lit_ofList]; decide)
      | skipped =>
          simp only [hcase] at hfail hundefined
          exact ih hfail hundefined
      | refused =>
          simp only [hcase] at hfail
          exact absurd List.mem_cons_self hfail
      | noParameters =>
          simp only [hcase] at hundefined
          exact absurd List.mem_cons_self hundefined

theorem alwaysAmple_filters {filters : List Filter} (hfail : .fail ∉ filtersSteps cdValues filters)
    (hundefined : .undefined ∉ filtersSteps cdValues filters) :
    AlwaysAmple (filtersSteps cdValues filters) := by
  rw [filtersSteps] at hfail hundefined ⊢
  split at hfail
  · next hnil =>
      rw [if_pos hnil]
      exact alwaysAmple_nil
  · next hnil =>
      rw [if_neg hnil] at hundefined ⊢
      simp only [List.mem_append, not_or] at hfail hundefined
      exact ((alwaysAmple_appended _).append
        (alwaysAmple_filterSteps hfail.1.2 hundefined.1.2)).append
          (alwaysAmple_symbol (by rw [lit_ofList]; decide))

theorem alwaysAmple_layout {layout : Layout} {files : List ExternalFile}
    (hfail : .fail ∉ layoutSteps files layout) (hfiles : layout = .contiguous → files = []) :
    AlwaysAmple (layoutSteps files layout) := by
  cases layout with
  | compact => exact alwaysAmple_appended _
  | contiguous =>
      rw [layoutSteps, hfiles rfl, externalStorageSteps, if_pos rfl]
      have hlayout : AlwaysAmple [.reserve contiguousLayoutStr.length, .strncat contiguousLayoutStr] :=
        fun pos len => ⟨Nat.le_max_right _ _, trivial⟩
      exact (hlayout.append alwaysAmple_nil).append (alwaysAmple_symbol (by rw [lit_ofList]; decide))
  | chunked dims =>
      rw [layoutSteps] at hfail ⊢
      split at hfail
      · exact absurd (List.mem_singleton.mpr rfl) hfail
      · next hnil =>
          rw [if_neg hnil]
          cases hshape : arrayShape dims with
          | ok shape =>
              apply alwaysAmple_formatted
              have hlengths : (lit ", \"layout\": \x7b\"class\": \"H5D_CHUNKED\",\"dims\": ").length +
                  (lit "\x7d").length ≤
                    (lit ", \"layout\": \x7b\"class\": \"H5D_CHUNKED\",\"dims\": %s\x7d").length := by
                repeat rw [lit_ofList]
                decide
              simp only [List.length_append]
              omega
          | fail | undefined =>
              rw [hshape] at hfail
              exact absurd (List.mem_singleton.mpr rfl) hfail
  | virtual => exact absurd (List.mem_singleton.mpr rfl) hfail

/-- The properties in front of the layout are printed into ample room. -/
theorem alwaysAmple_earlierSteps {p : CreationProperties}
    (hvalue : .fail ∉ fillValueSteps version p.fillValue)
    (hfilters : .fail ∉ filtersSteps cdValues p.filters)
    (hundefined : .undefined ∉ filtersSteps cdValues p.filters) :
    AlwaysAmple (earlierSteps version cdValues p) :=
  ((((((alwaysAmple_appended _).append (alwaysAmple_allocTime _)).append
    (alwaysAmple_crtOrder _)).append (alwaysAmple_phaseChange _ _)).append
      (alwaysAmple_fillTime _)).append (alwaysAmple_fillValue hvalue)).append
        (alwaysAmple_filters hfilters hundefined)

/-- Without external files all properties are printed into ample room, unless a section stops. -/
theorem alwaysAmple_creationProperties {p : CreationProperties}
    (hearlier : AlwaysAmple (earlierSteps version cdValues p))
    (hlayout : .fail ∉ layoutSteps p.externalFiles p.layout)
    (hfiles : p.layout = .contiguous → p.externalFiles = []) :
    AlwaysAmple (creationPropertiesSteps version cdValues p) := by
  rw [creationPropertiesSteps_eq]
  exact hearlier.append ((alwaysAmple_layout hlayout hfiles).append
    ((alwaysAmple_appended _).append (alwaysAmple_symbol (by rw [lit_ofList]; decide))))

/-- Where no step stops the function the sections in front of the layout are ample. -/
theorem alwaysAmple_of_defined {p : CreationProperties}
    (hfail : .fail ∉ creationPropertiesSteps version cdValues p)
    (hundefined : .undefined ∉ creationPropertiesSteps version cdValues p) :
    .fail ∉ earlierSteps version cdValues p ∧ .fail ∉ layoutSteps p.externalFiles p.layout ∧
      AlwaysAmple (earlierSteps version cdValues p) := by
  rw [creationPropertiesSteps_eq] at hfail hundefined
  simp only [List.mem_append, not_or] at hfail hundefined
  refine ⟨hfail.1, hfail.2.1, ?_⟩
  simp only [earlierSteps, List.mem_append, not_or] at hfail hundefined
  exact alwaysAmple_earlierSteps hfail.1.1.2 hfail.1.2 hundefined.1.2

/-- Without external files the text comes back exactly when no step stops the function and no text
ends where the buffer does. -/
theorem creationProperties_eq_ok_iff {p : CreationProperties} {body : Text}
    (hfiles : p.layout = .contiguous → p.externalFiles = []) :
    rvConvertDatasetCreationPropertiesToJson version cdValues p = .ok body ↔
      (.fail ∉ creationPropertiesSteps version cdValues p ∧
        .undefined ∉ creationPropertiesSteps version cdValues p ∧
          ¬ EndsAtBuffer datasetCreationPropertiesBodyDefaultSize
            (creationPropertiesSteps version cdValues p) 0 0) ∧
        body = creationPropertiesKey ++ (creationPropertiesDoc cdValues p).render := by
  have hwhole : (Printed.empty datasetCreationPropertiesBodyDefaultSize).Whole := ⟨rfl, rfl⟩
  have hample (hfail : .fail ∉ creationPropertiesSteps version cdValues p)
      (hundefined : .undefined ∉ creationPropertiesSteps version cdValues p) :=
    alwaysAmple_creationProperties (alwaysAmple_of_defined hfail hundefined).2.2
      (alwaysAmple_of_defined hfail hundefined).2.1 hfiles 0 0
  have htext {c : Printed} (hfail : .fail ∉ creationPropertiesSteps version cdValues p)
      (hundefined : .undefined ∉ creationPropertiesSteps version cdValues p)
      (hc : printAll (creationPropertiesSteps version cdValues p)
        (.empty datasetCreationPropertiesBodyDefaultSize) = .ok c) :
      c.text = creationPropertiesKey ++ (creationPropertiesDoc cdValues p).render := by
    rw [(printAll_complete (hample hfail hundefined).complete hwhole hc).2,
      printedText_creationProperties hfail hfiles]
    rfl
  have hlength := leastDouble_first datasetCreationPropertiesBodyDefaultSize
  rw [rvConvertDatasetCreationPropertiesToJson]
  constructor
  · intro h
    obtain ⟨c, hc, hbody⟩ := Outcome.bind_eq_ok_iff.mp h
    obtain ⟨hfail, hundefined⟩ := fail_not_mem hc
    have hends := (printAll_ample_iff (by decide) hwhole hlength (hample hfail hundefined)).mp ⟨c, hc⟩
    rw [← Outcome.ok.inj hbody]
    exact ⟨⟨hfail, hundefined, hends⟩, htext hfail hundefined hc⟩
  · rintro ⟨⟨hfail, hundefined, hends⟩, rfl⟩
    obtain ⟨c, hc⟩ :=
      (printAll_ample_iff (by decide) hwhole hlength (hample hfail hundefined)).mpr hends
    rw [hc, Outcome.ok_bind, htext hfail hundefined hc]

end Room

/-! ## Plain texts -/

theorem plainText_base64Text (bytes : List UInt8) : Json.PlainText (base64Text bytes) := by
  have hsymbol : ∀ value < 64, Json.PlainChar (encodeCharset.getD value 'A') := by
    unfold encodeCharset
    rw [lit_ofList]
    decide
  intro c hc
  rcases List.mem_append.mp hc with hc | hc
  · obtain ⟨value, -, rfl⟩ := List.mem_map.mp hc
    exact hsymbol _ (Nat.mod_lt _ (by decide))
  · rw [List.eq_of_mem_replicate hc]
    decide

theorem base64String_eq (bytes : List UInt8) : base64String bytes = base64Text bytes := by
  have hnul : ∀ c ∈ base64Text bytes, decide (c ≠ '\x00') = true := by
    intro c hc
    have hplain := (plainText_base64Text bytes c hc).2.2
    rw [decide_eq_true_iff]
    rintro rfl
    revert hplain
    decide
  rw [base64String, (rvBase64Encode_spec bytes 0).2, List.takeWhile_append_of_pos hnul]
  simp

theorem plain_word (value : Nat) : (Doc.word (decimal value)).Plain := .inr (.inl ⟨value, rfl⟩)

theorem separates_blank : Doc.Separates false (lit ", ") := by
  refine ⟨[], lit " ", ?_, Json.blank_nil, ?_⟩ <;> (unfold lit; decide)

theorem separates_comma : Doc.Separates false (lit ",") :=
  ⟨[], [], lit_comma, Json.blank_nil, Json.blank_nil⟩

theorem PrintedAs.plain {cdValues : Nat → UInt32} {id : Int} {entry : FilterEntry} {more : Nat}
    (h : PrintedAs cdValues id entry more) : entry.doc.Plain := by
  have hkeys : Json.PlainText (lit "class") ∧ Json.PlainText (lit "id") := by
    unfold lit
    decide
  have hmask (mask : Text) (h : szipOptionMask (cdValues 0) = some mask) : Json.PlainText mask := by
    rw [szipOptionMask] at h
    split_ifs at h <;> (cases h; rw [lit_ofList]; decide)
  have htype (type : Text) (h : scaleType (cdValues 0) = some type) : Json.PlainText type := by
    rw [scaleType] at h
    split_ifs at h <;> (cases h; rw [lit_ofList]; decide)
  have hname : Json.PlainText entry.className := by
    cases h <;> (simp only; rw [lit_ofList]; decide)
  have hfields : ∀ field ∈ entry.fields, Json.PlainText field.1 ∧ field.2.doc.Plain := by
    cases h with
    | shuffle | fletcher32 | nbit | lzf => nofun
    | deflate =>
        simp only [List.forall_mem_cons]
        exact ⟨⟨by rw [lit_ofList]; decide, plain_word _⟩, nofun⟩
    | szip h =>
        simp only [List.forall_mem_cons]
        exact ⟨⟨by rw [lit_ofList]; decide, plain_word _⟩, ⟨by rw [lit_ofList]; decide, hmask _ h⟩,
          ⟨by rw [lit_ofList]; decide, plain_word _⟩, ⟨by rw [lit_ofList]; decide, plain_word _⟩, nofun⟩
    | scaleOffset h =>
        simp only [List.forall_mem_cons]
        exact ⟨⟨by rw [lit_ofList]; decide, htype _ h⟩, ⟨by rw [lit_ofList]; decide, plain_word _⟩, nofun⟩
  have hrest (fields : List (Text × FilterValue))
      (h : ∀ field ∈ fields, Json.PlainText field.1 ∧ field.2.doc.Plain) :
      Doc.PlainMembers false (fields.map fun field => (lit ",", field.1, blank, field.2.doc)) := by
    induction fields with
    | nil => trivial
    | cons field fields ih =>
        rw [List.map_cons, Doc.PlainMembers]
        exact ⟨separates_comma, (h field (by simp)).1, blank_blank, (h field (by simp)).2,
          ih fun f hf => h f (by simp [hf])⟩
  rw [FilterEntry.doc, Doc.Plain, Doc.PlainMembers, Doc.PlainMembers]
  exact ⟨Json.blank_nil, Json.blank_nil, hkeys.1, blank_blank, hname, separates_comma, hkeys.2,
    blank_blank, plain_word _, hrest _ hfields⟩

section Plain

variable {cdValues : Nat → UInt32}

theorem plain_printedFilters (filters : List Filter) :
    ∀ entry ∈ printedFilters cdValues filters, entry.doc.Plain := by
  induction filters generalizing cdValues with
  | nil => nofun
  | cons f filters ih =>
      rw [printedFilters]
      split
      · next hcase => exact List.forall_mem_cons.mpr ⟨(filterCase_eq_entry hcase).plain, ih⟩
      · exact ih

theorem plain_filterItems (cdValues : Nat → UInt32) (filters : List Filter) :
    Doc.PlainItems true
      (Doc.listed blank ((printedFilters cdValues filters).map FilterEntry.doc)) := by
  refine Doc.plainItems_listed blank_blank fun x hx => ?_
  obtain ⟨entry, hentry, rfl⟩ := List.mem_map.mp hx
  exact plain_printedFilters filters entry hentry

theorem plain_filtersDoc {filters : List Filter} (h : filtersClose cdValues filters = []) :
    ∀ x ∈ filtersDoc cdValues filters, x.Plain := by
  intro x hx
  rw [filtersDoc] at hx
  split_ifs at hx with hnil hnone
  · cases hx
  · cases hx
    exact ⟨blank_blank, trivial⟩
  · cases hx
    rw [Doc.Plain, h]
    exact ⟨Json.blank_nil, plain_filterItems cdValues filters⟩

theorem plain_numbersDoc (values : List Nat) : (numbersDoc values).Plain := by
  rw [numbersDoc, Doc.Plain]
  refine ⟨Json.blank_nil, Doc.plainItems_listed Json.blank_nil fun x hx => ?_⟩
  obtain ⟨value, -, rfl⟩ := List.mem_map.mp hx
  exact plain_word value

theorem plain_crtOrderDoc (flags : Nat) : ∀ x ∈ crtOrderDoc flags, x.Plain := by
  intro x hx
  rw [crtOrderDoc, crtOrderName] at hx
  split_ifs at hx <;> cases hx <;> (rw [Doc.Plain]; repeat rw [lit_ofList]) <;> decide

theorem plain_phaseChangeDoc (maxCompact minDense : UInt32) :
    ∀ x ∈ phaseChangeDoc maxCompact minDense, x.Plain := by
  intro x hx
  rw [phaseChangeDoc] at hx
  split_ifs at hx
  · cases hx
  · cases hx
    have hkeys : Json.PlainText (lit "maxCompact") ∧ Json.PlainText (lit "minDense") := by
      repeat rw [lit_ofList]
      decide
    rw [Doc.Plain, Doc.PlainMembers, Doc.PlainMembers]
    exact ⟨Json.blank_nil, Json.blank_nil, hkeys.1, blank_blank, plain_word _, separates_blank,
      hkeys.2, blank_blank, plain_word _, trivial⟩

theorem plain_fillTimeDoc (fillTime : FillTime) : ∀ x ∈ fillTimeDoc fillTime, x.Plain := by
  intro x hx
  rw [fillTimeDoc] at hx
  split_ifs at hx <;> cases hx <;> (rw [Doc.Plain]; repeat rw [lit_ofList]) <;> decide

theorem plain_fillValueDoc (fillValue : FillValue) : ∀ x ∈ fillValueDoc fillValue, x.Plain := by
  intro x hx
  cases fillValue with
  | default => cases hx
  | undefined =>
      cases hx
      exact .inl rfl
  | userDefined bytes =>
      cases hx
      rw [Doc.Plain, base64String_eq]
      exact plainText_base64Text bytes

theorem plain_encodingDoc (fillValue : FillValue) : ∀ x ∈ encodingDoc fillValue, x.Plain := by
  intro x hx
  cases fillValue with
  | default | undefined => cases hx
  | userDefined bytes =>
      cases hx
      rw [Doc.Plain, lit_ofList]
      decide

theorem plain_layoutDoc (layout : Layout) : ∀ x ∈ layoutDoc layout, x.Plain := by
  have hclass : Json.PlainText (lit "class") ∧ Json.PlainText (lit "dims") := by
    repeat rw [lit_ofList]
    decide
  intro x hx
  cases layout with
  | virtual => cases hx
  | compact | contiguous =>
      cases hx
      rw [Doc.Plain, Doc.PlainMembers, Doc.Plain]
      exact ⟨Json.blank_nil, Json.blank_nil, hclass.1, blank_blank, by rw [lit_ofList]; decide, trivial⟩
  | chunked dims =>
      cases hx
      rw [Doc.Plain, Doc.PlainMembers, Doc.PlainMembers, Doc.Plain]
      exact ⟨Json.blank_nil, Json.blank_nil, hclass.1, blank_blank, by rw [lit_ofList]; decide,
        separates_comma, hclass.2, blank_blank, plain_numbersDoc dims, trivial⟩

theorem plainMembers_presentMembers {properties : List (Text × Option Doc)}
    (h : ∀ property ∈ properties, Json.PlainText property.1 ∧ ∀ x ∈ property.2, x.Plain) :
    Doc.PlainMembers false (presentMembers properties) := by
  induction properties with
  | nil => trivial
  | cons property properties ih =>
      have hlater := ih fun other hother => h other (by simp [hother])
      obtain ⟨hkey, hvalue⟩ := h property (by simp)
      rw [presentMembers, List.flatMap_cons]
      cases hproperty : property.2 with
      | none => exact hlater
      | some x =>
          exact ⟨separates_blank, hkey, blank_blank, hvalue x hproperty, hlater⟩

/-- The properties of the document but the filters are plain. -/
theorem plain_laterProperties (p : CreationProperties) :
    ∀ property ∈ laterProperties cdValues p, Json.PlainText property.1 ∧
      (property = (lit "filters", filtersDoc cdValues p.filters) ∨ ∀ x ∈ property.2, x.Plain) := by
  simp only [laterProperties, List.forall_mem_cons]
  refine ⟨⟨by rw [lit_ofList]; decide, .inr (plain_crtOrderDoc _)⟩,
    ⟨by rw [lit_ofList]; decide, .inr (plain_phaseChangeDoc _ _)⟩,
    ⟨by rw [lit_ofList]; decide, .inr (plain_fillTimeDoc _)⟩, ⟨by rw [lit_ofList]; decide, .inr (plain_fillValueDoc _)⟩,
    ⟨by rw [lit_ofList]; decide, .inr (plain_encodingDoc _)⟩, ⟨by rw [lit_ofList]; decide, .inl trivial⟩,
    ⟨by rw [lit_ofList]; decide, .inr (plain_layoutDoc _)⟩, ⟨by rw [lit_ofList]; decide, .inr ?_⟩, nofun⟩
  intro x hx
  cases hx
  rw [trackTimesDoc, Doc.Plain]
  split <;> (rw [lit_ofList]; decide)

end Plain

end XHDF5.Client
