/-
# Dataspaces as JSON

`RV_convert_dataspace_shape_to_JSON` prints the shape and the maximum dimension sizes of a new
object; the server describes the object by the arrays that it got; `RV_parse_dataspace` reads the
description. An unlimited dimension is sent as zero, so a maximum of zero comes back unlimited, and
the parser's integers end at `LLONG_MAX`. The last bracket of an array is stored without a check.

The JSON parser is a parameter. Calls of the HDF5 library are those on valid dataspaces.
-/

import XHDF5.Client.CreateBody
import XHDF5.Math.Json

namespace XHDF5.Client

open XHDF5.Math

/-! ## The code -/

/-- A dataspace; a simple one with the size and the maximum size of each dimension. -/
inductive Dataspace
  | null
  | scalar
  | simple (extent : List (Nat × Nat))
deriving DecidableEq

/-- `H5S_MAX_RANK`. -/
def h5sMaxRank : Nat := 32

/-- What the HDF5 library demands of the dimensions of a dataspace. -/
def Dataspace.Valid : Dataspace → Prop
  | .null => True
  | .scalar => True
  | .simple extent => extent ≠ [] ∧ extent.length ≤ h5sMaxRank ∧
      ∀ d ∈ extent, d.1 < h5sUnlimited ∧ d.1 ≤ d.2 ∧ d.2 ≤ h5sUnlimited

instance : DecidablePred Dataspace.Valid
  | .null => isTrue trivial
  | .scalar => isTrue trivial
  | .simple extent => inferInstanceAs (Decidable (extent ≠ [] ∧ extent.length ≤ h5sMaxRank ∧
      ∀ d ∈ extent, d.1 < h5sUnlimited ∧ d.1 ≤ d.2 ∧ d.2 ≤ h5sUnlimited))

/-- `RV_convert_dataspace_shape_to_JSON`: the shape and the maximum dimension sizes, absent when no
buffer was allocated. -/
def Dataspace.shapeToJson : Dataspace → Outcome (Option Text × Option Text)
  | .scalar => .ok (none, none)
  | .null =>
      (printAll (appended (lit "\"shape\": \"H5S_NULL\"")) (.empty dataspaceShapeBufferDefaultSize)).bind
        fun b => .ok (some b.text, none)
  | .simple extent =>
      (rvConvertDataspaceShapeToJson extent).bind fun body => .ok (some body.1, some body.2)

/-- `YAJL_GET_INTEGER`; of a value that is no number it has no defined result. The parser replaces
what does not fit a `long long` by the nearest one. -/
def yajlGetInteger : Json → Outcome Int
  | .number value => .ok (max (-2 ^ 63) (min value (2 ^ 63 - 1)))
  | _ => .undefined

/-- The loop over the dimensions, with the maximum dimension sizes when there are any. -/
def parseExtent : List Json → Option (List Json) → Outcome (List (Nat × Nat))
  | [], _ => .ok []
  | dim :: dims, none =>
      (yajlGetInteger dim).bind fun val =>
        (parseExtent dims none).bind fun extent => .ok ((toSize val, toSize val) :: extent)
  | _ :: _, some [] => .undefined
  | dim :: dims, some (maxdim :: maxdims) =>
      (yajlGetInteger dim).bind fun val => (yajlGetInteger maxdim).bind fun maxval =>
        (parseExtent dims (some maxdims)).bind fun extent =>
          .ok ((toSize val, if maxval = 0 then h5sUnlimited else toSize maxval) :: extent)

/-- `H5Screate_simple`. -/
def h5screateSimple (extent : List (Nat × Nat)) : Outcome Dataspace :=
  if (Dataspace.simple extent).Valid then .ok (.simple extent) else .fail

/-- The items of an array. -/
def arrayItems : Json → Option (List Json)
  | .array _ items => some items
  | _ => none

/-- `RV_parse_dataspace`. -/
def rvParseDataspace (parse : Text → Option Json) (space : Text) : Outcome Dataspace :=
  match parse space with
  | none => .fail
  | some tree =>
      match tree.at? [lit "shape", lit "class"] with
      | some (.string dataspaceType) =>
          if dataspaceType = lit "H5S_NULL" then .ok .null
          else if dataspaceType = lit "H5S_SCALAR" then .ok .scalar
          else if dataspaceType = lit "H5S_SIMPLE" then
            match (tree.at? [lit "shape", lit "dims"]).bind arrayItems with
            | none => .fail
            | some [] => .fail
            | some dims =>
                (parseExtent dims ((tree.at? [lit "shape", lit "maxdims"]).bind arrayItems)).bind
                  h5screateSimple
          else .fail
      | _ => .fail

/-! ## The server's description -/

/-- An array of numbers. -/
def numbers (values : List Nat) : Json := .array [] (values.map fun value : Nat => .number value)

/-- The description of an object that was created with a shape and maximum dimension sizes: without
a shape it is scalar, and the arrays are those that were sent. -/
inductive Echoes : Option Text × Option Text → List (Text × Json) → Prop
  | scalar : Echoes (none, none) [(lit "class", .string (lit "H5S_SCALAR"))]
  | null : Echoes (some (lit "\"shape\": " ++ (Json.string (lit "H5S_NULL")).render), none)
      [(lit "class", .string (lit "H5S_NULL"))]
  | simple (dims maxdims : List Nat) :
      Echoes (some (lit "\"shape\": " ++ (numbers dims).render),
          some (lit "\"maxdims\": " ++ (numbers maxdims).render))
        [(lit "class", .string (lit "H5S_SIMPLE")), (lit "dims", numbers dims),
          (lit "maxdims", numbers maxdims)]

/-- A response describes an object by the members of its shape, whatever else it says and however it
is spaced. -/
def Describes (response : Json) (shape : List (Text × Json)) : Prop :=
  response.Plain ∧ ∃ before after, (∀ m ∈ before, m.1 ≠ lit "shape") ∧
    response.value = .object [] [] (before ++ (lit "shape", .object [] [] shape) :: after)

/-- The dataspace is sent, and read from every description of the object. -/
def Dataspace.RoundTrips (parse : Text → Option Json) (s : Dataspace) : Prop :=
  ∃ sent shape, s.shapeToJson = .ok sent ∧ Echoes sent shape ∧
    ∀ response, Describes response shape → rvParseDataspace parse response.render = .ok s

/-- The last bracket of an array and its NUL fit into the buffer that was reserved for the last
number. -/
def ClosingFits (key : Text) (values : List Nat) : Prop :=
  let printed := (key ++ [','].intercalate (values.dropLast.map decimal)).length
  (key ++ [','].intercalate (values.map decimal)).length + 2 ≤
    doubled dataspaceShapeBufferDefaultSize (printed + maxNumLength + 1) (printed + maxNumLength + 1)

instance (key : Text) (values : List Nat) : Decidable (ClosingFits key values) :=
  inferInstanceAs (Decidable (_ ≤ _))

/-- What is printed for a maximum dimension size. -/
def sentMaxdim (maxdim : Nat) : Nat := if maxdim = h5sUnlimited then 0 else maxdim

/-- The sizes fit a `long long`, no maximum is zero, and the brackets fit. -/
def Dataspace.Sendable : Dataspace → Prop
  | .null => True
  | .scalar => True
  | .simple extent =>
      (∀ d ∈ extent, d.1 < 2 ^ 63 ∧ d.2 ≠ 0 ∧ (d.2 = h5sUnlimited ∨ d.2 < 2 ^ 63)) ∧
        ClosingFits (lit "\"shape\": [") (extent.map Prod.fst) ∧
          ClosingFits (lit "\"maxdims\": [") (extent.map fun d => sentMaxdim d.2)

instance : DecidablePred Dataspace.Sendable
  | .null => isTrue trivial
  | .scalar => isTrue trivial
  | .simple _ => inferInstanceAs (Decidable (_ ∧ _ ∧ _))
/-! ## Printed arrays -/

/-- The elements of a list, each with the comma before it. -/
def commas {α : Type*} : List α → List (Text × α)
  | [] => []
  | x :: xs => ([], x) :: xs.map fun y => ([','], y)

theorem withCommas_eq {α : Type*} (steps : Text → α → List PrintStep) (xs : List α) :
    withCommas steps xs = (commas xs).flatMap fun entry => steps entry.1 entry.2 := by
  cases xs with
  | nil => rfl
  | cons x xs => rw [withCommas, commas, List.flatMap_cons, List.flatMap_map]

theorem flatMap_commas {α : Type*} (text : α → Text) (xs : List α) :
    ((commas xs).flatMap fun entry => entry.1 ++ text entry.2) = [','].intercalate (xs.map text) := by
  cases xs with
  | nil => rfl
  | cons x xs =>
      rw [commas, List.flatMap_cons, List.flatMap_map, List.nil_append, List.map_cons]
      induction xs generalizing x with
      | nil => simp [List.intercalate]
      | cons y ys ih =>
          rw [List.flatMap_cons, List.append_assoc, ih y]
          simp [List.intercalate]

theorem dropLast_commas {α : Type*} (xs : List α) : (commas xs).dropLast = commas xs.dropLast := by
  cases xs with
  | nil => rfl
  | cons x xs =>
      cases xs with
      | nil => rfl
      | cons y ys => simp [commas]

theorem length_comma_le {α : Type*} {xs : List α} {entry : Text × α} (h : entry ∈ commas xs) :
    entry.1.length ≤ 1 ∧ entry.2 ∈ xs := by
  cases xs with
  | nil => cases h
  | cons x xs =>
      rcases List.mem_cons.mp h with rfl | hmem
      · exact ⟨Nat.zero_le 1, by simp⟩
      · obtain ⟨y, hy, rfl⟩ := List.mem_map.mp hmem
        exact ⟨Nat.le_refl 1, List.mem_cons_of_mem _ hy⟩

section Arrays

variable {key : Text} {entry : Text → Nat → List PrintStep} {values : List Nat} {number : Nat → Nat}

/-- An array with its key. -/
def arraySteps (key : Text) (entry : Text → Nat → List PrintStep) (values : List Nat) :
    List PrintStep :=
  appended key ++ withCommas entry values ++ [.strncat (lit "]")]

theorem arraySteps_shape (dims : List Nat) :
    arraySteps (lit "\"shape\": [") shapeEntry dims = shapeSteps dims := rfl

theorem arraySteps_maxdims (maxdims : List Nat) :
    arraySteps (lit "\"maxdims\": [") maxdimsEntry maxdims = maxdimsSteps maxdims := rfl

/-- The text of an array with its key. -/
def arrayText (key : Text) (values : List Nat) : Text :=
  key ++ [','].intercalate (values.map decimal) ++ lit "]"

/-- A number that fits is printed into its room. -/
def PrintsNumber (prints : List PrintStep) (text : Text) : Prop :=
  ∀ b : Printed, b.Whole → b.pos + (maxNumLength + 1) ≤ b.nalloc →
    ∃ c, printAll prints b = .ok c ∧ c.Whole ∧ c.text = b.text ++ text ∧ c.nalloc = b.nalloc

/-- An array of numbers that fit ends inside its buffer exactly when its bracket fits. -/
theorem printAll_array (hkey : key.length ≤ maxNumLength) (hvalues : values ≠ [])
    {prints : Text → Nat → List PrintStep}
    (hentry : ∀ comma value, entry comma value = .reserve (maxNumLength + 1) :: prints comma value)
    (hprints : ∀ comma value, comma.length ≤ 1 → value ∈ values →
      PrintsNumber (prints comma value) (comma ++ decimal (number value))) :
    (ClosingFits key (values.map number) → ∃ c,
      printAll (arraySteps key entry values) (.empty dataspaceShapeBufferDefaultSize) = .ok c ∧
        c.text = arrayText key (values.map number)) ∧
    (¬ ClosingFits key (values.map number) →
      printAll (arraySteps key entry values) (.empty dataspaceShapeBufferDefaultSize) =
        .undefined) := by
  obtain ⟨x, xs, rfl⟩ := List.exists_cons_of_ne_nil hvalues
  -- the key
  have hroom := (leastDouble_first dataspaceShapeBufferDefaultSize).doubled (by decide)
    (Nat.zero_le (0 + (key.length + 1)))
  obtain ⟨b, hb, hwhole, htext, hnalloc⟩ : ∃ b,
      printAll (appended key) (.empty dataspaceShapeBufferDefaultSize) = .ok b ∧ b.Whole ∧
        b.text = key ∧ LeastDouble dataspaceShapeBufferDefaultSize (key.length + 1) b.nalloc := by
    have hput := Printed.Whole.put (b := ⟨[], 0, doubled dataspaceShapeBufferDefaultSize
      (0 + (key.length + 1)) (0 + (key.length + 1)), true⟩) ⟨rfl, rfl⟩ key
    refine ⟨_, ?_, hput.1, hput.2, ?_⟩
    · rw [appended, printAll, PrintStep.run, Outcome.ok_bind, printAll, PrintStep.run, if_pos]
      · rfl
      · refine ⟨rfl, ?_⟩
        have hfits := hroom.fits
        simp only [Printed.empty] at hfits ⊢
        omega
    · rw [Printed.put]
      simp only
      rw [Nat.zero_add] at hroom ⊢
      exact hroom
  -- the entries
  have hsteps : withCommas entry (x :: xs) = (commas (x :: xs)).flatMap fun entry =>
      .reserve (maxNumLength + 1) :: prints entry.1 entry.2 := by
    rw [withCommas_eq]
    exact List.flatMap_congr fun entry _ => hentry entry.1 entry.2
  obtain ⟨c, hc, hwhole', htext', hnalloc'⟩ := @printAll_reserved _ _ _ _ _ _
    (fun entry : Text × Nat => entry.1 ++ decimal (number entry.2)) ([], x)
    (xs.map fun y => ([','], y)) (by decide)
    (fun entry hmem => hprints entry.1 entry.2 (@length_comma_le _ (x :: xs) _ hmem).1
      (@length_comma_le _ (x :: xs) _ hmem).2) hwhole hnalloc (by
        rw [hwhole.pos, htext]
        omega)
  change printAll ((commas (x :: xs)).flatMap _) b = _ at hc
  change c.text = b.text ++ (commas (x :: xs)).flatMap _ at htext'
  change LeastDouble _ (List.length (b.text ++ (commas (x :: xs)).dropLast.flatMap _) + _) _ at hnalloc'
  have hbefore : LeastDouble dataspaceShapeBufferDefaultSize
      ((key ++ [','].intercalate (((x :: xs).map number).dropLast.map decimal)).length +
        maxNumLength + 1) c.nalloc := by
    rw [dropLast_commas, flatMap_commas (fun value => decimal (number value)), htext] at hnalloc'
    rw [← List.map_dropLast, List.map_map]
    exact hnalloc'
  have hall : c.text = key ++ [','].intercalate (((x :: xs).map number).map decimal) := by
    rw [flatMap_commas (fun value => decimal (number value)), htext] at htext'
    rw [List.map_map]
    exact htext'
  -- the bracket
  have hlength := hbefore.unique ((leastDouble_first dataspaceShapeBufferDefaultSize).doubled
    (by decide) (Nat.zero_le _))
  have hbracket : (lit "]").length = 1 := by
    unfold lit
    rfl
  have hpos := hwhole'.pos
  rw [hall] at hpos
  have hprinted : printAll (arraySteps key entry (x :: xs)) (.empty dataspaceShapeBufferDefaultSize) =
      (PrintStep.strncat (lit "]")).run c := by
    rw [arraySteps, List.append_assoc, printAll_append, hb, Outcome.ok_bind, printAll_append, hsteps, hc,
      Outcome.ok_bind, printAll]
    cases (PrintStep.strncat (lit "]")).run c <;> rfl
  rw [hprinted, PrintStep.run, hbracket, ClosingFits, ← hlength, ← hpos]
  constructor
  · intro hfits
    refine ⟨_, if_pos ⟨hwhole'.terminated, by omega⟩, ?_⟩
    rw [(hwhole'.put _).2, hall]
    rfl
  · intro hfits
    exact if_neg fun h => hfits (by omega)

end Arrays
/-! ## The numbers of a dataspace -/

theorem length_decimal_le {value : Nat} (h : value < 2 ^ 63) : (decimal value).length ≤ 19 :=
  (length_decimal_le_iff (by decide)).mpr (Nat.lt_of_lt_of_le h (by decide))

theorem length_comma_decimal {comma : Text} {value : Nat} (hcomma : comma.length ≤ 1)
    (h : value < 2 ^ 63) : (comma ++ decimal value).length < maxNumLength + 1 := by
  have hlength := length_decimal_le h
  rw [List.length_append, maxNumLength]
  omega

theorem printsNumber_strncat {text : Text} (h : text.length < maxNumLength + 1) :
    PrintsNumber [.strncat text] text := by
  intro b hb hroom
  refine ⟨_, ?_, (hb.put text).1, (hb.put text).2, rfl⟩
  rw [printAll, PrintStep.run, if_pos ⟨hb.terminated, by omega⟩]
  rfl

theorem printsNumber_shape {comma : Text} {dim : Nat} (hcomma : comma.length ≤ 1)
    (hdim : dim < 2 ^ 63) :
    PrintsNumber [.unchecked (maxNumLength + 1) (comma ++ decimal dim)] (comma ++ decimal dim) := by
  intro b hb hroom
  have hlength := length_comma_decimal hcomma hdim
  obtain ⟨hwhole, htext⟩ := hb.put (comma ++ decimal dim)
  refine ⟨{ b.put (comma ++ decimal dim) with
    terminated := decide ((comma ++ decimal dim).length < maxNumLength + 1) }, ?_,
    ⟨hwhole.pos, decide_eq_true hlength⟩, htext, rfl⟩
  rw [printAll, PrintStep.run, if_neg (by omega), List.take_of_length_le (by omega)]
  rfl

/-- What is printed into the room for a maximum dimension size. -/
def maxdimPrints (comma : Text) (maxdim : Nat) : List PrintStep :=
  if maxdim = h5sUnlimited then (if comma = [] then [] else [.strncat comma]) ++ [.strncat (lit "0")]
  else [.strncat (comma ++ decimal maxdim)]

theorem lit_zero : lit "0" = decimal 0 := by
  unfold lit
  rfl

theorem printsNumber_maxdims {comma : Text} {maxdim : Nat} (hcomma : comma.length ≤ 1)
    (hmaxdim : maxdim = h5sUnlimited ∨ maxdim < 2 ^ 63) :
    PrintsNumber (maxdimPrints comma maxdim) (comma ++ decimal (sentMaxdim maxdim)) := by
  rw [maxdimPrints, sentMaxdim]
  by_cases hunlimited : maxdim = h5sUnlimited
  · rw [if_pos hunlimited, if_pos hunlimited, lit_zero]
    by_cases hnil : comma = []
    · rw [if_pos hnil, hnil]
      exact printsNumber_strncat (by decide)
    · rw [if_neg hnil]
      intro b hb hroom
      have hzero : (decimal 0).length = 1 := rfl
      have hfirst := hb.put comma
      refine ⟨_, ?_, (hfirst.1.put (decimal 0)).1, ?_, rfl⟩
      · rw [List.singleton_append, printAll, PrintStep.run, maxNumLength] at *
        rw [if_pos ⟨hb.terminated, by omega⟩, Outcome.ok_bind, printAll, PrintStep.run, if_pos]
        · rfl
        · refine ⟨rfl, ?_⟩
          simp only [Printed.put, hzero]
          omega
      · rw [(hfirst.1.put (decimal 0)).2, hfirst.2, List.append_assoc]
  · rw [if_neg hunlimited, if_neg hunlimited]
    exact printsNumber_strncat (length_comma_decimal hcomma (hmaxdim.resolve_left hunlimited))

/-! ## What was printed -/

section Texts

variable {key : Text} {entry : Text → Nat → List PrintStep} {values dims maxdims : List Nat}
  {c : Printed}

theorem printedText_array {number : Nat → Nat}
    (hentry : ∀ comma value, printedText (entry comma value) = comma ++ decimal (number value)) :
    printedText (arraySteps key entry values) = arrayText key (values.map number) := by
  have hprinted (entries : List (Text × Nat)) :
      printedText (entries.flatMap fun e => entry e.1 e.2) =
        entries.flatMap fun e => e.1 ++ decimal (number e.2) := by
    induction entries with
    | nil => rfl
    | cons e entries ih =>
        rw [List.flatMap_cons, List.flatMap_cons, printedText_append, hentry, ih]
  rw [arraySteps, arrayText, printedText_append, printedText_append, withCommas_eq, hprinted,
    flatMap_commas fun value => decimal (number value), List.map_map]
  simp only [appended, printedText_cons, printedText_nil, PrintStep.text, List.append_nil,
    List.nil_append]
  rfl

/-- Either every element has a property, or there is a first one without it. -/
theorem forall_or_first {α : Type*} (p : α → Prop) (xs : List α) : (∀ x ∈ xs, p x) ∨
    ∃ pre x post, xs = pre ++ x :: post ∧ (∀ y ∈ pre, p y) ∧ ¬ p x := by
  induction xs with
  | nil =>
      refine .inl fun x hx => ?_
      cases hx
  | cons x xs ih =>
      by_cases hx : p x
      · rcases ih with hall | ⟨pre, y, post, rfl, hpre, hy⟩
        · exact .inl (List.forall_mem_cons.mpr ⟨hx, hall⟩)
        · exact .inr ⟨x :: pre, y, post, rfl, List.forall_mem_cons.mpr ⟨hx, hpre⟩, hy⟩
      · refine .inr ⟨[], x, xs, rfl, fun y hy => ?_, hx⟩
        cases hy

theorem complete_array {entries : List (Text × Nat)} {steps : List PrintStep}
    (hentries : ∀ e ∈ entries, ∀ step ∈ entry e.1 e.2, step.Complete)
    (hsteps : ∀ step ∈ steps, step.Complete) :
    ∀ step ∈ appended key ++ (entries.flatMap fun e => entry e.1 e.2) ++ steps, step.Complete := by
  intro step hstep
  rcases List.mem_append.mp hstep with hstep | hstep
  · rcases List.mem_append.mp hstep with hstep | hstep
    · rcases List.mem_cons.mp hstep with rfl | hstep
      · trivial
      · rw [List.mem_singleton.mp hstep]
        trivial
    · obtain ⟨e, he, hmem⟩ := List.mem_flatMap.mp hstep
      exact hentries e he step hmem
  · exact hsteps step hstep

/-- An array of sizes that is printed to its end has all of them. -/
theorem text_shapeSteps (h : printAll (shapeSteps dims) (.empty dataspaceShapeBufferDefaultSize) = .ok c)
    (hend : c.text.getLast? = some ']') : c.text = arrayText (lit "\"shape\": [") dims := by
  have hwhole : (Printed.empty dataspaceShapeBufferDefaultSize).Whole := ⟨rfl, rfl⟩
  rcases forall_or_first (fun e : Text × Nat => (e.1 ++ decimal e.2).length < maxNumLength + 1)
    (commas dims) with hall | ⟨pre, e, post, hsplit, hpre, hlong⟩
  · have hcomplete : ∀ step ∈ shapeSteps dims, step.Complete := by
      rw [shapeSteps, withCommas_eq]
      apply complete_array
      · intro e he step hstep
        rcases List.mem_cons.mp hstep with rfl | hstep
        · trivial
        · rw [List.mem_singleton.mp hstep]
          exact hall e he
      · intro step hstep
        rw [List.mem_singleton.mp hstep]
        trivial
    rw [(printAll_complete hcomplete hwhole h).2]
    have htext : printedText (shapeSteps dims) = arrayText (lit "\"shape\": [") (dims.map id) := by
      apply printedText_array
      intro comma dim
      rw [shapeEntry, printedText_cons, printedText_cons]
      simp only [PrintStep.text, printedText_nil, List.append_nil, List.nil_append, id]
    rw [List.map_id] at htext
    exact htext
  · have hsteps : shapeSteps dims = (appended (lit "\"shape\": [") ++
        (pre.flatMap fun e => shapeEntry e.1 e.2) ++ [.reserve (maxNumLength + 1)]) ++
          .unchecked (maxNumLength + 1) (e.1 ++ decimal e.2) ::
            ((post.flatMap fun e => shapeEntry e.1 e.2) ++ [.strncat (lit "]")]) := by
      rw [shapeSteps, withCommas_eq, hsplit, List.flatMap_append, List.flatMap_cons]
      simp only [shapeEntry, List.append_assoc, List.cons_append, List.nil_append]
    rw [hsteps] at h
    have hcomplete := @complete_array (lit "\"shape\": [") shapeEntry pre
      [.reserve (maxNumLength + 1)] (fun e he step hstep => by
        rcases List.mem_cons.mp hstep with rfl | hstep
        · trivial
        · rw [List.mem_singleton.mp hstep]
          exact hpre e he)
      (fun step hstep => by
        rw [List.mem_singleton.mp hstep]
        trivial)
    have htext := printAll_unchecked hcomplete (Nat.succ_pos maxNumLength) (Nat.le_of_not_lt hlong)
      hwhole h
    -- the text ends in a digit or in a comma
    rw [htext, Nat.succ_sub_one] at hend
    have hne : (e.1 ++ decimal e.2).take maxNumLength ≠ [] := by
      intro hnil
      have hlength := congrArg List.length hnil
      rw [List.length_take, List.length_nil, maxNumLength] at hlength
      rw [maxNumLength] at hlong
      omega
    rw [← List.append_assoc, List.getLast?_append_of_ne_nil _ hne] at hend
    have hmem := List.mem_of_mem_take (List.mem_of_getLast? hend)
    rcases List.mem_append.mp hmem with hcomma | hdigit
    · have he : e ∈ commas dims := by simp [hsplit]
      have hchar : ∀ c ∈ e.1, c = ',' := by
        cases dims with
        | nil => cases he
        | cons dim dims =>
            rcases List.mem_cons.mp he with rfl | he
            · intro c hc
              cases hc
            · obtain ⟨_, -, rfl⟩ := List.mem_map.mp he
              intro c hc
              exact List.mem_singleton.mp hc
      cases hchar _ hcomma
    · exact absurd hdigit (not_mem_decimal (by decide))

theorem text_maxdimsSteps
    (h : printAll (maxdimsSteps maxdims) (.empty dataspaceShapeBufferDefaultSize) = .ok c) :
    c.text = arrayText (lit "\"maxdims\": [") (maxdims.map sentMaxdim) := by
  have hentry (comma : Text) (maxdim : Nat) :
      ∀ step ∈ maxdimsEntry comma maxdim, step.Complete := by
    intro step hstep
    rcases List.mem_cons.mp hstep with rfl | hstep
    · trivial
    · split at hstep
      · rcases List.mem_append.mp hstep with hstep | hstep
        · split at hstep
          · cases hstep
          · rw [List.mem_singleton.mp hstep]
            trivial
        · rw [List.mem_singleton.mp hstep]
          trivial
      · rw [List.mem_singleton.mp hstep]
        trivial
  have hcomplete : ∀ step ∈ maxdimsSteps maxdims, step.Complete := by
    rw [maxdimsSteps, withCommas_eq]
    apply complete_array
    · intro e he step hstep
      exact hentry e.1 e.2 step hstep
    · intro step hstep
      rw [List.mem_singleton.mp hstep]
      trivial
  rw [(printAll_complete hcomplete ⟨rfl, rfl⟩ h).2]
  apply printedText_array
  intro comma maxdim
  rw [maxdimsEntry, sentMaxdim, printedText_cons]
  split
  · rw [printedText_append, printedText_cons, lit_zero]
    split
    · next hnil =>
        rw [hnil]
        rfl
    · rw [printedText_cons]
      simp only [PrintStep.text, printedText_nil, List.append_nil, List.nil_append]
  · rw [printedText_cons]
    simp only [PrintStep.text, printedText_nil, List.append_nil, List.nil_append]

end Texts
/-! ## Reading a description -/

theorem arrayText_shape (dims : List Nat) :
    arrayText (lit "\"shape\": [") dims = lit "\"shape\": " ++ (numbers dims).render := by
  have hkey : lit "\"shape\": [" = lit "\"shape\": " ++ ['['] := by
    unfold lit
    rfl
  have hend : lit "]" = [']'] := by
    unfold lit
    rfl
  rw [arrayText, numbers, Json.render, Json.renderItems_numbers, hkey, hend, List.append_assoc,
    List.append_assoc]
  rfl

theorem arrayText_maxdims (maxdims : List Nat) :
    arrayText (lit "\"maxdims\": [") maxdims = lit "\"maxdims\": " ++ (numbers maxdims).render := by
  have hkey : lit "\"maxdims\": [" = lit "\"maxdims\": " ++ ['['] := by
    unfold lit
    rfl
  have hend : lit "]" = [']'] := by
    unfold lit
    rfl
  rw [arrayText, numbers, Json.render, Json.renderItems_numbers, hkey, hend, List.append_assoc,
    List.append_assoc]
  rfl

theorem plain_numbers (values : List Nat) : (numbers values).Plain := by
  rw [numbers, Json.Plain]
  refine ⟨Json.blank_nil, ?_⟩
  induction values with
  | nil => trivial
  | cons value values ih =>
      rw [List.map_cons, Json.PlainItems, Json.Plain]
      exact ⟨trivial, ih⟩

theorem value_numbers (values : List Nat) : (numbers values).value = numbers values := by
  rw [numbers, Json.value, Json.valueItems_numbers]

/-- Different arrays of numbers have different texts. -/
theorem numbers_injective {values others : List Nat} (h : (numbers values).render = (numbers others).render) :
    values = others := by
  have hread := Json.readsJson_readJson (numbers values) (plain_numbers values)
  rw [h, Json.readsJson_readJson (numbers others) (plain_numbers others), value_numbers,
    value_numbers] at hread
  have hitems := (Json.array.inj (Option.some.inj hread)).2
  refine (List.map_injective_iff.mpr ?_ hitems).symm
  intro first second heq
  exact Int.ofNat.inj (Json.number.inj heq)

/-- The size that is read for a number. -/
def readSize (value : Nat) : Nat := min value (2 ^ 63 - 1)

theorem yajlGetInteger_number (value : Nat) :
    yajlGetInteger (.number value) = .ok (readSize value : Int) := by
  rw [yajlGetInteger, readSize]
  congr 1
  omega

theorem toSize_readSize (value : Nat) : toSize (readSize value) = readSize value := by
  have hlt : readSize value < 2 ^ 64 := Nat.lt_of_le_of_lt (Nat.min_le_right _ _) (by decide)
  rw [toSize_natCast hlt]

theorem readSize_eq_iff {value : Nat} : readSize value = value ↔ value < 2 ^ 63 := by
  rw [readSize]
  omega

theorem parseExtent_numbers (sent : List (Nat × Nat)) :
    parseExtent (sent.map fun d => Json.number d.1) (some (sent.map fun d => Json.number d.2)) =
      .ok (sent.map fun d =>
        (readSize d.1, if readSize d.2 = 0 then h5sUnlimited else readSize d.2)) := by
  induction sent with
  | nil => rfl
  | cons d sent ih =>
      rw [List.map_cons, List.map_cons, parseExtent, yajlGetInteger_number, Outcome.ok_bind,
        yajlGetInteger_number, Outcome.ok_bind, ih, Outcome.ok_bind, toSize_readSize, toSize_readSize,
        List.map_cons]
      congr 3
      simp only [Nat.cast_eq_zero]

section Reading

variable {parse : Text → Option Json} {response : Json} {shape : List (Text × Json)}
  {extent : List (Nat × Nat)}

theorem keys_shape : lit "class" ≠ lit "dims" ∧ lit "class" ≠ lit "maxdims" ∧
    lit "dims" ≠ lit "maxdims" := by
  unfold lit
  decide

theorem classes_shape : lit "H5S_SCALAR" ≠ lit "H5S_NULL" ∧ lit "H5S_SIMPLE" ≠ lit "H5S_NULL" ∧
    lit "H5S_SIMPLE" ≠ lit "H5S_SCALAR" := by
  unfold lit
  decide

/-- The members of the shape are found. -/
theorem Describes.tree (hparse : Json.ReadsJson parse) (h : Describes response shape) :
    ∃ tree, parse response.render = some tree ∧
      ∀ key, tree.at? [lit "shape", key] = (Json.object [] [] shape).member key := by
  obtain ⟨hplain, before, after, hbefore, hvalue⟩ := h
  refine ⟨response.value, hparse response hplain, fun key => ?_⟩
  have hfind : (before ++ (lit "shape", Json.object [] [] shape) :: after).find?
      (fun m => m.1 = lit "shape") = some (lit "shape", .object [] [] shape) := by
    rw [List.find?_append, List.find?_eq_none.mpr fun m hm => by simpa using hbefore m hm]
    simp
  rw [hvalue, Json.at?, Json.member, hfind, Option.map_some, Option.bind_some, Json.at?]
  cases (Json.object [] [] shape).member key <;> rfl

theorem Describes.parse_scalar (hparse : Json.ReadsJson parse)
    (h : Describes response [(lit "class", .string (lit "H5S_SCALAR"))]) :
    rvParseDataspace parse response.render = .ok .scalar := by
  obtain ⟨tree, htree, hat⟩ := h.tree hparse
  have hclass : tree.at? [lit "shape", lit "class"] = some (.string (lit "H5S_SCALAR")) := by
    rw [hat, Json.member, List.find?_cons_of_pos (by simp)]
    rfl
  rw [rvParseDataspace, htree]
  simp only [hclass]
  rw [if_neg classes_shape.1, if_pos trivial]

theorem Describes.parse_null (hparse : Json.ReadsJson parse)
    (h : Describes response [(lit "class", .string (lit "H5S_NULL"))]) :
    rvParseDataspace parse response.render = .ok .null := by
  obtain ⟨tree, htree, hat⟩ := h.tree hparse
  have hclass : tree.at? [lit "shape", lit "class"] = some (.string (lit "H5S_NULL")) := by
    rw [hat, Json.member, List.find?_cons_of_pos (by simp)]
    rfl
  rw [rvParseDataspace, htree]
  simp only [hclass]
  rw [if_pos trivial]

/-- A simple dataspace is read from its arrays. -/
theorem Describes.parse_simple (hparse : Json.ReadsJson parse) (hextent : extent ≠ [])
    (h : Describes response [(lit "class", .string (lit "H5S_SIMPLE")),
      (lit "dims", numbers (extent.map Prod.fst)), (lit "maxdims", numbers (extent.map Prod.snd))]) :
    rvParseDataspace parse response.render = h5screateSimple (extent.map fun d =>
      (readSize d.1, if readSize d.2 = 0 then h5sUnlimited else readSize d.2)) := by
  obtain ⟨tree, htree, hat⟩ := h.tree hparse
  obtain ⟨hdims, hmaxdims, hne⟩ := keys_shape
  have hclass : tree.at? [lit "shape", lit "class"] = some (.string (lit "H5S_SIMPLE")) := by
    rw [hat, Json.member, List.find?_cons_of_pos (by simp)]
    rfl
  have hdimsAt : (tree.at? [lit "shape", lit "dims"]).bind arrayItems =
      some (extent.map fun d => Json.number d.1) := by
    rw [hat, Json.member, List.find?_cons_of_neg (by simpa using hdims),
      List.find?_cons_of_pos (by simp), Option.map_some, Option.bind_some, numbers, arrayItems,
      List.map_map]
    rfl
  have hmaxdimsAt : (tree.at? [lit "shape", lit "maxdims"]).bind arrayItems =
      some (extent.map fun d => Json.number d.2) := by
    rw [hat, Json.member, List.find?_cons_of_neg (by simpa using hmaxdims),
      List.find?_cons_of_neg (by simpa using hne), List.find?_cons_of_pos (by simp), Option.map_some,
      Option.bind_some, numbers, arrayItems, List.map_map]
    rfl
  have hread := parseExtent_numbers extent
  rw [rvParseDataspace, htree]
  simp only [hclass, hdimsAt, hmaxdimsAt]
  rw [if_neg classes_shape.2.1, if_neg classes_shape.2.2, if_pos trivial]
  obtain ⟨d, rest, rfl⟩ := List.exists_cons_of_ne_nil hextent
  exact congrArg (Outcome.bind · h5screateSimple) hread

/-- What is read for an extent that was sent. -/
theorem Describes.parse_sent (hparse : Json.ReadsJson parse) (hextent : extent ≠ [])
    (h : Describes response [(lit "class", .string (lit "H5S_SIMPLE")),
      (lit "dims", numbers (extent.map Prod.fst)),
      (lit "maxdims", numbers (extent.map fun d => sentMaxdim d.2))]) :
    rvParseDataspace parse response.render = h5screateSimple (extent.map fun d => (readSize d.1,
      if readSize (sentMaxdim d.2) = 0 then h5sUnlimited else readSize (sentMaxdim d.2))) := by
  have hread := @parse_simple _ response (extent.map fun d => (d.1, sentMaxdim d.2))
    hparse (by simpa using hextent)
  rw [List.map_map, List.map_map, List.map_map] at hread
  exact hread h

end Reading

/-! ## Round trips -/

section RoundTrips

variable {parse : Text → Option Json} {extent : List (Nat × Nat)} {shape maxdims : Text}

/-- The texts of an extent that is converted. -/
theorem shapeToJson_simple (hextent : extent ≠ []) {sent : Option Text × Option Text}
    (h : (Dataspace.simple extent).shapeToJson = .ok sent) : ∃ b c : Printed,
      printAll (shapeSteps (extent.map Prod.fst)) (.empty dataspaceShapeBufferDefaultSize) = .ok b ∧
        printAll (maxdimsSteps (extent.map Prod.snd)) (.empty dataspaceShapeBufferDefaultSize) = .ok c ∧
          sent = (some b.text, some c.text) := by
  rw [Dataspace.shapeToJson, rvConvertDataspaceShapeToJson, if_neg hextent] at h
  obtain ⟨body, hbody, hsent⟩ := Outcome.bind_eq_ok_iff.mp h
  obtain ⟨b, hb, hbody⟩ := Outcome.bind_eq_ok_iff.mp hbody
  obtain ⟨c, hc, hbody⟩ := Outcome.bind_eq_ok_iff.mp hbody
  obtain rfl := Outcome.ok.inj hbody
  exact ⟨b, c, hb, hc, (Outcome.ok.inj hsent).symm⟩

/-- The arrays that are echoed are those that were sent. -/
theorem echoes_simple {b c : Printed} {members : List (Text × Json)}
    (hb : printAll (shapeSteps (extent.map Prod.fst)) (.empty dataspaceShapeBufferDefaultSize) = .ok b)
    (hc : printAll (maxdimsSteps (extent.map Prod.snd)) (.empty dataspaceShapeBufferDefaultSize) = .ok c)
    (h : Echoes (some b.text, some c.text) members) :
    members = [(lit "class", .string (lit "H5S_SIMPLE")), (lit "dims", numbers (extent.map Prod.fst)),
      (lit "maxdims", numbers (extent.map fun d => sentMaxdim d.2))] := by
  generalize htexts : (some b.text, some c.text) = sent at h
  cases h with
  | scalar => cases htexts
  | null =>
      have hnone : some c.text = none := congrArg Prod.snd htexts
      cases hnone
  | simple dims maxdims =>
      obtain ⟨hshape, hmaxdims⟩ := Prod.mk.inj htexts
      have hend : b.text.getLast? = some ']' := by
        rw [Option.some.inj hshape, numbers, Json.render, ← List.cons_append, ← List.append_assoc,
          List.getLast?_concat]
      have hdims := text_shapeSteps hb hend
      rw [Option.some.inj hshape, arrayText_shape] at hdims
      have hmax := text_maxdimsSteps hc
      rw [Option.some.inj hmaxdims, arrayText_maxdims, List.map_map] at hmax
      rw [numbers_injective (List.append_cancel_left hdims),
        numbers_injective (List.append_cancel_left hmax)]
      rfl

/-- The description with nothing else in it. -/
theorem describes_self {dims maxdims : List Nat} :
    Describes (.object [] [] [(lit "shape", .object [] [] [(lit "class", .string (lit "H5S_SIMPLE")),
      (lit "dims", numbers dims), (lit "maxdims", numbers maxdims)])])
        [(lit "class", .string (lit "H5S_SIMPLE")), (lit "dims", numbers dims),
          (lit "maxdims", numbers maxdims)] := by
  have hkeys : Json.PlainText (lit "shape") ∧ Json.PlainText (lit "class") ∧
      Json.PlainText (lit "H5S_SIMPLE") ∧ Json.PlainText (lit "dims") ∧
        Json.PlainText (lit "maxdims") := by
    unfold lit
    decide
  obtain ⟨hshape, hclass, hsimple, hdims, hmaxdims⟩ := hkeys
  refine ⟨?_, [], [], fun _ hm => absurd hm List.not_mem_nil, ?_⟩
  · simp only [Json.Plain, Json.PlainMembers, plain_numbers, hshape, hclass, hsimple, hdims, hmaxdims,
      and_true, true_and]
    exact ⟨Json.blank_nil, Json.blank_nil, Json.blank_nil, Json.blank_nil⟩
  · simp only [Json.value, Json.valueMembers, value_numbers, List.nil_append]

/-- What comes back for an extent is the extent exactly when its sizes fit. -/
theorem readExtent_eq_iff : (extent.map fun d => (readSize d.1,
      if readSize (sentMaxdim d.2) = 0 then h5sUnlimited else readSize (sentMaxdim d.2))) = extent ↔
    ∀ d ∈ extent, d.1 < 2 ^ 63 ∧ d.2 ≠ 0 ∧ (d.2 = h5sUnlimited ∨ d.2 < 2 ^ 63) := by
  have hmax (maxdim : Nat) : (if readSize (sentMaxdim maxdim) = 0 then h5sUnlimited
      else readSize (sentMaxdim maxdim)) = maxdim ↔
        maxdim ≠ 0 ∧ (maxdim = h5sUnlimited ∨ maxdim < 2 ^ 63) := by
    rw [sentMaxdim, h5sUnlimited]
    by_cases hunlimited : maxdim = 2 ^ 64 - 1
    · rw [if_pos hunlimited, readSize, Nat.zero_min, if_pos rfl, hunlimited]
      decide
    · rw [if_neg hunlimited]
      by_cases hzero : maxdim = 0
      · rw [hzero]
        decide
      · have hread : readSize maxdim ≠ 0 := by
          rw [readSize]
          omega
        rw [if_neg hread, readSize_eq_iff]
        constructor
        · exact fun hlt => ⟨hzero, .inr hlt⟩
        · exact fun h => h.2.resolve_left hunlimited
  have hself := List.map_inj_left (l := extent) (g := id) (f := fun d => (readSize d.1,
    if readSize (sentMaxdim d.2) = 0 then h5sUnlimited else readSize (sentMaxdim d.2)))
  rw [List.map_id] at hself
  rw [hself]
  apply forall₂_congr
  intro d _
  rw [Prod.ext_iff]
  exact and_congr readSize_eq_iff (hmax d.2)

/-- A simple dataspace comes back exactly when it can be sent. -/
theorem roundTrips_simple_iff (hparse : Json.ReadsJson parse)
    (hvalid : (Dataspace.simple extent).Valid) :
    (Dataspace.simple extent).RoundTrips parse ↔ (Dataspace.simple extent).Sendable := by
  have hextent := hvalid.1
  have hkey : (lit "\"shape\": [").length ≤ maxNumLength ∧
      (lit "\"maxdims\": [").length ≤ maxNumLength := by
    unfold lit
    decide
  have hshapeArray (hdims : ∀ d ∈ extent, d.1 < 2 ^ 63) := @printAll_array _ shapeEntry
    (extent.map Prod.fst) id hkey.1 (by simpa using hextent) _ (fun _ _ => rfl) fun comma dim hcomma hdim => by
      obtain ⟨d, hd, rfl⟩ := List.mem_map.mp hdim
      exact printsNumber_shape hcomma (hdims d hd)
  have hmaxdimsArray (hmax : ∀ d ∈ extent, d.2 = h5sUnlimited ∨ d.2 < 2 ^ 63) :=
    @printAll_array _ maxdimsEntry (extent.map Prod.snd) sentMaxdim hkey.2 (by simpa using hextent)
      _ (fun _ _ => rfl) fun comma maxdim hcomma hmaxdim => by
        obtain ⟨d, hd, rfl⟩ := List.mem_map.mp hmaxdim
        exact printsNumber_maxdims hcomma (hmax d hd)
  rw [List.map_map] at hmaxdimsArray
  simp only [List.map_id] at hshapeArray
  constructor
  · rintro ⟨sent, members, hsent, hechoes, hread⟩
    obtain ⟨b, c, hb, hc, rfl⟩ := shapeToJson_simple hextent hsent
    obtain rfl := echoes_simple hb hc hechoes
    have hresult := hread _ describes_self
    rw [describes_self.parse_sent hparse hextent, h5screateSimple] at hresult
    split at hresult
    · have hsizes := readExtent_eq_iff.mp (Dataspace.simple.inj (Outcome.ok.inj hresult))
      refine ⟨hsizes, ?_, ?_⟩
      · by_contra hnot
        have hundefined := (hshapeArray fun d hd => (hsizes d hd).1).2 hnot
        rw [← arraySteps_shape, hundefined] at hb
        cases hb
      · by_contra hnot
        have hundefined := (hmaxdimsArray fun d hd => (hsizes d hd).2.2).2 hnot
        rw [← arraySteps_maxdims, hundefined] at hc
        cases hc
    · cases hresult
  · rintro ⟨hsizes, hshape, hmaxdims⟩
    obtain ⟨b, hb, hbtext⟩ := (hshapeArray fun d hd => (hsizes d hd).1).1 hshape
    obtain ⟨c, hc, hctext⟩ := (hmaxdimsArray fun d hd => (hsizes d hd).2.2).1 hmaxdims
    rw [arraySteps_shape] at hb
    rw [arraySteps_maxdims] at hc
    rw [arrayText_shape] at hbtext
    rw [arrayText_maxdims] at hctext
    refine ⟨(some b.text, some c.text), [(lit "class", .string (lit "H5S_SIMPLE")),
      (lit "dims", numbers (extent.map Prod.fst)),
      (lit "maxdims", numbers (extent.map fun d => sentMaxdim d.2))], ?_, ?_,
      fun response hresponse => ?_⟩
    · rw [Dataspace.shapeToJson, rvConvertDataspaceShapeToJson, if_neg hextent, hb, Outcome.ok_bind, hc]
      rfl
    · rw [hbtext, hctext]
      exact .simple _ _
    · rw [hresponse.parse_sent hparse hextent, readExtent_eq_iff.mpr hsizes, h5screateSimple,
        if_pos hvalid]

/-- A dataspace comes back from the server as it was exactly when it can be sent. -/
theorem dataspace_roundTrips_iff (hparse : Json.ReadsJson parse) (s : Dataspace) (hvalid : s.Valid) :
    s.RoundTrips parse ↔ s.Sendable := by
  cases s with
  | scalar =>
      exact iff_of_true ⟨_, _, rfl, .scalar, fun response h => h.parse_scalar hparse⟩ trivial
  | null =>
      refine iff_of_true ⟨_, _, ?_, .null, fun response h => h.parse_null hparse⟩ trivial
      unfold Dataspace.shapeToJson lit
      rfl
  | simple extent => exact roundTrips_simple_iff hparse hvalid

end RoundTrips

theorem dataspace_roundTrips_unlimited :
    (Dataspace.simple [(3, 10), (0, h5sUnlimited)]).RoundTrips Json.readJson ↔
      (Dataspace.simple [(3, 10), (0, h5sUnlimited)]).Sendable :=
  dataspace_roundTrips_iff Json.readsJson_readJson _ (by decide)

/-- A maximum dimension size of zero comes back unlimited. -/
theorem not_roundTrips_zero : ¬ ∀ parse, Json.ReadsJson parse → ∀ s : Dataspace, s.Valid →
    s.RoundTrips parse := by
  intro h
  have hvalid : (Dataspace.simple [(0, 0)]).Valid := by decide
  have hsendable :=
    (roundTrips_simple_iff Json.readsJson_readJson hvalid).mp (h _ Json.readsJson_readJson _ hvalid)
  exact (hsendable.1 (0, 0) (by simp)).2.1 rfl

end XHDF5.Client
