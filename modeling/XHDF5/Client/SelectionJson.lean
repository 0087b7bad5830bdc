/-
# Selections in a request body

Where a selection cannot stand in the URL the client prints it as members of a JSON object: the
coordinates of points, or the start, stop and step of a hyperslab for every dimension. Both are
stated here with the buffers they are printed into. The points of a read are then put into braces,
in place, and posted.
-/

import XHDF5.Client.DataspaceJson
import XHDF5.Math.CString
import XHDF5.Math.JsonNesting

namespace XHDF5.Client

open XHDF5.Math

/-! ## The code -/

/-- `"%s%llu"` for each value, with `i > 0 ? "," : ""`. -/
def commaTexts : List Nat → List Text
  | [] => []
  | value :: values => decimal value :: values.map fun value => ',' :: decimal value

/-- The room that is reserved for one point:
`(ndims * MAX_NUM_LENGTH) + (ndims) + (ndims > 1 ? 3 : 1)`. -/
def pointRoom (ndims : Nat) : Nat := ndims * maxNumLength + ndims + if ndims > 1 then 3 else 1

/-- The coordinates `point_list[(i * ndims) + j]`. -/
def pointAt (ndims : Nat) (pointList : List Nat) (i : Nat) : List Nat :=
  (pointList.drop (i * ndims)).take ndims

/-- What is printed for the point `i` behind its reservation. -/
def pointSteps (ndims : Nat) (pointList : List Nat) (i : Nat) : List PrintStep :=
  (if i > 0 then [.strncat [',']] else []) ++ ((if ndims > 1 then [.strncat ['[']] else []) ++
    ((commaTexts (pointAt ndims pointList i)).map (.unchecked (pointRoom ndims)) ++
      if ndims > 1 then [.strncat [']']] else []))

/-- `DATASPACE_SELECTION_STRING_DEFAULT_SIZE`. -/
def selectionStringDefaultSize : Nat := 512

/-- `RV_convert_dataspace_selection_to_string` for points that go into a request body. -/
def convertPoints (ndims numPoints : Nat) (pointList : List Nat) : Outcome Printed :=
  if ndims = 0 then .fail
  else
    let pointsStr := lit "\"points\": ["
    printAll ([.reserve (pointsStr.length + 1), .strncat pointsStr] ++
      (((List.range numPoints).flatMap fun i =>
          .reserve (pointRoom ndims) :: pointSteps ndims pointList i) ++
        [.reserve 2, .strncat [']']]))
      (.empty selectionStringDefaultSize)

/-- The buffer of a text that was printed, with whatever is in it behind the NUL. -/
def bufferOf (b : Printed) (rest : Memory Char) : Buffer Char :=
  ⟨rest.write 0 (b.text ++ [nul]), b.nalloc⟩

/-- The braces around the selection body, which is shifted by a byte in a buffer of its new size;
with it `post_len`. -/
def encloseSelection (selectionBody : Buffer Char) (selectionBodyLen : Nat) :
    Outcome (Buffer Char × Nat) :=
  let grown : Buffer Char := ⟨selectionBody.bytes, selectionBodyLen + 3⟩
  (grown.load 0 (selectionBodyLen + 1)).bind fun text =>
    (grown.store 1 text).bind fun body => (body.store 0 ['{']).bind fun body =>
      (body.store (selectionBodyLen + 1) ['}']).bind fun body =>
        (body.store (selectionBodyLen + 2) [nul]).bind fun body =>
          .ok (body, selectionBodyLen + 2)

/-- What is printed into the body of one array: its opening brackets, the values, each with the
rest of the buffer as its limit, and `strcat` of the closing bracket. -/
def slabBodySteps (bodySize opening : Nat) (values : List Nat) : List PrintStep :=
  List.replicate opening (.strncat ['[']) ++
    (limited bodySize opening (commaTexts values) ++ [.strncat [']']])

/-- `slab_format`. -/
def slabFormat (startBody stopBody stepBody : Text) : Text :=
  lit "\"start\": " ++ (startBody ++ (lit ",\"stop\": " ++ (stopBody ++
    (lit ",\"step\": " ++ stepBody))))

/-- `RV_convert_dataspace_selection_to_string` for a hyperslab that goes into a request body. Both
brackets behind the one of the starts are appended to the stops. -/
def convertHyperslab (slabs : List Slab) : Outcome Printed :=
  let ndims := slabs.length
  if ndims = 0 then .fail
  else
    let bodySize := ndims * maxNumLength + ndims
    (printAll (slabBodySteps bodySize 1 (slabs.map Slab.start)) (.empty bodySize)).bind fun start =>
      (printAll (slabBodySteps bodySize 2 (slabs.map Slab.stop)) (.empty bodySize)).bind fun stop =>
        (printAll (slabBodySteps bodySize 0 (slabs.map Slab.step)) (.empty bodySize)).bind
          fun step =>
            printAll
              [.reserve (start.text.length + stop.text.length + step.text.length + 1),
                .snprintf (slabFormat start.text stop.text step.text)]
              (.empty selectionStringDefaultSize)

/-! ## What is printed -/

section Values

variable {values : List Nat}

/-- Each text but the first stands behind a comma. -/
theorem intercalate_comma_cons (text : Text) (texts : List Text) :
    [','].intercalate (text :: texts) = text ++ texts.flatMap (',' :: ·) := by
  induction texts generalizing text with
  | nil => simp [List.intercalate]
  | cons next texts ih =>
      have hrest := ih next
      simp only [List.intercalate] at hrest
      simp [List.intercalate, hrest]

theorem flatten_commaTexts (values : List Nat) :
    (commaTexts values).flatten = [','].intercalate (values.map decimal) := by
  cases values with
  | nil => rfl
  | cons value values =>
      rw [commaTexts, List.flatten_cons, List.map_cons, intercalate_comma_cons, List.flatMap_map,
        List.flatMap_def]

theorem length_text_le {text : Text} (hvalues : ∀ value ∈ values, value < 2 ^ 64)
    (htext : text ∈ commaTexts values) : text.length ≤ maxNumLength + 1 := by
  have hdecimal {value : Nat} (h : value < 2 ^ 64) : (decimal value).length ≤ maxNumLength :=
    (length_decimal_le_iff (by decide)).mpr (h.trans (by decide))
  cases values with
  | nil => cases htext
  | cons value values =>
      obtain ⟨hvalue, hvalues⟩ := List.forall_mem_cons.mp hvalues
      rcases List.mem_cons.mp htext with rfl | htext
      · exact Nat.le_succ_of_le (hdecimal hvalue)
      · obtain ⟨next, hnext, rfl⟩ := List.mem_map.mp htext
        exact Nat.succ_le_succ (hdecimal (hvalues next hnext))

/-- Numbers of 64 bits with commas between them. -/
theorem length_commaTexts_lt (hvalues : ∀ value ∈ values, value < 2 ^ 64) (hne : values ≠ []) :
    (commaTexts values).flatten.length < values.length * maxNumLength + values.length := by
  have hdecimal {value : Nat} (h : value < 2 ^ 64) : (decimal value).length ≤ maxNumLength :=
    (length_decimal_le_iff (by decide)).mpr (h.trans (by decide))
  have hrest (values : List Nat) (hvalues : ∀ value ∈ values, value < 2 ^ 64) :
      (values.map fun value => ',' :: decimal value).flatten.length ≤
        values.length * maxNumLength + values.length := by
    induction values with
    | nil => exact Nat.le_refl _
    | cons value values ih =>
        obtain ⟨hvalue, hvalues⟩ := List.forall_mem_cons.mp hvalues
        have hvalue := hdecimal hvalue
        have hvalues := ih hvalues
        simp only [List.map_cons, List.flatten_cons, List.length_append, List.length_cons] at *
        rw [Nat.add_mul]
        omega
  cases values with
  | nil => exact absurd rfl hne
  | cons value values =>
      obtain ⟨hvalue, hvalues⟩ := List.forall_mem_cons.mp hvalues
      have hvalue := hdecimal hvalue
      have hvalues := hrest values hvalues
      rw [commaTexts, List.flatten_cons, List.length_append, List.length_cons, Nat.add_mul]
      omega

end Values

/-! ## Points -/

/-- A list of points of a dataspace with dimensions. -/
structure PointSelection where
  ndims : Nat
  points : List (List Nat)
  ndims_pos : 0 < ndims
  points_ne_nil : points ≠ []
  inside : ∀ point ∈ points, point.length = ndims ∧ ∀ x ∈ point, x < 2 ^ 64

/-- `RV_dataset_read` for the selection: the body that is handed to cURL, and its length. -/
def PointSelection.posted (s : PointSelection) (rest : Memory Char) : Outcome (Buffer Char × Nat) :=
  (convertPoints s.ndims s.points.length s.points.flatten).bind fun b =>
    encloseSelection (bufferOf b rest) b.pos

/-- The value of a point: its coordinate, or the array of its coordinates. -/
def pointValue (ndims : Nat) (point : List Nat) : Json :=
  if ndims > 1 then numbers point else .number (point.headD 0 : Nat)

/-- The list of points as a JSON value. -/
def PointSelection.value (s : PointSelection) : Json :=
  .object [] [] [(lit "points", .array [] (s.points.map (pointValue s.ndims)))]

/-- The body ends with its NUL inside the buffer, it is JSON, its value lists the points, and its
length is posted. Every store has a defined result. -/
def PointSelection.Posts (s : PointSelection) (rest : Memory Char) : Prop :=
  ∃ body postLen text, s.posted rest = .ok (body, postLen) ∧
    body.load 0 (text.length + 1) = .ok (text ++ [nul]) ∧ postLen = text.length ∧
      JsonText text ∧ Json.readJson text = some s.value

section Points

variable {ndims : Nat} {points : List (List Nat)}

/-- The flat list holds the points behind each other. -/
theorem map_pointAt (hpoints : ∀ point ∈ points, point.length = ndims) :
    (List.range points.length).map (pointAt ndims points.flatten) = points := by
  induction points with
  | nil => rfl
  | cons point points ih =>
      obtain ⟨hpoint, hpoints⟩ := List.forall_mem_cons.mp hpoints
      have hfirst : pointAt ndims (point :: points).flatten 0 = point := by
        rw [pointAt, Nat.zero_mul, List.drop_zero, List.flatten_cons, ← hpoint,
          List.take_left]
      have hlater : pointAt ndims (point :: points).flatten ∘ Nat.succ =
          pointAt ndims points.flatten := by
        funext i
        rw [Function.comp_apply, pointAt, pointAt, List.flatten_cons, Nat.succ_mul,
          Nat.add_comm, ← List.drop_drop, ← hpoint, List.drop_left]
      rw [List.length_cons, List.range_succ_eq_map, List.map_cons, List.map_map, hfirst, hlater,
        ih hpoints]

theorem pointAt_mem (hpoints : ∀ point ∈ points, point.length = ndims) {i : Nat}
    (hi : i < points.length) : pointAt ndims points.flatten i ∈ points := by
  have hmem := List.mem_map_of_mem (f := pointAt ndims points.flatten) (List.mem_range.mpr hi)
  rwa [map_pointAt hpoints] at hmem

theorem printedText_unchecked (limit : Nat) (texts : List Text) :
    printedText (texts.map (.unchecked limit)) = texts.flatten := by
  rw [printedText, List.flatMap_map, List.flatten_eq_flatMap]
  rfl

/-- A point is printed as its text, behind a comma unless it is the first. -/
theorem printedText_pointSteps (pointList : List Nat) (i : Nat) :
    printedText (pointSteps ndims pointList i) =
      (if i > 0 then [','] else []) ++ pointText ndims (pointAt ndims pointList i) := by
  rw [pointSteps, pointText]
  simp only [printedText_append, printedText_unchecked, flatten_commaTexts]
  split <;> split <;> simp [PrintStep.text]

/-- The room that is reserved for a point is enough. -/
theorem length_pointSteps_lt (hndims : 0 < ndims) {pointList : List Nat} {i : Nat}
    (hlen : (pointAt ndims pointList i).length = ndims)
    (hvalues : ∀ x ∈ pointAt ndims pointList i, x < 2 ^ 64) :
    (printedText (pointSteps ndims pointList i)).length < pointRoom ndims := by
  have hne : pointAt ndims pointList i ≠ [] := List.ne_nil_of_length_pos (by omega)
  have hbody := length_commaTexts_lt hvalues hne
  rw [flatten_commaTexts, hlen] at hbody
  rw [printedText_pointSteps, pointText, pointRoom]
  have hcomma : (if i > 0 then [','] else ([] : Text)).length ≤ 1 := by split <;> simp
  by_cases hmany : ndims > 1
  · simp only [if_pos hmany, List.length_append, List.length_cons, List.length_nil]
    omega
  · simp only [if_neg hmany, List.length_append]
    omega

theorem prints_pointSteps (hndims : 0 < ndims) {pointList : List Nat} {i : Nat}
    (hvalues : ∀ x ∈ pointAt ndims pointList i, x < 2 ^ 64) :
    ∀ step ∈ pointSteps ndims pointList i, step.Prints := by
  have hlimit : maxNumLength + 1 < pointRoom ndims := by
    rw [pointRoom, maxNumLength]
    split <;> omega
  intro step hstep
  rw [pointSteps] at hstep
  simp only [List.mem_append, List.mem_map] at hstep
  rcases hstep with hstep | hstep | ⟨text, htext, rfl⟩ | hstep
  · split at hstep
    · rw [List.mem_singleton.mp hstep]
      trivial
    · cases hstep
  · split at hstep
    · rw [List.mem_singleton.mp hstep]
      trivial
    · cases hstep
  · exact Nat.lt_of_le_of_lt (length_text_le hvalues htext) hlimit
  · split at hstep
    · rw [List.mem_singleton.mp hstep]
      trivial
    · cases hstep

/-- The texts of the points, with commas between them. -/
theorem flatMap_pointSteps (hne : points ≠ []) (hpoints : ∀ point ∈ points, point.length = ndims) :
    ((List.range points.length).flatMap fun i =>
        printedText (pointSteps ndims points.flatten i)) =
      [','].intercalate (points.map (pointText ndims)) := by
  have hcomma (text : Nat → Text) (n : Nat) :
      ((List.range (n + 1)).flatMap fun i => (if i > 0 then [','] else []) ++ text i) =
        [','].intercalate ((List.range (n + 1)).map text) := by
    rw [List.range_succ_eq_map, List.flatMap_cons, List.map_cons, intercalate_comma_cons,
      List.flatMap_map, List.map_map, List.flatMap_map]
    rfl
  obtain ⟨n, hn⟩ := Nat.exists_eq_add_one.mpr (List.length_pos_iff.mpr hne)
  simp only [printedText_pointSteps]
  rw [hn, hcomma fun i => pointText ndims (pointAt ndims points.flatten i), ← hn,
    ← Function.comp_def, ← List.map_map, map_pointAt hpoints]

/-- The points are printed into the buffer, which grows as it has to. -/
theorem convertPoints_eq (hndims : 0 < ndims) (hne : points ≠ [])
    (hinside : ∀ point ∈ points, point.length = ndims ∧ ∀ x ∈ point, x < 2 ^ 64) :
    ∃ b, convertPoints ndims points.length points.flatten = .ok b ∧ b.Whole ∧
      b.text = lit "\"points\": [" ++ ([','].intercalate (points.map (pointText ndims)) ++ [']']) ∧
        b.text.length < b.nalloc := by
  have hpoints : ∀ point ∈ points, point.length = ndims := fun point h => (hinside point h).1
  obtain ⟨key, hkey, hkeyWhole, hkeyText, hkeySize⟩ :=
    @printAll_room (.empty selectionStringDefaultSize) [.strncat (lit "\"points\": [")]
      ((lit "\"points\": [").length + 1) (by simp [PrintStep.Prints]) ⟨rfl, rfl⟩ (by decide)
      (by simp [PrintStep.text])
  obtain ⟨list, hlist, hlistWhole, hlistText, hlistSize⟩ :=
    @printAll_rooms key Nat (pointRoom ndims) (pointSteps ndims points.flatten)
      (List.range points.length) (fun i hi => by
        obtain ⟨hlen, hvalues⟩ := hinside _ (pointAt_mem hpoints (List.mem_range.mp hi))
        exact ⟨prints_pointSteps hndims hvalues, length_pointSteps_lt hndims hlen hvalues⟩)
      hkeyWhole hkeySize
  obtain ⟨b, hb, hwhole, htext, hsize⟩ :=
    @printAll_room list [.strncat [']']] 2 (by simp [PrintStep.Prints]) hlistWhole hlistSize
      (by simp [PrintStep.text])
  refine ⟨b, ?_, hwhole, ?_, hsize⟩
  · rw [convertPoints, if_neg hndims.ne']
    rw [printAll_append, hkey, Outcome.ok_bind, printAll_append, hlist, Outcome.ok_bind, hb]
  · rw [htext, hlistText, hkeyText, flatMap_pointSteps hne hpoints]
    simp [Printed.empty, PrintStep.text]

/-- A text in braces. -/
def braced (text : Text) : Text := '{' :: (text ++ ['}'])

/-- A brace before a text that was shifted behind it. -/
theorem read_shifted (memory : Memory Char) (text : Text) :
    ((memory.write 1 (text ++ [nul])).write 0 ['{']).read 0 (1 + text.length) = '{' :: text := by
  have hbrace : ((memory.write 1 (text ++ [nul])).write 0 ['{']).read 0 1 = ['{'] :=
    Memory.read_write_self ['{']
  have htext : ((memory.write 1 (text ++ [nul])).write 0 ['{']).read (0 + 1) text.length =
      text := by
    rw [Memory.read_write_of_ge (by simp), Memory.write_append, Memory.read_write_of_le (by omega)]
    exact Memory.read_write_self text
  rw [Memory.read_append, hbrace, htext]
  rfl

/-- The text is shifted and put into braces inside the buffer of the new size. -/
theorem encloseSelection_eq {b : Printed} (hb : b.Whole) (rest : Memory Char) :
    ∃ body, encloseSelection (bufferOf b rest) b.pos = .ok (body, (braced b.text).length) ∧
      body.load 0 ((braced b.text).length + 1) = .ok (braced b.text ++ [nul]) := by
  have hlen : (b.text ++ [nul]).length = b.pos + 1 := by rw [hb.pos]; simp
  have hbraced : (braced b.text).length = b.pos + 2 := by rw [hb.pos]; simp [braced]
  have hload : (rest.write 0 (b.text ++ [nul])).read 0 (b.pos + 1) = b.text ++ [nul] := by
    rw [← hlen]
    exact Memory.read_write_self _
  -- the stores, each inside the buffer
  have hinside {start : Nat} {bytes : Memory Char} {c : Char} (h : start < b.pos + 3) :
      Buffer.Within ⟨bytes, b.pos + 3⟩ start [c].length := Or.inr h
  have henclosed : encloseSelection (bufferOf b rest) b.pos =
      .ok (⟨((((rest.write 0 (b.text ++ [nul])).write 1 (b.text ++ [nul])).write 0 ['{']).write
        (b.pos + 1) ['}']).write (b.pos + 2) [nul], b.pos + 3⟩, b.pos + 2) := by
    rw [encloseSelection, Buffer.load_of_within (Or.inr (by simp only; omega)), bufferOf, hload,
      Outcome.ok_bind, Buffer.store_of_within (Or.inr (by simp only [hlen]; omega)),
      Outcome.ok_bind, Buffer.store_of_within (hinside (by omega)), Outcome.ok_bind,
      Buffer.store_of_within (hinside (by omega)), Outcome.ok_bind,
      Buffer.store_of_within (hinside (by omega)), Outcome.ok_bind]
  have hopen := read_shifted (rest.write 0 (b.text ++ [nul])) b.text
  rw [← hb.pos] at hopen
  -- the last two stores are one
  have hclose := @Memory.write_append Char
    (((rest.write 0 (b.text ++ [nul])).write 1 (b.text ++ [nul])).write 0 ['{']) (b.pos + 1) ['}']
    [nul]
  have hend := @Memory.read_write_self Char
    (((rest.write 0 (b.text ++ [nul])).write 1 (b.text ++ [nul])).write 0 ['{']) (b.pos + 1)
    (['}'] ++ [nul])
  rw [List.length_singleton, Nat.add_assoc] at hclose
  rw [show (['}'] ++ [nul]).length = 2 from rfl] at hend
  refine ⟨_, hbraced ▸ henclosed, ?_⟩
  rw [Buffer.load_of_within (Or.inr (by simp only [hbraced]; omega)), hbraced, ← hclose,
    show b.pos + 2 + 1 = 1 + b.pos + 2 by omega, Memory.read_append,
    Memory.read_write_of_le (by omega), hopen, Nat.zero_add, Nat.add_comm 1, hend, braced]
  simp

/-- A point is printed as its value. -/
theorem render_pointValue (hndims : 0 < ndims) {point : List Nat} (hlen : point.length = ndims) :
    (pointValue ndims point).render = pointText ndims point := by
  rw [pointValue, pointText]
  by_cases hmany : ndims > 1
  · simp only [if_pos hmany, numbers, Json.render, Json.renderItems_numbers, List.cons_append]
  · obtain ⟨x, rfl⟩ := List.length_eq_one_iff.mp (show point.length = 1 by omega)
    simp [hmany, Json.render, List.intercalate]

/-- What is printed for the points, in braces, is their value. -/
theorem braced_points (hndims : 0 < ndims) (hpoints : ∀ point ∈ points, point.length = ndims) :
    braced (lit "\"points\": [" ++ ([','].intercalate (points.map (pointText ndims)) ++ [']'])) =
      (Json.object [] [' '] [(lit "points",
        .array [] (points.map (pointValue ndims)))]).render := by
  have hitems : Json.renderItems (points.map (pointValue ndims)) =
      points.map (pointText ndims) := by
    rw [Json.renderItems_eq_map, List.map_map]
    exact List.map_congr_left fun point hpoint => render_pointValue hndims (hpoints point hpoint)
  have hkey : lit "\"points\": [" = quoted (lit "points") ++ [':', ' ', '['] := by
    repeat rw [lit_ofList]
    rfl
  rw [Json.render, Json.renderMembers, Json.renderMembers, Json.render, hitems, braced, hkey]
  simp [List.intercalate]

theorem plain_pointValue (ndims : Nat) (point : List Nat) : (pointValue ndims point).Plain := by
  rw [pointValue]
  split
  · exact plain_numbers point
  · rw [Json.Plain]
    trivial

theorem value_pointValue (ndims : Nat) (point : List Nat) :
    (pointValue ndims point).value = pointValue ndims point := by
  rw [pointValue]
  split
  · exact value_numbers point
  · rw [Json.value]

end Points

/-- With the bounds left out, the points are converted to the same text. -/
theorem PointSelection.rvConvert (s : PointSelection) :
    ∃ b, convertPoints s.ndims s.points.length s.points.flatten = .ok b ∧
      rvConvertDataspaceSelectionToString s.ndims (.points s.points) false = some b.text := by
  obtain ⟨b, hb, -, htext, -⟩ := convertPoints_eq s.ndims_pos s.points_ne_nil s.inside
  refine ⟨b, hb, ?_⟩
  rw [rvConvertDataspaceSelectionToString, if_neg s.ndims_pos.ne', if_neg Bool.false_ne_true, htext]
  unfold lit
  rw [List.append_assoc]

/-- The indices that a start, a stop and a step describe. -/
def steppedIndices (start stop step : Nat) : List Nat :=
  (List.range stop).filter fun x => start ≤ x ∧ (x - start) % step = 0

/-- The body in braces is JSON, and its arrays have an entry for every dimension, which describes
the selected elements. Every store has a defined result. -/
def EncodesHyperslab (slabs : List Slab) : Prop :=
  ∃ b starts stops steps, convertHyperslab slabs = .ok b ∧ JsonText (braced b.text) ∧
    Json.readJson (braced b.text) = some (.object [] [] [(lit "start", numbers starts),
      (lit "stop", numbers stops), (lit "step", numbers steps)]) ∧
    starts.length = slabs.length ∧ stops.length = slabs.length ∧ steps.length = slabs.length ∧
      List.zipWith3 steppedIndices starts stops steps = slabs.map Slab.indices

section Hyperslabs

variable {slabs : List Slab} {b : Printed}

/-- The body of one array: its opening brackets, the values with commas between them, and the
closing bracket. -/
def slabBody (opening : Nat) (values : List Nat) : Text :=
  List.replicate opening '[' ++ ([','].intercalate (values.map decimal) ++ [']'])

/-- The opening brackets leave room. -/
theorem printAll_opening {bodySize opening : Nat} (h : opening < bodySize) :
    ∃ c, printAll (List.replicate opening (.strncat ['['])) (.empty bodySize) = .ok c ∧ c.Whole ∧
      c.text = List.replicate opening '[' ∧ c.pos = opening ∧ c.nalloc = bodySize := by
  have hprinted : printedText (List.replicate opening (.strncat ['['])) =
      List.replicate opening '[' := by
    induction opening with
    | zero => rfl
    | succ opening ih =>
        rw [List.replicate_succ, printedText_cons, ih (by omega), List.replicate_succ]
        rfl
  obtain ⟨c, hc, hwhole, htext, hsize⟩ := @printAll_prints (.empty bodySize)
    (List.replicate opening (.strncat ['['])) (fun step hstep => by
      rw [List.eq_of_mem_replicate hstep]
      trivial) ⟨rfl, rfl⟩ (by
      rw [hprinted, List.length_replicate]
      exact (Nat.zero_add opening).symm ▸ h)
  rw [hprinted] at htext
  have htext : c.text = List.replicate opening '[' := htext
  exact ⟨c, hc, hwhole, htext, by rw [hwhole.pos, htext, List.length_replicate], hsize⟩

/-- A body is printed exactly when it and its NUL fit. -/
theorem slabBody_iff {bodySize opening : Nat} {values : List Nat} (h : opening < bodySize) :
    (∃ c, printAll (slabBodySteps bodySize opening values) (.empty bodySize) = .ok c) ↔
      (slabBody opening values).length < bodySize := by
  obtain ⟨c, hc, hwhole, htext, hpos, hsize⟩ := printAll_opening h
  have hlimited : limited bodySize opening (commaTexts values) =
      limited c.nalloc c.pos (commaTexts values) := by rw [hpos, hsize]
  have hlen : (slabBody opening values).length =
      c.pos + ((commaTexts values).flatten ++ [']']).length := by
    rw [slabBody, flatten_commaTexts, List.length_append, List.length_replicate, hpos]
  rw [slabBodySteps, printAll_append, hc, Outcome.ok_bind, hlimited, hlen, ← hsize]
  constructor
  · rintro ⟨d, hd⟩
    exact lt_of_printAll_limited hd
  · intro hroom
    obtain ⟨d, hd, -⟩ := printAll_limited hwhole hroom
    exact ⟨d, hd⟩

theorem text_slabBody {bodySize opening : Nat} {values : List Nat} (h : opening < bodySize)
    (hb : printAll (slabBodySteps bodySize opening values) (.empty bodySize) = .ok b) :
    b.text = slabBody opening values := by
  obtain ⟨c, hc, hwhole, htext, hpos, hsize⟩ := printAll_opening h
  rw [slabBodySteps, printAll_append, hc, Outcome.ok_bind, ← hpos, ← hsize] at hb
  obtain ⟨d, hd, -, hprinted⟩ := printAll_limited hwhole (lt_of_printAll_limited hb)
  obtain rfl := Outcome.ok.inj (hd.symm.trans hb)
  rw [hprinted, htext, flatten_commaTexts, slabBody]

/-- The three bodies of a hyperslab. -/
def startsBody (slabs : List Slab) : Text := slabBody 1 (slabs.map Slab.start)

/-- The stops stand behind two brackets. -/
def stopsBody (slabs : List Slab) : Text := slabBody 2 (slabs.map Slab.stop)

/-- The steps stand behind none. -/
def stepsBody (slabs : List Slab) : Text := slabBody 0 (slabs.map Slab.step)

/-- The bodies fit into their buffers, and what is printed of them into the one that was reserved
for less. -/
def HyperslabFits (slabs : List Slab) : Prop :=
  let bodySize := slabs.length * maxNumLength + slabs.length
  let room := (startsBody slabs).length + (stopsBody slabs).length + (stepsBody slabs).length + 1
  (startsBody slabs).length < bodySize ∧ (stopsBody slabs).length < bodySize ∧
    (stepsBody slabs).length < bodySize ∧
      (slabFormat (startsBody slabs) (stopsBody slabs) (stepsBody slabs)).length <
        doubled selectionStringDefaultSize room room

theorem bracket_lt_bodySize {opening : Nat} (hne : slabs ≠ []) (h : opening ≤ 2) :
    opening < slabs.length * maxNumLength + slabs.length := by
  have hpos := List.length_pos_iff.mpr hne
  rw [maxNumLength]
  omega

/-- The last print, behind the bodies. -/
theorem printAll_slabFormat {startBody stopBody stepBody : Text} {c : Printed} :
    printAll [.reserve (startBody.length + stopBody.length + stepBody.length + 1),
        .snprintf (slabFormat startBody stopBody stepBody)]
      (.empty selectionStringDefaultSize) = .ok c ↔
    (slabFormat startBody stopBody stepBody).length <
        doubled selectionStringDefaultSize
          (startBody.length + stopBody.length + stepBody.length + 1)
          (startBody.length + stopBody.length + stepBody.length + 1) ∧
      (Printed.put (slabFormat startBody stopBody stepBody) ⟨[], 0,
        doubled selectionStringDefaultSize
          (startBody.length + stopBody.length + stepBody.length + 1)
          (startBody.length + stopBody.length + stepBody.length + 1), true⟩) = c := by
  rw [printAll, PrintStep.run, Outcome.ok_bind, printAll, PrintStep.run]
  simp only [Printed.empty, Nat.zero_add, Nat.sub_zero]
  split
  · next hle => exact iff_of_false (by rintro ⟨⟩) fun h => Nat.not_le_of_lt h.1 hle
  · next hlt =>
      rw [Outcome.ok_bind, printAll, Outcome.ok.injEq, and_iff_right (Nat.lt_of_not_le hlt)]

/-- The hyperslabs that are printed. -/
theorem convertHyperslab_iff : (∃ b, convertHyperslab slabs = .ok b) ↔ HyperslabFits slabs := by
  by_cases hne : slabs = []
  · subst hne
    exact iff_of_false (fun ⟨b, hb⟩ => by cases hb) fun h => absurd h.1 (Nat.not_lt_zero _)
  · have hstart := @slabBody_iff _ 1 (slabs.map Slab.start)
      (bracket_lt_bodySize hne (by decide))
    have hstop := @slabBody_iff _ 2 (slabs.map Slab.stop) (bracket_lt_bodySize hne (by decide))
    have hstep := @slabBody_iff _ 0 (slabs.map Slab.step) (bracket_lt_bodySize hne (by decide))
    rw [convertHyperslab, if_neg (by simpa using hne), HyperslabFits, startsBody, stopsBody,
      stepsBody, ← hstart, ← hstop, ← hstep]
    dsimp only
    constructor
    · rintro ⟨b, hb⟩
      obtain ⟨start, hstart, hb⟩ := Outcome.bind_eq_ok_iff.mp hb
      obtain ⟨stop, hstop, hb⟩ := Outcome.bind_eq_ok_iff.mp hb
      obtain ⟨step, hstep, hb⟩ := Outcome.bind_eq_ok_iff.mp hb
      rw [text_slabBody (bracket_lt_bodySize hne (by decide)) hstart,
        text_slabBody (bracket_lt_bodySize hne (by decide)) hstop,
        text_slabBody (bracket_lt_bodySize hne (by decide)) hstep] at hb
      exact ⟨⟨start, hstart⟩, ⟨stop, hstop⟩, ⟨step, hstep⟩, (printAll_slabFormat.mp hb).1⟩
    · rintro ⟨⟨start, hstart⟩, ⟨stop, hstop⟩, ⟨step, hstep⟩, hroom⟩
      rw [hstart, Outcome.ok_bind, hstop, Outcome.ok_bind, hstep, Outcome.ok_bind,
        text_slabBody (bracket_lt_bodySize hne (by decide)) hstart,
        text_slabBody (bracket_lt_bodySize hne (by decide)) hstop,
        text_slabBody (bracket_lt_bodySize hne (by decide)) hstep]
      exact ⟨_, printAll_slabFormat.mpr ⟨hroom, rfl⟩⟩

/-- What is printed for a hyperslab. -/
theorem text_convertHyperslab (h : convertHyperslab slabs = .ok b) :
    b.text = slabFormat (startsBody slabs) (stopsBody slabs) (stepsBody slabs) := by
  by_cases hne : slabs = []
  · subst hne
    cases h
  · rw [convertHyperslab, if_neg (by simpa using hne)] at h
    obtain ⟨start, hstart, h⟩ := Outcome.bind_eq_ok_iff.mp h
    obtain ⟨stop, hstop, h⟩ := Outcome.bind_eq_ok_iff.mp h
    obtain ⟨step, hstep, h⟩ := Outcome.bind_eq_ok_iff.mp h
    rw [text_slabBody (bracket_lt_bodySize hne (by decide)) hstart,
      text_slabBody (bracket_lt_bodySize hne (by decide)) hstop,
      text_slabBody (bracket_lt_bodySize hne (by decide)) hstep] at h
    rw [← (printAll_slabFormat.mp h).2]
    rfl

/-- With the bounds left out, the hyperslab is converted to the same text. -/
theorem rvConvert_of_convertHyperslab (h : convertHyperslab slabs = .ok b) :
    rvConvertDataspaceSelectionToString slabs.length (.hyperslab slabs) false = some b.text := by
  have hfits := convertHyperslab_iff.mp ⟨b, h⟩
  have hne : slabs.length ≠ 0 := fun hzero => by
    rw [List.length_eq_zero_iff.mp hzero] at h
    cases h
  have hbodies : slabBodies slabs = (startsBody slabs, stopsBody slabs, stepsBody slabs) := by
    rw [slabBodies, startsBody, stopsBody, stepsBody, slabBody, slabBody, slabBody, List.map_map,
      List.map_map, List.map_map]
    rfl
  have htext : "\"start\": ".toList ++ startsBody slabs ++ ",\"stop\": ".toList ++
      stopsBody slabs ++ ",\"step\": ".toList ++ stepsBody slabs = b.text := by
    rw [text_convertHyperslab h, slabFormat]
    unfold lit
    simp only [List.append_assoc]
  have hroom := hfits.2.2.2
  rw [← text_convertHyperslab h] at hroom
  rw [rvConvertDataspaceSelectionToString, if_neg hne, if_neg Bool.false_ne_true]
  simp only [hbodies, htext]
  exact if_neg (Nat.not_le_of_lt hroom)

/-- Behind the steps' key the array of the stops is still open. -/
theorem not_jsonText_slabFormat (slabs : List Slab) :
    ¬ JsonText (braced (slabFormat (startsBody slabs) (stopsBody slabs) (stepsBody slabs))) := by
  have hquiet (values : List Nat) : ∀ c ∈ [','].intercalate (values.map decimal),
      Nesting.IsQuiet c := by
    intro c hc
    rcases mem_intercalate hc with rfl | ⟨word, hword, hc⟩
    · decide
    · obtain ⟨value, -, rfl⟩ := List.mem_map.mp hword
      exact Nesting.isQuiet_of_isWord (.inl (isDigit_of_mem_decimal hc))
  have hsplit : braced (slabFormat (startsBody slabs) (stopsBody slabs) (stepsBody slabs)) =
      (lit "\x7b\"start\": [" ++ ([','].intercalate ((slabs.map Slab.start).map decimal) ++
        (lit "],\"stop\": [[" ++ ([','].intercalate ((slabs.map Slab.stop).map decimal) ++
          lit "],\"step\"")))) ++ ':' :: (' ' :: (stepsBody slabs ++ ['}'])) := by
    rw [braced, slabFormat, startsBody, stopsBody, slabBody, slabBody]
    repeat rw [lit_ofList]
    simp
  have hstart : Nesting.run ⟨none, [], true⟩ (lit "\x7b\"start\": [") =
      ⟨none, [false, true], true⟩ := by
    rw [lit_ofList]
    decide
  have hstop : Nesting.run ⟨none, [false, true], true⟩ (lit "],\"stop\": [[") =
      ⟨none, [false, false, true], true⟩ := by
    rw [lit_ofList]
    decide
  have hstep : Nesting.run ⟨none, [false, false, true], true⟩ (lit "],\"step\"") =
      ⟨none, [false, true], true⟩ := by
    rw [lit_ofList]
    decide
  rw [hsplit]
  apply @Nesting.not_jsonText _ _ [true]
  rw [Nesting.run_append, hstart, Nesting.run_append, Nesting.run_quiet (hquiet _),
    Nesting.run_append, hstop, Nesting.run_append, Nesting.run_quiet (hquiet _), hstep]

end Hyperslabs

/-- No hyperslab is encoded: what is printed is never JSON. -/
theorem not_encodesHyperslab (slabs : List Slab) : ¬ EncodesHyperslab slabs := by
  rintro ⟨b, starts, stops, steps, hb, hjson, -⟩
  rw [text_convertHyperslab hb] at hjson
  exact not_jsonText_slabFormat slabs hjson

/-- The first element of a vector is printed as `"start": [0],"stop": [[1],"step": 1]`. -/
theorem not_encodesHyperslab_first :
    ¬ EncodesHyperslab [.range 0 1 (by decide)] := by
  rintro ⟨b, starts, stops, steps, hb, hjson, -⟩
  rw [text_convertHyperslab hb] at hjson
  exact not_jsonText_slabFormat _ hjson

end XHDF5.Client
