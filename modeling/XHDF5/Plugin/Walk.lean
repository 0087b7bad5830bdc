/-
# The walk over the tokens of a document

The dataset creation sees three things of a token: its type, its text and its size. For a document
these can be read off from the document, so the walk over its tokens is a walk over a list, in which
runs of tokens that name none of the keys are passed over two at a time.
-/

import XHDF5.Plugin.Create
import XHDF5.Plugin.Tokens

namespace XHDF5.Plugin

open XHDF5.Math XHDF5.Client

/-! ## Views -/

/-- What the walk sees of a token. -/
structure View where
  type : JsmnType
  text : Text
  size : Nat
deriving DecidableEq

/-- A token of the text. -/
def JsmnTok.view (text : Text) (token : JsmnTok) : View :=
  ⟨token.type, tokenText text token, token.size⟩

end XHDF5.Plugin

namespace XHDF5.Math.Doc

open XHDF5.Plugin XHDF5.Client

mutual

/-- What the walk sees of a document. -/
def views : Doc → List View
  | .string text => [⟨.string, text, 0⟩]
  | .word text => [⟨.primitive, text, 0⟩]
  | .array items close =>
      ⟨.array, (Doc.array items close).render, items.length⟩ :: viewsItems items
  | .object members close =>
      ⟨.object, (Doc.object members close).render, members.length⟩ :: viewsMembers members

/-- What the walk sees of items. -/
def viewsItems : List (Text × Doc) → List View
  | [] => []
  | (_, x) :: items => x.views ++ viewsItems items

/-- What the walk sees of members. -/
def viewsMembers : List (Text × Text × Text × Doc) → List View
  | [] => []
  | (_, key, _, x) :: members => ⟨.string, key, 1⟩ :: (x.views ++ viewsMembers members)

end

theorem viewsMembers_append (members more : List (Text × Text × Text × Doc)) :
    viewsMembers (members ++ more) = viewsMembers members ++ viewsMembers more := by
  induction members with
  | nil => rfl
  | cons member members ih =>
      cases member with
      | mk gap tail => simp only [List.cons_append, viewsMembers, ih, List.append_assoc]

end XHDF5.Math.Doc

namespace XHDF5.Plugin

open XHDF5.Math XHDF5.Client

theorem tokenText_middle (pre middle post : Text) (type : JsmnType) (size : Nat) :
    tokenText (pre ++ (middle ++ post)) ⟨type, pre.length, some (pre.length + middle.length), size⟩ =
      middle := by
  unfold tokenText
  rw [List.drop_left, Option.getD_some, Nat.add_sub_cancel_left, List.take_left]

end XHDF5.Plugin

namespace XHDF5.Math.Doc

open XHDF5.Plugin XHDF5.Client

mutual

/-- The views of the tokens of a document inside a text. -/
theorem map_view_tokens : ∀ (x : Doc) (pre post : Text),
    (x.tokens pre.length).map (JsmnTok.view (pre ++ (x.render ++ post))) = x.views
  | .string text, pre, post => by
      have htext := tokenText_middle (pre ++ ['"']) text ('"' :: post) .string 0
      simp only [List.length_append, List.length_singleton, List.append_assoc,
        List.singleton_append] at htext
      simp [tokens, render, JsmnTok.view, views, htext]
  | .word text, pre, post => by
      simp [tokens, render, JsmnTok.view, views, tokenText_middle]
  | .array items close, pre, post => by
      have hitems := map_view_tokensItems items (pre ++ ['[']) (close ++ ']' :: post)
      have htext : pre ++ ['['] ++ (renderItems items ++ (close ++ ']' :: post)) =
          pre ++ ((Doc.array items close).render ++ post) := by
        simp [render]
      rw [htext, List.length_append, List.length_singleton] at hitems
      rw [tokens, List.map_cons, hitems, JsmnTok.view, tokenText_middle, views]
  | .object members close, pre, post => by
      have hmembers := map_view_tokensMembers members (pre ++ ['{']) (close ++ '}' :: post)
      have htext : pre ++ ['{'] ++ (renderMembers members ++ (close ++ '}' :: post)) =
          pre ++ ((Doc.object members close).render ++ post) := by
        simp [render]
      rw [htext, List.length_append, List.length_singleton] at hmembers
      rw [tokens, List.map_cons, hmembers, JsmnTok.view, tokenText_middle, views]

/-- The views of the tokens of items inside a text. -/
theorem map_view_tokensItems : ∀ (items : List (Text × Doc)) (pre post : Text),
    (tokensItems pre.length items).map (JsmnTok.view (pre ++ (renderItems items ++ post))) =
      viewsItems items
  | [], _, _ => rfl
  | (gap, x) :: items, pre, post => by
      have hx := map_view_tokens x (pre ++ gap) (renderItems items ++ post)
      have hitems := map_view_tokensItems items (pre ++ gap ++ x.render) post
      have htext : pre ++ gap ++ (x.render ++ (renderItems items ++ post)) =
          pre ++ (renderItems ((gap, x) :: items) ++ post) := by
        simp [renderItems]
      have htext' : pre ++ gap ++ x.render ++ (renderItems items ++ post) =
          pre ++ (renderItems ((gap, x) :: items) ++ post) := by
        simp [renderItems]
      rw [htext, List.length_append] at hx
      rw [htext', List.length_append, List.length_append] at hitems
      rw [tokensItems, List.map_append, hx, hitems, viewsItems]

/-- The views of the tokens of members inside a text. -/
theorem map_view_tokensMembers : ∀ (members : List (Text × Text × Text × Doc)) (pre post : Text),
    (tokensMembers pre.length members).map (JsmnTok.view (pre ++ (renderMembers members ++ post))) =
      viewsMembers members
  | [], _, _ => rfl
  | (gap, key, colon, x) :: members, pre, post => by
      let named := pre ++ gap ++ '"' :: (key ++ '"' :: ':' :: colon)
      have hnamed : named.length = pre.length + gap.length + key.length + 3 + colon.length := by
        simp only [named, List.length_append, List.length_cons]
        omega
      have hkey := tokenText_middle (pre ++ gap ++ ['"']) key
        ('"' :: ':' :: (colon ++ (x.render ++ renderMembers members)) ++ post) .string 1
      have hx := map_view_tokens x named (renderMembers members ++ post)
      have hmembers := map_view_tokensMembers members (named ++ x.render) post
      have htext : pre ++ gap ++ ['"'] ++ (key ++ ('"' :: ':' :: (colon ++ (x.render ++
          renderMembers members)) ++ post)) =
            pre ++ (renderMembers ((gap, key, colon, x) :: members) ++ post) := by
        simp [renderMembers]
      have htextValue : named ++ (x.render ++ (renderMembers members ++ post)) =
          pre ++ (renderMembers ((gap, key, colon, x) :: members) ++ post) := by
        simp [renderMembers, named]
      have htextLater : named ++ x.render ++ (renderMembers members ++ post) =
          pre ++ (renderMembers ((gap, key, colon, x) :: members) ++ post) := by
        simp [renderMembers, named]
      rw [htext] at hkey
      rw [htextValue, hnamed] at hx
      rw [htextLater, List.length_append, hnamed] at hmembers
      simp only [List.length_append, List.length_singleton] at hkey
      rw [tokensMembers, List.map_cons, List.map_append, hx, hmembers, JsmnTok.view, viewsMembers]
      simp only [hkey]

end

/-- The views of the tokens of a text. -/
theorem map_view_tokens_zero (x : Doc) : (x.tokens 0).map (JsmnTok.view x.render) = x.views := by
  have h := map_view_tokens x [] []
  rwa [List.nil_append, List.append_nil] at h

end XHDF5.Math.Doc

namespace XHDF5.Plugin

open XHDF5.Math XHDF5.Client
/-! ## The walk -/

/-- The numbers in the texts of so many views. -/
def numbers : Nat → List View → Option (List Int)
  | 0, _ => some []
  | _ + 1, [] => none
  | count + 1, v :: rest =>
      (stoi v.text).bind fun number => (numbers count rest).bind fun later => some (number :: later)

/-- The walk over views. -/
def walkViews : List View → Found → Option Found
  | [], found => some found
  | [key], found =>
      if key.type = .string ∧ key.text ∈ [lit "name", lit "shape", lit "base"] then none
      else some found
  | key :: value :: rest, found =>
      if key.type = .string ∧ key.text = lit "name" then
        walkViews rest { found with h5path := value.text }
      else if key.type = .string ∧ key.text = lit "shape" then
        if value.type ≠ .array then walkViews (value :: rest) found
        else
          (numbers value.size rest).bind fun sizes =>
            walkViews rest { found with rank := value.size, shape := found.shape ++ sizes }
      else if key.type = .string ∧ key.text = lit "base" then
        walkViews rest { found with baseType := value.text }
      else walkViews rest found

theorem numbers_eq_mapM (text : Text) (t : List JsmnTok) (count i : Nat) :
    ((List.range count).mapM fun j => t[i + j]?.bind fun g => stoi (tokenText text g)) =
      numbers count ((t.drop i).map (JsmnTok.view text)) := by
  induction count generalizing i with
  | zero => rfl
  | succ count ih =>
      have hlater (j : Nat) : t[i + (j + 1)]? = t[i + 1 + j]? := by
        congr 1
        omega
      rw [List.range_succ_eq_map, List.mapM_cons, List.mapM_map]
      simp only [Function.comp_def, Nat.succ_eq_add_one, hlater, ih (i + 1), Nat.add_zero]
      by_cases hi : i < t.length
      · rw [List.drop_eq_getElem_cons hi, List.getElem?_eq_getElem hi]
        rfl
      · rw [List.drop_eq_nil_of_le (Nat.le_of_not_lt hi), List.getElem?_eq_none
          (Nat.le_of_not_lt hi)]
        rfl

/-- The loop over the tokens is the walk over their views. -/
theorem walkTokens_eq (text : Text) (t : List JsmnTok) {rounds i : Nat} (found : Found)
    (hrounds : t.length ≤ i + rounds) :
    walkTokens text t rounds i found = walkViews ((t.drop i).map (JsmnTok.view text)) found := by
  induction rounds generalizing i found with
  | zero =>
      rw [List.drop_eq_nil_of_le (by simpa using hrounds)]
      rfl
  | succ rounds ih =>
      rw [walkTokens]
      by_cases hi : i < t.length
      · have hjump (jump : Nat) (hjump : 0 < jump) (found : Found) :
            walkTokens text t rounds (i + jump) found =
              walkViews ((t.drop (i + jump)).map (JsmnTok.view text)) found := by
          apply ih
          omega
        have htwo := hjump 2 Nat.two_pos
        rw [List.getElem?_eq_getElem hi, List.drop_eq_getElem_cons hi]
        by_cases hnext : i + 1 < t.length
        · rw [List.drop_eq_getElem_cons hnext, List.map_cons, List.map_cons, walkViews]
          simp only [jsoneq, decide_eq_true_eq, JsmnTok.view, List.getElem?_eq_getElem hnext,
            Option.bind_some, htwo, Nat.add_assoc, Nat.reduceAdd]
          split
          · rfl
          · split
            · split
              · rw [hjump 1 Nat.one_pos, List.drop_eq_getElem_cons hnext]
                rfl
              · have hsizes := numbers_eq_mapM text t t[i + 1].size (i + 2)
                simp only [Nat.add_right_comm i _ 2, ← Nat.add_assoc] at hsizes ⊢
                rw [hsizes]
            · rfl
        · have hend : t[i + 1]? = none := List.getElem?_eq_none (Nat.le_of_not_lt hnext)
          have htwo' : t.drop (i + 2) = [] := List.drop_eq_nil_of_le (by omega)
          rw [List.drop_eq_nil_of_le (Nat.le_of_not_lt hnext), List.map_singleton, walkViews]
          simp only [jsoneq, decide_eq_true_eq, JsmnTok.view, hend, Option.bind_none, htwo found,
            htwo', List.map_nil, walkViews, List.mem_cons, List.not_mem_nil, or_false]
          split_ifs <;> simp_all
      · rw [List.getElem?_eq_none (Nat.le_of_not_lt hi),
          List.drop_eq_nil_of_le (Nat.le_of_not_lt hi)]
        rfl

/-- Neither of the keys that the walk looks for. -/
def NamesNoKey (views : List View) : Prop :=
  ∀ v ∈ views, v.type = .string → v.text ∉ [lit "name", lit "shape", lit "base"]

theorem walkViews_cons_cons {key value : View} {rest : List View} (found : Found)
    (hkey : key.type = .string → key.text ∉ [lit "name", lit "shape", lit "base"]) :
    walkViews (key :: value :: rest) found = walkViews rest found := by
  simp only [List.mem_cons, List.not_mem_nil, or_false, not_or] at hkey
  have hname : ¬ (key.type = .string ∧ key.text = lit "name") := fun h => (hkey h.1).1 h.2
  have hshape : ¬ (key.type = .string ∧ key.text = lit "shape") := fun h => (hkey h.1).2.1 h.2
  have hbase : ¬ (key.type = .string ∧ key.text = lit "base") := fun h => (hkey h.1).2.2 h.2
  rw [walkViews, if_neg hname, if_neg hshape, if_neg hbase]

/-- The walk passes over views that name no key, two at a time. -/
theorem walkViews_append {views : List View} (h : NamesNoKey views) (rest : List View)
    (found : Found) : walkViews (views ++ rest) found =
      walkViews (if views.length % 2 = 0 then rest else rest.drop 1) found := by
  induction views using List.twoStepInduction with
  | nil => rfl
  | singleton key =>
      have hkey := h key (by simp)
      cases rest with
      | nil =>
          rw [List.append_nil, walkViews, if_neg fun hmem => hkey hmem.1 hmem.2]
          rfl
      | cons value rest => exact walkViews_cons_cons found hkey
  | cons_cons key value views ih _ =>
      have hparity : (key :: value :: views).length % 2 = views.length % 2 := by
        simp only [List.length_cons]
        omega
      rw [List.cons_append, List.cons_append, walkViews_cons_cons found (h key (by simp)),
        ih fun v hv => h v (by simp [hv]), hparity]

/-! ## The creation -/

/-- What the creation asks the library for when the walk has found this. -/
def Found.request (found : Found) : Option NewDataset :=
  if found.h5path = [] ∨ found.baseType = [] ∨ found.rank = 0 then none
  else
    (h5basetypeStringToId found.baseType).map fun size =>
      { h5path := found.h5path
        baseType := found.baseType
        size
        dims := (found.shape.map toSize).take found.rank }

/-- The creation from the text of a document. -/
theorem xrdCreateDataset_render {x : Doc} (hx : x.Regular) :
    xrdCreateDataset x.render =
      if x.views.length ≤ maxTokens then
        (walkViews (x.views.drop 1) ⟨[], [], 0, []⟩).map Found.request
      else some none := by
  have hviews := x.map_view_tokens_zero
  have hlength : (x.tokens 0).length = x.views.length := by
    rw [← hviews, List.length_map]
  rw [xrdCreateDataset, jsmnParse_render maxTokens hx, hlength]
  by_cases hroom : x.views.length ≤ maxTokens
  · rw [if_pos hroom, if_pos hroom]
    simp only
    rw [walkTokens_eq x.render (x.tokens 0) _ (by omega), List.map_drop, hviews]
    rfl
  · rw [if_neg hroom, if_neg hroom]

end XHDF5.Plugin
