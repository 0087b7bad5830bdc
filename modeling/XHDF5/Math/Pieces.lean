/-
# A list handed out in pieces

A reader asks for pieces of a list, each time with the most it can take. From the first element on
it gets what is left, as far as it has room. What was handed out is then a front part of the list,
and an empty piece says that the list is at its end.
-/

import Mathlib.Algebra.BigOperators.Group.List.Basic
import Mathlib.Algebra.Order.Ring.Nat

namespace XHDF5.Math

variable {β : Type*}

/-- One piece: how much the reader could take, and what it got. -/
structure Piece (β : Type*) where
  offered : Nat
  copied : List β
deriving DecidableEq

/-- What the pieces hold together. -/
def handed (pieces : List (Piece β)) : List β := (pieces.map Piece.copied).flatten

/-- The pieces are the list from its start on, without gaps or repetitions; no piece is larger
than asked for; and the piece at some place is empty exactly when those before it are the whole
list. -/
structure HandsOut (body : List β) (pieces : List (Piece β)) : Prop where
  handed_eq : handed pieces = body.take (pieces.map Piece.offered).sum
  bounded : ∀ piece ∈ pieces, piece.copied.length ≤ piece.offered
  exhausted : ∀ earlier piece later, pieces = earlier ++ piece :: later →
    (piece.copied = [] ↔ handed earlier = body)

@[simp] theorem handed_append (pieces others : List (Piece β)) :
    handed (pieces ++ others) = handed pieces ++ handed others := by
  simp [handed]

theorem handed_singleton (piece : Piece β) : handed [piece] = piece.copied := by
  simp [handed]

namespace HandsOut

variable {body : List β} {pieces : List (Piece β)}

theorem nil (body : List β) : HandsOut body [] where
  handed_eq := by simp [handed]
  bounded := fun _ h => by cases h
  exhausted earlier piece later h := by
    have hlength := congrArg List.length h
    rw [List.length_append, List.length_cons] at hlength
    exact absurd hlength (Nat.ne_of_lt (Nat.add_pos_right _ (Nat.succ_pos _)))

/-- The whole list is handed out once the reader had room for it. -/
theorem complete (h : HandsOut body pieces) (hroom : body.length ≤ (pieces.map Piece.offered).sum) :
    handed pieces = body := by
  rw [h.handed_eq, List.take_of_length_le hroom]

/-- The whole list is handed out once a piece is empty. -/
theorem complete_of_empty (h : HandsOut body pieces) {piece : Piece β} (hmem : piece ∈ pieces)
    (hempty : piece.copied = []) : handed pieces = body := by
  obtain ⟨earlier, later, hsplit⟩ := List.append_of_mem hmem
  have hearlier := (h.exhausted earlier piece later hsplit).mp hempty
  have hprefixed : handed pieces = body ++ handed later := by
    rw [hsplit, List.append_cons, handed_append, handed_append, handed_singleton, hempty,
      List.append_nil, hearlier]
  have hlength : (handed pieces).length ≤ body.length := by
    rw [h.handed_eq, List.length_take]
    exact Nat.min_le_right _ _
  rw [hprefixed, List.length_append] at hlength
  rw [hprefixed, List.eq_nil_of_length_eq_zero (by omega : (handed later).length = 0),
    List.append_nil]

/-- One more piece: what is left, as far as there is room. -/
theorem snoc (h : HandsOut body pieces) {offered : Nat} (hpos : 0 < offered) :
    HandsOut body (pieces ++ [⟨offered, (body.drop (handed pieces).length).take offered⟩]) where
  handed_eq := by
    rw [handed_append, handed_singleton, List.map_append, List.sum_append, h.handed_eq,
      List.length_take, List.map_singleton, List.sum_singleton]
    rcases Nat.le_total (pieces.map Piece.offered).sum body.length with hle | hle
    · rw [Nat.min_eq_left hle, List.take_add]
    · rw [Nat.min_eq_right hle, List.drop_length, List.take_nil, List.append_nil,
        List.take_of_length_le hle, List.take_of_length_le (by omega)]
  bounded piece hpiece := by
    rcases List.mem_append.mp hpiece with hpiece | hpiece
    · exact h.bounded piece hpiece
    · rw [List.mem_singleton.mp hpiece]
      exact List.length_take_le _ _
  exhausted earlier piece later hsplit := by
    rcases List.eq_nil_or_concat later with rfl | ⟨others, last, rfl⟩
    · obtain ⟨rfl, hlast⟩ := List.append_inj' hsplit rfl
      obtain rfl := (List.singleton_inj.mp hlast)
      constructor
      · intro hempty
        have hlength : ((body.drop (handed pieces).length).take offered).length = 0 :=
          congrArg List.length hempty
        rw [List.length_take, List.length_drop] at hlength
        rw [h.handed_eq]
        apply List.take_of_length_le
        rw [h.handed_eq, List.length_take] at hlength
        omega
      · intro hall
        change (body.drop (handed pieces).length).take offered = []
        rw [hall, List.drop_length, List.take_nil]
    · rw [List.concat_eq_append, ← List.cons_append, ← List.append_assoc] at hsplit
      exact h.exhausted earlier piece others (List.append_inj' hsplit rfl).1

end HandsOut

end XHDF5.Math
