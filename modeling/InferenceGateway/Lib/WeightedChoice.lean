import Mathlib.Algebra.BigOperators.Group.List.Basic
import Mathlib.Algebra.Ring.Nat
import Mathlib.Data.Nat.Count

/-!
# Weighted choice

A number below the sum of the weights falls on the position whose weight covers it.
-/

namespace InferenceGateway.Lib.WeightedChoice

def position : Nat → List Nat → Option Nat
  | _, [] => none
  | number, weight :: rest => if number < weight then some 0 else (position (number - weight) rest).map (· + 1)

theorem position_isSome {weights : List Nat} {number : Nat} (below : number < weights.sum) :
    (position number weights).isSome := by
  induction weights generalizing number with
  | nil => cases below
  | cons weight rest ih =>
      rw [List.sum_cons] at below
      rw [position]
      by_cases covered : number < weight
      · rw [if_pos covered]
        rfl
      · rw [if_neg covered, Option.isSome_map]
        exact ih (by omega)

theorem position_covers {weights : List Nat} {number index : Nat} (found : position number weights = some index) :
    ∃ weight, weights[index]? = some weight ∧ 0 < weight := by
  induction weights generalizing number index with
  | nil => cases found
  | cons weight rest ih =>
      rw [position] at found
      split_ifs at found with covered
      · cases found
        exact ⟨weight, rfl, Nat.zero_lt_of_lt covered⟩
      · obtain ⟨later, fell, rfl⟩ := Option.map_eq_some_iff.mp found
        rw [List.getElem?_cons_succ]
        exact ih fell

/-- As many numbers below the sum fall on a position as its weight says. -/
theorem count_position {weights : List Nat} {index weight : Nat} (listed : weights[index]? = some weight) :
    Nat.count (fun number => position number weights = some index) weights.sum = weight := by
  induction weights generalizing index with
  | nil => cases listed
  | cons first rest ih =>
      rw [List.sum_cons, Nat.count_add]
      cases index with
      | zero =>
          cases listed
          have covered : ∀ number < weight, position number (weight :: rest) = some 0 :=
            fun number below => by rw [position, if_pos below]
          have past : ∀ number < rest.sum, ¬ position (weight + number) (weight :: rest) = some 0 := by
            intro number _
            rw [position, if_neg (by omega)]
            simp
          rw [Nat.count_of_forall covered, Nat.count_of_forall_not past, Nat.add_zero]
      | succ index =>
          have before : ∀ number < first, ¬ position number (first :: rest) = some (index + 1) := by
            intro number below
            rw [position, if_pos below]
            simp
          have shifted (number : Nat) :
              position (first + number) (first :: rest) = some (index + 1) ↔ position number rest = some index := by
            rw [position, if_neg (by omega), Nat.add_sub_cancel_left]
            simp
          rw [Nat.count_of_forall_not before, Nat.zero_add]
          simp only [shifted]
          exact ih listed

theorem exists_position {weights : List Nat} {index weight : Nat} (listed : weights[index]? = some weight)
    (positive : 0 < weight) : ∃ number < weights.sum, position number weights = some index := by
  rw [← count_position listed, Nat.count_eq_card_filter_range, Finset.card_pos] at positive
  obtain ⟨number, member⟩ := positive
  obtain ⟨below, falls⟩ := Finset.mem_filter.mp member
  exact ⟨number, Finset.mem_range.mp below, falls⟩

end InferenceGateway.Lib.WeightedChoice
