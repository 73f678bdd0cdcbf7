import InferenceGateway.Handlers.Context
import InferenceGateway.Lib.WeightedChoice

/-!
The draw of a target model.
-/

namespace InferenceGateway
open Lib WeightedChoice

/-! ## When the draw panics -/

def totalWeight (targets : List TargetModel) : Option Int32 :=
  targets.foldlM (fun weights target => return weights + (← target.weight)) 0

/-- A target model can be drawn: the first has no weight, or all have one and the sum is positive. -/
def Drawable (spec : InferenceModelSpec) : Prop :=
  match spec.targetModels with
  | [] => True
  | first :: _ => first.weight = none ∨ ∃ total ∈ totalWeight spec.targetModels, 0 < total

theorem weights_of_foldlM {targets : List TargetModel} {start total : Int32}
    (added : targets.foldlM (fun weights target => return weights + (← target.weight)) start = some total) :
    ∀ target ∈ targets, target.weight.isSome := by
  induction targets generalizing start with
  | nil => exact fun _ member => absurd member List.not_mem_nil
  | cons target targets ih =>
      intro other member
      cases weight : target.weight with
      | none => simp [weight] at added
      | some w =>
          simp only [List.foldlM_cons, weight, Option.bind_eq_bind, Option.bind_some] at added
          cases List.mem_cons.mp member with
          | inl same => simp [same, weight]
          | inr later => exact ih added other later

theorem walk_isSome {targets : List TargetModel} (weights : ∀ target ∈ targets, target.weight.isSome)
    (randomVal : Int32) : (randomWeightedDraw.walk randomVal targets).isSome := by
  induction targets generalizing randomVal with
  | nil => rfl
  | cons target targets ih =>
      obtain ⟨weight, has⟩ := Option.isSome_iff_exists.mp (weights target List.mem_cons_self)
      simp only [randomWeightedDraw.walk, has, Option.bind_eq_bind, Option.bind_some]
      split
      · rfl
      · exact ih (fun other member => weights other (List.mem_cons_of_mem _ member)) _

theorem randomWeightedDraw_of_weight (draw : Nat) {model : InferenceModel} {first : TargetModel}
    {rest : List TargetModel} (split : model.spec.targetModels = first :: rest) {weight : Int32}
    (has : first.weight = some weight) :
    randomWeightedDraw draw model = (totalWeight model.spec.targetModels).bind fun weights =>
      if weights ≤ 0 then none
      else randomWeightedDraw.walk (Int32.ofNat (draw % weights.toInt.toNat)) model.spec.targetModels := by
  simp [randomWeightedDraw, totalWeight, split, has]

theorem randomWeightedDraw_of_no_weight (draw : Nat) {model : InferenceModel} {first : TargetModel}
    {rest : List TargetModel} (split : model.spec.targetModels = first :: rest) (has : first.weight = none) :
    ∃ target, model.spec.targetModels[draw % model.spec.targetModels.length]? = some target ∧
      randomWeightedDraw draw model = some target.name := by
  have chosen : draw % model.spec.targetModels.length < model.spec.targetModels.length := by
    apply Nat.mod_lt
    rw [split]
    exact Nat.succ_pos _
  have head : model.spec.targetModels.head? = some first := by rw [split, List.head?_cons]
  refine ⟨_, List.getElem?_eq_getElem chosen, ?_⟩
  simp only [randomWeightedDraw, head, has, Option.bind_eq_bind, Option.bind_some, if_true,
    List.getElem?_eq_getElem chosen]
  rfl

theorem randomWeightedDraw_isSome_iff (draw : Nat) {model : InferenceModel}
    (targets : model.spec.targetModels ≠ []) :
    (randomWeightedDraw draw model).isSome ↔ Drawable model.spec := by
  obtain ⟨first, rest, split⟩ := List.exists_cons_of_ne_nil targets
  cases weight : first.weight with
  | none =>
      obtain ⟨_, _, drawn⟩ := randomWeightedDraw_of_no_weight draw split weight
      exact iff_of_true (by rw [drawn]; rfl) (by simp [Drawable, split, weight])
  | some w =>
      rw [randomWeightedDraw_of_weight draw split weight]
      unfold Drawable
      rw [split]
      dsimp only
      rw [← split, weight]
      cases total : totalWeight model.spec.targetModels with
      | none => simp
      | some weights =>
          have all := weights_of_foldlM total
          by_cases positive : weights ≤ 0
          · simp [positive, Int32.not_lt]
          · simp [positive, walk_isSome all, Int32.not_le.mp positive]

/-! ## What is drawn -/

def weightsOf (targets : List TargetModel) : List Nat :=
  targets.map fun target => (target.weight.getD 0).toInt.toNat

/-- All targets have a weight, no weight is negative, and the sum does not overflow. -/
structure Weighted (targets : List TargetModel) : Prop where
  weights : ∀ target ∈ targets, ∃ weight, target.weight = some weight ∧ 0 ≤ weight
  sum : (weightsOf targets).sum < 2 ^ 31

theorem Weighted.tail {target : TargetModel} {targets : List TargetModel} (all : Weighted (target :: targets)) :
    Weighted targets := by
  have sum := all.sum
  refine ⟨fun other member => all.weights other (List.mem_cons_of_mem _ member), ?_⟩
  simp only [weightsOf, List.map_cons, List.sum_cons] at sum ⊢
  omega

theorem toInt_of_nonneg {weight : Int32} (nonneg : 0 ≤ weight) : weight.toInt = weight.toInt.toNat := by
  have := Int32.le_iff_toInt_le.mp nonneg
  rw [Int32.toInt_zero] at this
  omega

theorem foldlM_weights {targets : List TargetModel} (all : Weighted targets) (start : Int32)
    (nonneg : 0 ≤ start.toInt) (fits : start.toInt + (weightsOf targets).sum < 2 ^ 31) :
    ∃ sum, targets.foldlM (fun weights target => return weights + (← target.weight)) start = some sum ∧
      sum.toInt = start.toInt + (weightsOf targets).sum := by
  induction targets generalizing start with
  | nil => exact ⟨start, rfl, by simp [weightsOf]⟩
  | cons target targets ih =>
      obtain ⟨weight, has, positive⟩ := all.weights target List.mem_cons_self
      have value := toInt_of_nonneg positive
      simp only [weightsOf, List.map_cons, has, Option.getD_some, List.sum_cons] at fits ⊢
      have added : (start + weight).toInt = start.toInt + weight.toInt := by
        rw [Int32.toInt_add, Int.bmod_eq_of_le] <;> omega
      obtain ⟨sum, folded, total⟩ := ih all.tail (start + weight) (by omega) (by
        simp only [weightsOf]
        omega)
      refine ⟨sum, ?_, ?_⟩
      · rw [List.foldlM_cons, has]
        exact folded
      · simp only [weightsOf] at total
        omega

theorem ne_nil_of_sum_pos {targets : List TargetModel} (positive : 0 < (weightsOf targets).sum) :
    targets ≠ [] := by
  rintro rfl
  exact absurd positive (lt_irrefl 0)

theorem not_le_zero_of_toInt {sum : Int32} {number : Nat} (value : sum.toInt = number) (positive : 0 < number) :
    ¬ sum ≤ 0 := by
  rw [Int32.le_iff_toInt_le, value, Int32.toInt_zero]
  omega

theorem totalWeight_of_weighted {targets : List TargetModel} (all : Weighted targets) :
    ∃ sum, totalWeight targets = some sum ∧ sum.toInt = (weightsOf targets).sum := by
  have fits : (0 : Int32).toInt + (weightsOf targets).sum < 2 ^ 31 := by
    have sum := all.sum
    rw [Int32.toInt_zero]
    omega
  obtain ⟨sum, folded, value⟩ := foldlM_weights all 0 le_rfl fits
  rw [Int32.toInt_zero, zero_add] at value
  exact ⟨sum, folded, value⟩

/-- The walk over the weights, on `int32`, goes as the walk on numbers does. -/
theorem Weighted.covers {target : TargetModel} {targets : List TargetModel} (all : Weighted (target :: targets))
    {randomVal : Int32} {number : Nat} (value : randomVal.toInt = number) :
    ∃ weight, target.weight = some weight ∧ (randomVal < weight ↔ number < weight.toInt.toNat) ∧
      (¬ randomVal < weight → (randomVal - weight).toInt = (number - weight.toInt.toNat : Nat)) := by
  obtain ⟨weight, has, nonneg⟩ := all.weights target List.mem_cons_self
  have natural := toInt_of_nonneg nonneg
  have below := Int32.toInt_lt randomVal
  have covered : randomVal < weight ↔ number < weight.toInt.toNat := by
    rw [Int32.lt_iff_toInt_lt]
    omega
  refine ⟨weight, has, covered, fun past => ?_⟩
  rw [covered] at past
  rw [Int32.toInt_sub, Int.bmod_eq_of_le] <;> omega

/-! ## Where the loop stops -/

/-- The walk, with the index that it stops at in the place of the name that it returns there. -/
def stopsAt : Int32 → List TargetModel → Option Nat
  | _, [] => none
  | randomVal, target :: rest => do
    let weight ← target.weight
    if randomVal < weight then return 0 else (stopsAt (randomVal - weight) rest).map (· + 1)

def drawnIndex (draw : Nat) (targets : List TargetModel) : Option Nat := do
  let first ← targets.head?
  if first.weight = none then return draw % targets.length
  else
    let weights ← totalWeight targets
    if weights ≤ 0 then none
    else stopsAt (Int32.ofNat (draw % weights.toInt.toNat)) targets

theorem walk_of_stopsAt {targets : List TargetModel} {randomVal : Int32} {index : Nat}
    (stops : stopsAt randomVal targets = some index) :
    ∃ target, targets[index]? = some target ∧ randomWeightedDraw.walk randomVal targets = some target.name := by
  induction targets generalizing randomVal index with
  | nil => cases stops
  | cons target targets ih =>
      rw [stopsAt, Option.bind_eq_bind, Option.bind_eq_some_iff] at stops
      obtain ⟨weight, has, stops⟩ := stops
      simp only [randomWeightedDraw.walk, has, Option.bind_eq_bind, Option.bind_some]
      split_ifs at stops ⊢ with here
      · cases stops
        exact ⟨target, rfl, rfl⟩
      · obtain ⟨later, stopped, rfl⟩ := Option.map_eq_some_iff.mp stops
        exact ih stopped

theorem randomWeightedDraw_of_drawnIndex {model : InferenceModel} {draw index : Nat}
    (drawn : drawnIndex draw model.spec.targetModels = some index) :
    ∃ target, model.spec.targetModels[index]? = some target ∧ randomWeightedDraw draw model = some target.name := by
  rw [drawnIndex, Option.bind_eq_bind, Option.bind_eq_some_iff] at drawn
  obtain ⟨first, head, drawn⟩ := drawn
  obtain ⟨rest, split⟩ := List.head?_eq_some_iff.mp head
  cases weight : first.weight with
  | none =>
      rw [if_pos weight] at drawn
      cases drawn
      exact randomWeightedDraw_of_no_weight draw split weight
  | some w =>
      rw [if_neg (by simp [weight]), Option.bind_eq_bind, Option.bind_eq_some_iff] at drawn
      obtain ⟨weights, total, drawn⟩ := drawn
      rw [randomWeightedDraw_of_weight draw split weight, total, Option.bind_some]
      split_ifs at drawn ⊢
      exact walk_of_stopsAt drawn

theorem stopsAt_eq_position {targets : List TargetModel} (all : Weighted targets) {randomVal : Int32} {number : Nat}
    (value : randomVal.toInt = number) :
    stopsAt randomVal targets = position number (weightsOf targets) := by
  induction targets generalizing randomVal number with
  | nil => rfl
  | cons target targets ih =>
      obtain ⟨weight, has, covered, past⟩ := all.covers value
      simp only [stopsAt, has, Option.bind_eq_bind, Option.bind_some, weightsOf, List.map_cons,
        Option.getD_some, position]
      by_cases here : randomVal < weight
      · rw [if_pos here, if_pos (covered.mp here)]
        rfl
      · rw [if_neg here, if_neg (mt covered.mpr here), ih all.tail (past here)]
        rfl

theorem drawnIndex_eq_position {targets : List TargetModel} (all : Weighted targets)
    (positive : 0 < (weightsOf targets).sum) (draw : Nat) :
    drawnIndex draw targets = position (draw % (weightsOf targets).sum) (weightsOf targets) := by
  obtain ⟨first, rest, split⟩ := List.exists_cons_of_ne_nil (ne_nil_of_sum_pos positive)
  obtain ⟨weight, has, _⟩ := all.weights first (by rw [split]; exact List.mem_cons_self)
  obtain ⟨sum, summed, value⟩ := totalWeight_of_weighted all
  have small : draw % (weightsOf targets).sum < 2 ^ 31 := (Nat.mod_lt _ positive).trans all.sum
  have head : targets.head? = some first := by rw [split, List.head?_cons]
  have weighs : first.weight ≠ none := by simp [has]
  simp only [drawnIndex, head, summed, Option.bind_eq_bind, Option.bind_some, if_neg weighs,
    if_neg (not_le_zero_of_toInt value positive)]
  rw [value, Int.toNat_natCast]
  exact stopsAt_eq_position all (Int32.toInt_ofNat_of_lt small)

theorem drawnIndex_of_no_weight {targets : List TargetModel} (nonempty : targets ≠ [])
    (none : ∀ target ∈ targets, target.weight = none) (draw : Nat) :
    drawnIndex draw targets = some (draw % targets.length) := by
  obtain ⟨first, rest, split⟩ := List.exists_cons_of_ne_nil nonempty
  have head : targets.head? = some first := by rw [split, List.head?_cons]
  have unweighted := none first (by rw [split]; exact List.mem_cons_self)
  simp only [drawnIndex, head, Option.bind_eq_bind, Option.bind_some, if_pos unweighted]
  rfl

/-! ## Valid InferenceModels -/

section Valid
variable {model : InferenceModel}

theorem sum_weightsOf_le {targets : List TargetModel}
    (bounded : ∀ target ∈ targets, ∀ weight ∈ target.weight, weight ≤ 1000000) :
    (weightsOf targets).sum ≤ 1000000 * targets.length := by
  induction targets with
  | nil => rfl
  | cons target targets ih =>
      have rest := ih fun other member => bounded other (List.mem_cons_of_mem _ member)
      have small : (target.weight.getD 0).toInt.toNat ≤ 1000000 := by
        cases has : target.weight with
        | none => exact Nat.zero_le _
        | some weight =>
            have bound : weight.toInt ≤ 1000000 :=
              Int32.le_iff_toInt_le.mp (bounded target List.mem_cons_self weight has)
            rw [Option.getD_some]
            omega
      simp only [weightsOf, List.map_cons, List.sum_cons, List.length_cons] at rest ⊢
      omega

theorem getElem?_weightsOf {targets : List TargetModel} {index : Nat} {target : TargetModel}
    (listed : targets[index]? = some target) :
    (weightsOf targets)[index]? = some (target.weight.getD 0).toInt.toNat := by
  simp [weightsOf, listed]

theorem toNat_pos_of_one_le {weight : Int32} (positive : 1 ≤ weight) : 0 < weight.toInt.toNat := by
  have bound : 1 ≤ weight.toInt := Int32.le_iff_toInt_le.mp positive
  omega

section Bounded
variable {targets : List TargetModel}
  (bounded : ∀ target ∈ targets, ∃ weight, target.weight = some weight ∧ 1 ≤ weight ∧ weight ≤ 1000000)
include bounded

theorem weighted_of_bounded (few : targets.length ≤ 10) : Weighted targets := by
  constructor
  · intro target member
    obtain ⟨weight, has, positive, _⟩ := bounded target member
    exact ⟨weight, has, Int32.le_trans (by decide) positive⟩
  · have bound := sum_weightsOf_le fun target member weight has => by
      obtain ⟨_, has', _, small⟩ := bounded target member
      rw [has'] at has
      cases has
      exact small
    omega

theorem exists_number_of_bounded {index : Nat} {target : TargetModel} (listed : targets[index]? = some target) :
    ∃ number < (weightsOf targets).sum, position number (weightsOf targets) = some index := by
  obtain ⟨weight, has, positive, _⟩ := bounded target (List.mem_of_getElem? listed)
  have covers := getElem?_weightsOf listed
  rw [has, Option.getD_some] at covers
  exact exists_position covers (toNat_pos_of_one_le positive)

theorem sum_pos_of_bounded (nonempty : targets ≠ []) : 0 < (weightsOf targets).sum := by
  obtain ⟨target, member⟩ := List.exists_mem_of_ne_nil _ nonempty
  obtain ⟨index, listed⟩ := List.mem_iff_getElem?.mp member
  obtain ⟨number, below, _⟩ := exists_number_of_bounded bounded listed
  exact Nat.zero_lt_of_lt below

end Bounded

theorem InferenceModelSpec.Valid.bounded {spec : InferenceModelSpec} (valid : spec.Valid)
    (all : ∀ target ∈ spec.targetModels, target.weight.isSome) :
    ∀ target ∈ spec.targetModels, ∃ weight, target.weight = some weight ∧ 1 ≤ weight ∧ weight ≤ 1000000 := by
  intro target member
  obtain ⟨weight, has⟩ := Option.isSome_iff_exists.mp (all target member)
  exact ⟨weight, has, valid.weights target member weight has⟩

theorem exists_drawn (valid : model.spec.Valid) (nonempty : model.spec.targetModels ≠ []) (draw : Nat) :
    ∃ target ∈ model.spec.targetModels, randomWeightedDraw draw model = some target.name := by
  cases valid.allOrNone with
  | inl all =>
      have bounded := valid.bounded all
      have positive := sum_pos_of_bounded bounded nonempty
      obtain ⟨index, found⟩ := Option.isSome_iff_exists.mp (position_isSome (Nat.mod_lt draw positive))
      rw [← drawnIndex_eq_position (weighted_of_bounded bounded valid.few) positive] at found
      obtain ⟨target, listed, drawn⟩ := randomWeightedDraw_of_drawnIndex found
      exact ⟨target, List.mem_of_getElem? listed, drawn⟩
  | inr none =>
      obtain ⟨first, rest, split⟩ := List.exists_cons_of_ne_nil nonempty
      have unweighted : first.weight = Option.none := none first (by rw [split]; exact List.mem_cons_self)
      obtain ⟨target, chosen, drawn⟩ := randomWeightedDraw_of_no_weight draw split unweighted
      exact ⟨target, List.mem_of_getElem? chosen, drawn⟩

theorem drawable_of_valid (valid : model.spec.Valid) : Drawable model.spec := by
  by_cases nonempty : model.spec.targetModels = []
  · simp [Drawable, nonempty]
  · obtain ⟨_, _, drawn⟩ := exists_drawn valid nonempty 0
    rw [← randomWeightedDraw_isSome_iff 0 nonempty, drawn]
    rfl

end Valid

end InferenceGateway
