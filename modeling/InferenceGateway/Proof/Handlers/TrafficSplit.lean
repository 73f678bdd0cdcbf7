import Mathlib.Algebra.Order.BigOperators.Group.List
import InferenceGateway.Handlers.JsonCodec
import InferenceGateway.Proof.Handlers.RequestBody

/-!
How `RandomWeightedDraw` splits the traffic of a model over its targets.
-/

namespace InferenceGateway
open Lib WeightedChoice

variable {model : InferenceModel} {targets : List TargetModel}

/-- The values of the draw, of `values` many, that stop at `index`. -/
def drawsOf (targets : List TargetModel) (values index : Nat) : Finset Nat :=
  (Finset.range values).filter fun draw => drawnIndex draw targets = some index

theorem sum_weightsOf_eq (all : Weighted targets) :
    ((weightsOf targets).sum : Int) = (targets.map fun target => (target.weight.getD 0).toInt).sum := by
  induction targets with
  | nil => rfl
  | cons target targets ih =>
      obtain ⟨weight, has, nonneg⟩ := all.weights target List.mem_cons_self
      have natural := toInt_of_nonneg nonneg
      have rest := ih all.tail
      simp only [weightsOf, List.map_cons, List.sum_cons, has, Option.getD_some, List.sum_cons] at rest ⊢
      omega

theorem exists_drawnIndex (all : Weighted targets) (positive : 0 < (weightsOf targets).sum) (draw : Nat) :
    ∃ index target, drawnIndex draw targets = some index ∧ targets[index]? = some target ∧
      target.weight ≠ some 0 := by
  rw [drawnIndex_eq_position all positive]
  obtain ⟨index, found⟩ := Option.isSome_iff_exists.mp (position_isSome (Nat.mod_lt draw positive))
  obtain ⟨weight, listed, covers⟩ := position_covers found
  simp only [weightsOf, List.getElem?_map, Option.map_eq_some_iff] at listed
  obtain ⟨target, listed, rfl⟩ := listed
  refine ⟨index, target, found, listed, fun zero => ?_⟩
  simp [zero] at covers

theorem card_drawsOf_weighted (all : Weighted targets) (positive : 0 < (weightsOf targets).sum) {index : Nat}
    {target : TargetModel} (listed : targets[index]? = some target) :
    (drawsOf targets ((weightsOf targets).sum) index).card = (target.weight.getD 0).toInt.toNat := by
  have same : drawsOf targets ((weightsOf targets).sum) index =
      (Finset.range ((weightsOf targets).sum)).filter fun number =>
        position number (weightsOf targets) = some index := by
    apply Finset.filter_congr
    intro draw member
    rw [drawnIndex_eq_position all positive, Nat.mod_eq_of_lt (Finset.mem_range.mp member)]
  rw [same, ← Nat.count_eq_card_filter_range]
  exact count_position (getElem?_weightsOf listed)

theorem drawsOf_unweighted (nonempty : targets ≠ []) (none : ∀ target ∈ targets, target.weight = none) {index : Nat}
    (below : index < targets.length) : drawsOf targets targets.length index = {index} := by
  ext draw
  rw [drawsOf, Finset.mem_filter, Finset.mem_range, Finset.mem_singleton, drawnIndex_of_no_weight nonempty none]
  constructor
  · rintro ⟨small, drawn⟩
    rw [Nat.mod_eq_of_lt small] at drawn
    exact Option.some.inj drawn
  · rintro rfl
    exact ⟨below, by rw [Nat.mod_eq_of_lt below]⟩

/-- Weights that the validation admits are summed without overflow, every draw stops at a target,
and a target is drawn for as many values as its weight says; without weights, for one value. -/
theorem traffic_split_proportional (model : InferenceModel) (nonempty : model.spec.targetModels ≠ [])
    (few : model.spec.targetModels.length ≤ 10) :
    ((∀ target ∈ model.spec.targetModels, ∃ weight, target.weight = some weight ∧ 1 ≤ weight ∧ weight ≤ 1000000) →
      ∃ weights, totalWeight model.spec.targetModels = some weights ∧
        weights.toInt = (model.spec.targetModels.map fun target => (target.weight.getD 0).toInt).sum ∧
        (∀ draw, ∃ index, drawnIndex draw model.spec.targetModels = some index) ∧
        ∀ index target, model.spec.targetModels[index]? = some target →
          (drawsOf model.spec.targetModels weights.toInt.toNat index).card = (target.weight.getD 0).toInt.toNat ∧
          ∀ draw ∈ drawsOf model.spec.targetModels weights.toInt.toNat index,
            randomWeightedDraw draw model = some target.name) ∧
    ((∀ target ∈ model.spec.targetModels, target.weight = none) →
      ∀ index target, model.spec.targetModels[index]? = some target →
        ∃ draw, drawsOf model.spec.targetModels model.spec.targetModels.length index = {draw} ∧
          randomWeightedDraw draw model = some target.name) := by
  have named {values index draw : Nat} {target : TargetModel} (listed : model.spec.targetModels[index]? = some target)
      (member : draw ∈ drawsOf model.spec.targetModels values index) :
      randomWeightedDraw draw model = some target.name := by
    obtain ⟨_, drawn⟩ := Finset.mem_filter.mp member
    obtain ⟨chosen, found, returned⟩ := randomWeightedDraw_of_drawnIndex drawn
    rw [listed] at found
    cases found
    exact returned
  constructor
  · intro bounded
    have all := weighted_of_bounded bounded few
    have positive := sum_pos_of_bounded bounded nonempty
    obtain ⟨weights, summed, value⟩ := totalWeight_of_weighted all
    refine ⟨weights, summed, value.trans (sum_weightsOf_eq all), fun draw => ?_, fun index target listed => ?_⟩
    · obtain ⟨index, _, drawn, _⟩ := exists_drawnIndex all positive draw
      exact ⟨index, drawn⟩
    · rw [value, Int.toNat_natCast]
      exact ⟨card_drawsOf_weighted all positive listed, fun draw member => named listed member⟩
  · intro none index target listed
    obtain ⟨below, _⟩ := List.getElem?_eq_some_iff.mp listed
    have only := drawsOf_unweighted nonempty none below
    refine ⟨index, only, named listed (?_ : index ∈ drawsOf _ model.spec.targetModels.length index)⟩
    rw [only]
    exact Finset.mem_singleton_self index

def splitModel (targets : List TargetModel) : InferenceModel :=
  { chatModel with spec := { chatModel.spec with targetModels := targets } }

theorem canary_split :
    ∃ weights, totalWeight [⟨"v1", some 9⟩, ⟨"v2", some 1⟩] = some weights ∧
      (drawsOf [⟨"v1", some 9⟩, ⟨"v2", some 1⟩] weights.toInt.toNat 0).card = 9 := by
  obtain ⟨weighted, _⟩ :=
    traffic_split_proportional (splitModel [⟨"v1", some 9⟩, ⟨"v2", some 1⟩]) (List.cons_ne_nil _ _) (by decide)
  obtain ⟨weights, summed, _, _, drawn⟩ := weighted (by simp [splitModel])
  exact ⟨weights, summed, (drawn 0 _ rfl).1⟩

/-! ## Zero weights -/

theorem sum_weightsOf_eq_zero_iff (all : Weighted targets) :
    (weightsOf targets).sum = 0 ↔ ∀ target ∈ targets, target.weight = some 0 := by
  rw [weightsOf, List.sum_eq_zero_iff]
  simp only [List.mem_map, forall_exists_index, and_imp, forall_apply_eq_imp_iff₂]
  refine forall₂_congr fun target member => ?_
  obtain ⟨weight, has, nonneg⟩ := all.weights target member
  rw [has, Option.getD_some, Option.some_inj, ← Int32.toInt_inj, Int32.toInt_zero]
  have natural := toInt_of_nonneg nonneg
  omega

theorem randomWeightedDraw_of_zero_weights (all : Weighted model.spec.targetModels)
    (zero : ∀ target ∈ model.spec.targetModels, target.weight = some 0) (draw : Nat) :
    randomWeightedDraw draw model = none := by
  cases split : model.spec.targetModels with
  | nil => simp [randomWeightedDraw, split]
  | cons first rest =>
      have has := zero first (by rw [split]; exact List.mem_cons_self)
      obtain ⟨sum, summed, value⟩ := totalWeight_of_weighted all
      rw [(sum_weightsOf_eq_zero_iff all).mpr zero] at value
      have none : sum ≤ 0 := by
        rw [Int32.le_iff_toInt_le, value]
        rfl
      rw [randomWeightedDraw_of_weight draw split has, summed, Option.bind_some, if_pos none]

theorem target_of_randomWeightedDraw (all : Weighted model.spec.targetModels) {draw : Nat} {name : String}
    (returned : randomWeightedDraw draw model = some name) :
    ∃ index target, drawnIndex draw model.spec.targetModels = some index ∧
      model.spec.targetModels[index]? = some target ∧ target.name = name ∧ target.weight ≠ some 0 := by
  have positive : 0 < (weightsOf model.spec.targetModels).sum := by
    apply Nat.pos_of_ne_zero
    intro zero
    rw [randomWeightedDraw_of_zero_weights all ((sum_weightsOf_eq_zero_iff all).mp zero)] at returned
    cases returned
  obtain ⟨index, target, drawn, listed, weighs⟩ := exists_drawnIndex all positive draw
  obtain ⟨chosen, found, named⟩ := randomWeightedDraw_of_drawnIndex drawn
  rw [listed] at found
  cases found
  rw [returned] at named
  exact ⟨index, target, drawn, listed, (Option.some.inj named).symm, weighs⟩

section HandleRequestBody
variable {codec : Codec} {hint : DestinationHint} {backend : Backend} {body : Option Object} {ctx : RequestContext}
  {modelName : String}

theorem handleRequestBody_of_zero_weights (named : field body "model" = .str modelName)
    (found : backend.modelGet modelName = some model) (all : Weighted model.spec.targetModels)
    (nonempty : model.spec.targetModels ≠ []) (zero : ∀ target ∈ model.spec.targetModels, target.weight = some 0) :
    StreamingServer.handleRequestBody codec hint backend body ctx = none := by
  have panics : resolveTargetModel backend modelName = none := by
    simp only [resolveTargetModel, found, nonempty, if_false, randomWeightedDraw_of_zero_weights all zero,
      Option.bind_eq_bind, Option.bind_none]
  exact (StreamingServer.handleRequestBody_of_unresolved named).1 panics

/-- A target of weight zero is never drawn, but a model that has only such targets is not rejected:
`Int31n` panics on the sum. -/
theorem zero_weights_reserve_iff (codec : Codec) (hint : DestinationHint) (ctx : RequestContext)
    (named : field body "model" = .str modelName)
    (found : backend.modelGet modelName = some model) (all : Weighted model.spec.targetModels) :
    ((∀ draw name, randomWeightedDraw draw model = some name →
        ∃ index target, drawnIndex draw model.spec.targetModels = some index ∧
          model.spec.targetModels[index]? = some target ∧ target.name = name ∧ target.weight ≠ some 0) ∧
      (model.spec.targetModels ≠ [] → (∀ target ∈ model.spec.targetModels, target.weight = some 0) →
        StreamingServer.handleRequestBody codec hint backend body ctx = some (some (.coded
          ⟨.badConfiguration, "error getting target model name for model " ++ model.name⟩), ctx, body))) ↔
      (model.spec.targetModels = [] ∨ ∃ target ∈ model.spec.targetModels, target.weight ≠ some 0) := by
  constructor
  · rintro ⟨_, rejected⟩
    by_contra neither
    push Not at neither
    obtain ⟨nonempty, zero⟩ := neither
    have answered := rejected nonempty zero
    rw [handleRequestBody_of_zero_weights named found all nonempty zero] at answered
    cases answered
  · intro weighs
    refine ⟨fun draw name returned => target_of_randomWeightedDraw all returned, fun nonempty zero => ?_⟩
    cases weighs with
    | inl empty => exact absurd empty nonempty
    | inr some =>
        obtain ⟨target, member, positive⟩ := some
        exact absurd (zero target member) positive

end HandleRequestBody

def splitBackend (targets : List TargetModel) : Backend :=
  { chatBackend with modelGet := fun _ => some (splitModel targets) }

theorem drained_target_not_drawn :
    ∃ index target, drawnIndex 7 [⟨"v1", some 0⟩, ⟨"v2", some 1⟩] = some index ∧
      ([⟨"v1", some 0⟩, ⟨"v2", some 1⟩] : List TargetModel)[index]? = some target ∧ target.name = "v2" ∧
      target.weight ≠ some 0 := by
  have all : Weighted [⟨"v1", some 0⟩, ⟨"v2", some 1⟩] := ⟨by simp, by decide⟩
  have named : field (some [("model", .str "m")]) "model" = .str "m" := rfl
  have found : (splitBackend [⟨"v1", some 0⟩, ⟨"v2", some 1⟩]).modelGet "m" =
    some (splitModel [⟨"v1", some 0⟩, ⟨"v2", some 1⟩]) := rfl
  have reserve := zero_weights_reserve_iff jsonCodec testHint {} named found all
  exact (reserve.mpr (.inr ⟨⟨"v2", some 1⟩, by decide, by decide⟩)).1 7 "v2" (by decide +kernel)

theorem reserved_name_panics :
    StreamingServer.handleRequestBody jsonCodec testHint (splitBackend [⟨"reserved", some 0⟩])
      (some [("model", .str "m")]) {} = none := rfl

end InferenceGateway
