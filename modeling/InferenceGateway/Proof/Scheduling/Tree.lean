import InferenceGateway.Scheduling.Filter
import Mathlib.Logic.Relation

/-!
# Filter trees

A run of a tree follows one path; `lastCall` is the last call on it, the one of a filter without a
successor for the outcome it had. Everything about the result of a tree is a fact about that call.
-/

namespace InferenceGateway
open Lib
variable {π : Type}

namespace Run
variable {α β : Type} (env : Env π) (t : Nat)

@[simp] theorem exec_pure (a : α) : (pure a : Run π α) env t = (a, t) := rfl

@[simp] theorem exec_bind (x : Run π α) (f : α → Run π β) :
    (x >>= f) env t = f (x env t).1 env (x env t).2 :=
  Dialogue.run_bind ..

theorem exec_ite (c : Prop) [Decidable c] (x y : Run π α) :
    (if c then x else y) env t = if c then x env t else y env t :=
  Dialogue.run_ite ..

end Run

theorem succeeded_iff (result : List π × Option Err) :
    succeeded result = true ↔ result.2 = none ∧ result.1 ≠ [] := by
  simp [succeeded, List.length_pos_iff]

/-! ## One step along the path -/

def Filter.next (f : Filter π) (success : Bool) : Option (Filter π) :=
  if success then f.nextOnSuccess.or f.nextOnSuccessOrFailure
  else f.nextOnFailure.or f.nextOnSuccessOrFailure

def handOver (pods : List π) (result : List π × Option Err) : List π :=
  if succeeded result then result.1 else pods

theorem handOver_ne_nil {pods : List π} (nonempty : pods ≠ []) (result : List π × Option Err) :
    handOver pods result ≠ [] := by
  unfold handOver
  split
  · exact ((succeeded_iff result).mp (by assumption)).2
  · exact nonempty

theorem handOver_sublist {pods : List π} {result : List π × Option Err}
    (narrowed : result.1.Sublist pods) : (handOver pods result).Sublist pods := by
  unfold handOver
  split
  · exact narrowed
  · exact .refl pods

private theorem runNext_or (f g : Option (Filter π)) :
    (runNext f).or (runNext g) = (f.or g).map Filter.run := by
  cases f <;> cases g <;> rfl

theorem Filter.run_eq (f : Filter π) (req : LLMRequest) (pods : List π) (env : Env π) (t : Nat) :
    f.run req pods env t =
      match f.next (succeeded (f.filter req pods env t).1) with
      | none => f.filter req pods env t
      | some next => next.run req (handOver pods (f.filter req pods env t).1) env
          (f.filter req pods env t).2 := by
  obtain ⟨name, filter, nextOnSuccess, nextOnFailure, nextOnSuccessOrFailure⟩ := f
  have remarked : Run.exec (Dialogue.remark ⟨name, pods.length⟩) env t = ((), t) := rfl
  simp only [Filter.run, Run.exec_bind, remarked, runNext_or, Filter.next, handOver]
  cases succeeded (filter req pods env t).1 with
  | false => cases nextOnFailure.or nextOnSuccessOrFailure <;> simp
  | true => cases nextOnSuccess.or nextOnSuccessOrFailure <;> simp

theorem Filter.log_run (f : Filter π) (req : LLMRequest) (pods : List π) (env : Env π) (t : Nat) :
    (f.run req pods).log env.answers t =
      .noted ⟨f.name, pods.length⟩ :: ((f.filter req pods).log env.answers t ++
        match f.next (succeeded (f.filter req pods env t).1) with
        | none => []
        | some next =>
            (next.run req (handOver pods (f.filter req pods env t).1)).log env.answers
              (f.filter req pods env t).2) := by
  obtain ⟨name, filter, nextOnSuccess, nextOnFailure, nextOnSuccessOrFailure⟩ := f
  simp only [Filter.run, Dialogue.log_bind, Dialogue.log_remark, Dialogue.run_remark, List.singleton_append, runNext_or,
    Filter.next, handOver, Run.exec]
  by_cases success : succeeded ((filter req pods).run env.answers t).1 = true
  · simp only [success, if_true]
    cases nextOnSuccess.or nextOnSuccessOrFailure <;> simp
  · simp only [success]
    cases nextOnFailure.or nextOnSuccessOrFailure <;> simp

theorem Filter.induction {motive : Filter π → Prop}
    (node : ∀ f : Filter π, (∀ success g, f.next success = some g → motive g) → motive f)
    (f : Filter π) : motive f := by
  refine @Filter.rec π motive (fun o => ∀ g, o = some g → motive g)
    ?_ (fun _ h => by cases h) (fun g ih _ h => Option.some.inj h ▸ ih) f
  intro name filter nextOnSuccess nextOnFailure nextOnSuccessOrFailure onSuccess onFailure onEither
  apply node
  intro success g link
  unfold Filter.next at link
  split at link
  all_goals rcases Option.or_eq_some_iff.mp link with link | ⟨_, link⟩
  · exact onSuccess g link
  · exact onEither g link
  · exact onFailure g link
  · exact onEither g link

theorem Filter.run_of_success {f g : Filter π} {req : LLMRequest} {pods kept : List π} {env : Env π}
    {t : Nat} (next : f.next true = some g) (result : (f.filter req pods env t).1 = (kept, none))
    (nonempty : kept ≠ []) :
    f.run req pods env t = g.run req kept env (f.filter req pods env t).2 := by
  have success : succeeded (kept, (none : Option Err)) = true := (succeeded_iff _).mpr ⟨rfl, nonempty⟩
  rw [f.run_eq, result, success, next, handOver, if_pos success]

theorem Filter.run_of_failure {f g : Filter π} {req : LLMRequest} {pods kept : List π} {err : Err}
    {env : Env π} {t : Nat} (next : f.next false = some g)
    (result : (f.filter req pods env t).1 = (kept, some err)) :
    f.run req pods env t = g.run req pods env (f.filter req pods env t).2 := by
  have failure : succeeded (kept, some err) = false := rfl
  rw [f.run_eq, result, failure, next, handOver, if_neg (by rw [failure]; exact Bool.false_ne_true)]

/-! ## The last call -/

structure Call (π : Type) where
  filter : FilterFunc π
  pods : List π
  clock : Nat

def Call.run (call : Call π) (req : LLMRequest) (env : Env π) : (List π × Option Err) × Nat :=
  call.filter req call.pods env call.clock

mutual

def Filter.lastCall : Filter π → LLMRequest → List π → Env π → Nat → Call π
  | ⟨_, filter, nextOnSuccess, nextOnFailure, nextOnSuccessOrFailure⟩, req, pods, env, t =>
      let result := filter req pods env t
      match (if succeeded result.1 then (lastCallNext nextOnSuccess).or (lastCallNext nextOnSuccessOrFailure)
        else (lastCallNext nextOnFailure).or (lastCallNext nextOnSuccessOrFailure)) with
      | none => ⟨filter, pods, t⟩
      | some next => next req (handOver pods result.1) env result.2

def lastCallNext : Option (Filter π) → Option (LLMRequest → List π → Env π → Nat → Call π)
  | none => none
  | some next => some next.lastCall

end

private theorem lastCallNext_or (f g : Option (Filter π)) :
    (lastCallNext f).or (lastCallNext g) = (f.or g).map Filter.lastCall := by
  cases f <;> cases g <;> rfl

theorem Filter.lastCall_eq (f : Filter π) (req : LLMRequest) (pods : List π) (env : Env π)
    (t : Nat) :
    f.lastCall req pods env t =
      match f.next (succeeded (f.filter req pods env t).1) with
      | none => ⟨f.filter, pods, t⟩
      | some next => next.lastCall req (handOver pods (f.filter req pods env t).1) env
          (f.filter req pods env t).2 := by
  obtain ⟨name, filter, nextOnSuccess, nextOnFailure, nextOnSuccessOrFailure⟩ := f
  simp only [Filter.lastCall, lastCallNext_or, Filter.next]
  cases succeeded (filter req pods env t).1 with
  | false => cases nextOnFailure.or nextOnSuccessOrFailure <;> simp
  | true => cases nextOnSuccess.or nextOnSuccessOrFailure <;> simp

theorem Filter.lastCall_of_success {f g : Filter π} {req : LLMRequest} {pods kept : List π}
    {env : Env π} {t : Nat} (next : f.next true = some g)
    (result : (f.filter req pods env t).1 = (kept, none)) (nonempty : kept ≠ []) :
    f.lastCall req pods env t = g.lastCall req kept env (f.filter req pods env t).2 := by
  have success : succeeded (kept, (none : Option Err)) = true := (succeeded_iff _).mpr ⟨rfl, nonempty⟩
  rw [f.lastCall_eq, result, success, next, handOver, if_pos success]

theorem Filter.run_eq_lastCall (f : Filter π) (req : LLMRequest) (pods : List π) (env : Env π)
    (t : Nat) : f.run req pods env t = (f.lastCall req pods env t).run req env := by
  induction f using Filter.induction generalizing pods t with
  | node f ih =>
      rw [f.run_eq, f.lastCall_eq]
      split
      · rfl
      · exact ih _ _ (by assumption) _ _

def Call.log (call : Call π) (req : LLMRequest) (env : Env π) :
    List (Dialogue.Event (Query π) Query.Answer RunningFilter) :=
  (call.filter req call.pods).log env.answers call.clock

theorem Filter.log_eq_lastCall (f : Filter π) (req : LLMRequest) (pods : List π) (env : Env π) (t : Nat) :
    ∃ before running, (f.run req pods).log env.answers t =
      before ++ .noted running :: (f.lastCall req pods env t).log req env := by
  induction f using Filter.induction generalizing pods t with
  | node f ih =>
      rw [f.log_run, f.lastCall_eq]
      cases following : f.next (succeeded (f.filter req pods env t).1) with
      | none => exact ⟨[], ⟨f.name, pods.length⟩, by simp [Call.log]⟩
      | some next =>
          obtain ⟨before, running, logged⟩ := ih _ next following (handOver pods (f.filter req pods env t).1)
            (f.filter req pods env t).2
          refine ⟨.noted ⟨f.name, pods.length⟩ :: ((f.filter req pods).log env.answers t ++ before), running, ?_⟩
          simp [logged]

/-- A tree never hands an empty list to a filter unless it was given one: a filter that returns no
pods has failed, and its input goes on. -/
theorem Filter.lastCall_pods_ne_nil (f : Filter π) (req : LLMRequest) (pods : List π) (env : Env π)
    (t : Nat) (nonempty : pods ≠ []) : (f.lastCall req pods env t).pods ≠ [] := by
  induction f using Filter.induction generalizing pods t with
  | node f ih =>
      rw [f.lastCall_eq]
      split
      · exact nonempty
      · exact ih _ _ (by assumption) _ _ (handOver_ne_nil nonempty _)

/-! ## Properties of all filters of a tree -/

def Narrows (filter : FilterFunc π) : Prop :=
  ∀ req pods env t, (filter req pods env t).1.1.Sublist pods

inductive Filter.All (P : FilterFunc π → Prop) : Filter π → Prop
  | node (f : Filter π) (here : P f.filter)
      (successors : ∀ success g, f.next success = some g → Filter.All P g) : Filter.All P f

inductive Filter.Ends (P : FilterFunc π → Prop) : Filter π → Prop
  | node (f : Filter π) (here : ∀ success, f.next success = none → P f.filter)
      (successors : ∀ success g, f.next success = some g → Filter.Ends P g) : Filter.Ends P f

theorem Filter.All.imp {P Q : FilterFunc π → Prop} (weaker : ∀ filter, P filter → Q filter) {f : Filter π}
    (all : f.All P) : f.All Q := by
  induction all with
  | node f here _ ih => exact .node f (weaker _ here) ih

theorem Filter.All.ends {P : FilterFunc π → Prop} {f : Filter π} (all : f.All P) : f.Ends P := by
  induction all with
  | node f here _ ih => exact .node f (fun _ _ => here) ih

theorem Filter.Ends.lastCall {P : FilterFunc π → Prop} {f : Filter π} (ends : f.Ends P)
    (req : LLMRequest) (pods : List π) (env : Env π) (t : Nat) :
    P (f.lastCall req pods env t).filter := by
  induction ends generalizing pods t with
  | node f here _ ih =>
      rw [f.lastCall_eq]
      split
      · exact here _ (by assumption)
      · exact ih _ _ (by assumption) _ _

theorem Filter.All.lastCall_sublist {f : Filter π} (all : f.All Narrows) (req : LLMRequest)
    (pods : List π) (env : Env π) (t : Nat) : (f.lastCall req pods env t).pods.Sublist pods := by
  induction all generalizing pods t with
  | node f narrows _ ih =>
      rw [f.lastCall_eq]
      split
      · exact .refl pods
      · exact (ih _ _ (by assumption) _ _).trans (handOver_sublist (narrows req pods env t))

theorem Filter.All.run_narrows {f : Filter π} (all : f.All Narrows) : Narrows f.run := by
  intro req pods env t
  rw [f.run_eq_lastCall req pods env t]
  exact (all.ends.lastCall req pods env t _ _ _ _).trans (all.lastCall_sublist req pods env t)

/-! ## The filters that are executed -/

structure Visit (π : Type) where
  node : Filter π
  pods : List π
  clock : Nat

def Visit.result (visit : Visit π) (req : LLMRequest) (env : Env π) : (List π × Option Err) × Nat :=
  visit.node.filter req visit.pods env visit.clock

def Visit.next (req : LLMRequest) (env : Env π) (visit : Visit π) : Option (Visit π) :=
  let result := visit.result req env
  (visit.node.next (succeeded result.1)).map fun node => ⟨node, handOver visit.pods result.1, result.2⟩

/-- The filters that a run executes, one after the other. -/
def Visits (req : LLMRequest) (env : Env π) : Visit π → Visit π → Prop :=
  Relation.ReflTransGen fun visit later => visit.next req env = some later

theorem Filter.exists_last_visit (f : Filter π) (req : LLMRequest) (pods : List π) (env : Env π) (t : Nat) :
    ∃ last, Visits req env ⟨f, pods, t⟩ last ∧ last.next req env = none ∧
      f.run req pods env t = last.result req env := by
  induction f using Filter.induction generalizing pods t with
  | node f ih =>
      rw [f.run_eq]
      cases following : f.next (succeeded (f.filter req pods env t).1) with
      | none => exact ⟨⟨f, pods, t⟩, .refl, by simp [Visit.next, Visit.result, following], rfl⟩
      | some g =>
          obtain ⟨last, visits, final, same⟩ := ih _ g following (handOver pods (f.filter req pods env t).1)
            (f.filter req pods env t).2
          refine ⟨last, .head ?_ visits, final, same⟩
          simp [Visit.next, Visit.result, following]

theorem Visit.no_link_of_last {last : Visit π} {req : LLMRequest} {env : Env π} (final : last.next req env = none) :
    last.node.nextOnSuccessOrFailure = none ∧
    if succeeded (last.result req env).1 then last.node.nextOnSuccess = none else last.node.nextOnFailure = none := by
  simp only [Visit.next, Option.map_eq_none_iff, Filter.next] at final
  split_ifs at final ⊢
  all_goals
    rw [Option.or_eq_none_iff] at final
    exact ⟨final.2, final.1⟩

/-- The run of a tree ends, and what it returns is what the last filter executed returned: a filter
with no link for the outcome it had. -/
theorem filter_tree_narrows {f : Filter π} (all : f.All Narrows) (req : LLMRequest) (pods : List π) (env : Env π)
    (t : Nat) :
    (f.run req pods env t).1.1.Sublist pods ∧
    ∃ last, Visits req env ⟨f, pods, t⟩ last ∧ last.next req env = none ∧
      f.run req pods env t = last.result req env ∧
      ((f.run req pods env t).1.2 ≠ none ∨ (f.run req pods env t).1.1 = [] →
        last.node.nextOnFailure = none ∧ last.node.nextOnSuccessOrFailure = none) := by
  obtain ⟨last, visits, final, same⟩ := f.exists_last_visit req pods env t
  refine ⟨all.run_narrows req pods env t, last, visits, final, same, ?_⟩
  intro failed
  have failure : ¬succeeded (last.result req env).1 = true := by
    rw [succeeded_iff, ← same]
    intro success
    cases failed with
    | inl err => exact err success.1
    | inr empty => exact success.2 empty
  obtain ⟨neither, link⟩ := last.no_link_of_last final
  rw [if_neg failure] at link
  exact ⟨link, neither⟩

def failingLeaf : Filter Nat := { name := "error", filter := fun _ _ => pure ([], some (.new "filter error")) }

def firstPodTree : Filter Nat where
  name := "first pod"
  filter := fun _ pods => pure (pods.take 1, none)
  nextOnFailure := some { name := "all pods", filter := fun _ pods => pure (pods, none) }
  nextOnSuccessOrFailure := some failingLeaf

theorem all_narrows_firstPodTree : firstPodTree.All Narrows := by
  refine .node _ (fun _ pods _ _ => List.take_sublist 1 pods) fun success g link => ?_
  cases success with
  | true =>
      cases link
      refine .node _ (fun _ pods _ _ => List.nil_sublist pods) fun success g link => ?_
      cases success <;> cases link
  | false =>
      cases link
      refine .node _ (fun _ pods _ _ => .refl pods) fun success g link => ?_
      cases success <;> cases link

theorem firstPodTree_narrows :
    let env : Env Nat := ⟨fun _ _ => {}, fun _ => ⟨0, Set.left_mem_Ico.mpr zero_lt_one⟩, fun _ => 0⟩
    let req : LLMRequest := ⟨"model", "model", true⟩
    firstPodTree.All Narrows ∧ (firstPodTree.run req [4, 5] env 0).1 = ([], some (.new "filter error")) ∧
      ∃ last, Visits req env ⟨firstPodTree, [4, 5], 0⟩ last ∧ last.next req env = none ∧
        firstPodTree.run req [4, 5] env 0 = last.result req env := by
  intro env req
  obtain ⟨-, last, visits, final, same, -⟩ := filter_tree_narrows all_narrows_firstPodTree req [4, 5] env 0
  exact ⟨all_narrows_firstPodTree, rfl, last, visits, final, same⟩

end InferenceGateway
