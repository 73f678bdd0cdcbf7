import Mathlib.Data.List.Induction
import Mathlib.Logic.Function.Basic

/-!
# Threads over a shared state

Threads take turns. A turn is one atomic step of one thread, together with what the environment
chooses for that step. It changes the thread and the shared state, or it goes wrong.
-/

namespace InferenceGateway.Lib.Threads

structure State (ι T S : Type) where
  threads : ι → T
  shared : S

variable {ι T S C : Type} [DecidableEq ι]

def turn (step : C → T → S → Option (T × S)) (s : State ι T S) (at_ : ι × C) : Option (State ι T S) :=
  (step at_.2 (s.threads at_.1) s.shared).map fun moved =>
    ⟨Function.update s.threads at_.1 moved.1, moved.2⟩

def run (step : C → T → S → Option (T × S)) (schedule : List (ι × C)) (s : State ι T S) :
    Option (State ι T S) :=
  schedule.foldlM (turn step) s

/-- Some turn of the schedule is taken in a state with the event. -/
def Happens (event : State ι T S → ι → Prop) (step : C → T → S → Option (T × S)) (schedule : List (ι × C))
    (s : State ι T S) : Prop :=
  ∃ before at_ after s', schedule = before ++ at_ :: after ∧ run step before s = some s' ∧ event s' at_.1

variable {step : C → T → S → Option (T × S)} {s : State ι T S}

theorem turn_of_step {at_ : ι × C} {thread : T} {shared : S}
    (moved : step at_.2 (s.threads at_.1) s.shared = some (thread, shared)) :
    turn step s at_ = some ⟨Function.update s.threads at_.1 thread, shared⟩ := by
  rw [turn, moved, Option.map_some]

theorem run_append_singleton {before : List (ι × C)} {s' : State ι T S} (ran : run step before s = some s')
    (at_ : ι × C) : run step (before ++ [at_]) s = turn step s' at_ := by
  rw [run, List.foldlM_append, ← run, ran]
  simp

theorem happens_nil {event : State ι T S → ι → Prop} : ¬Happens event step [] s := by
  rintro ⟨before, at_, after, s', split, _⟩
  simp at split

theorem happens_cons {event : State ι T S → ι → Prop} {at_ : ι × C} {schedule : List (ι × C)} :
    Happens event step (at_ :: schedule) s ↔
      event s at_.1 ∨ ∃ s', turn step s at_ = some s' ∧ Happens event step schedule s' := by
  constructor
  · rintro ⟨before, first, after, s', split, ran, occurs⟩
    cases before with
    | nil =>
        obtain ⟨rfl, rfl⟩ := List.cons.inj split
        obtain rfl := Option.some.inj ran
        exact .inl occurs
    | cons head before =>
        obtain ⟨rfl, rfl⟩ := List.cons.inj split
        rw [run, List.foldlM_cons] at ran
        obtain ⟨next, turned, rest⟩ := Option.bind_eq_some_iff.mp ran
        exact .inr ⟨next, turned, before, first, after, s', rfl, rest, occurs⟩
  · rintro (occurs | ⟨next, turned, before, first, after, s', rfl, ran, occurs⟩)
    · exact ⟨[], at_, schedule, s, rfl, rfl, occurs⟩
    · refine ⟨at_ :: before, first, after, s', rfl, ?_, occurs⟩
      rw [run, List.foldlM_cons, turned]
      exact ran

theorem happens_cons_of_none {event : State ι T S → ι → Prop} {at_ : ι × C} {schedule : List (ι × C)}
    (wrong : turn step s at_ = none) : event s at_.1 ↔ Happens event step (at_ :: schedule) s := by
  simp [happens_cons, wrong]

theorem happens_cons_of_some {event : State ι T S → ι → Prop} {at_ : ι × C} {schedule : List (ι × C)}
    {s' : State ι T S} (turned : turn step s at_ = some s') :
    event s at_.1 ∨ Happens event step schedule s' ↔ Happens event step (at_ :: schedule) s := by
  simp [happens_cons, turned]

instance decidableHappens (event : State ι T S → ι → Prop) [∀ s i, Decidable (event s i)]
    (step : C → T → S → Option (T × S)) :
    (schedule : List (ι × C)) → (s : State ι T S) → Decidable (Happens event step schedule s)
  | [], _ => .isFalse happens_nil
  | at_ :: schedule, s =>
    match turned : turn step s at_ with
    | none => decidable_of_iff _ (happens_cons_of_none turned)
    | some s' =>
      have := decidableHappens event step schedule s'
      decidable_of_iff _ (happens_cons_of_some turned)

theorem happens_append_singleton {event : State ι T S → ι → Prop} {before : List (ι × C)} {s' : State ι T S}
    (ran : run step before s = some s') (at_ : ι × C) :
    Happens event step (before ++ [at_]) s ↔ Happens event step before s ∨ event s' at_.1 := by
  constructor
  · rintro ⟨earlier, first, after, then_, split, ranEarlier, occurs⟩
    rcases List.eq_nil_or_concat after with rfl | ⟨later, last, rfl⟩
    · obtain ⟨rfl, same⟩ := List.append_inj' split rfl
      obtain rfl := List.singleton_inj.mp same
      rw [ran] at ranEarlier
      obtain rfl := Option.some.inj ranEarlier
      exact .inr occurs
    · rw [List.concat_eq_append, ← List.cons_append, ← List.append_assoc] at split
      obtain ⟨rfl, _⟩ := List.append_inj' split rfl
      exact .inl ⟨earlier, first, later, then_, rfl, ranEarlier, occurs⟩
  · rintro (⟨earlier, first, after, then_, rfl, ranEarlier, occurs⟩ | occurs)
    · exact ⟨earlier, first, after ++ [at_], then_, by simp, ranEarlier, occurs⟩
    · exact ⟨before, at_, [], s', rfl, ran, occurs⟩

/-- The rule for runs. The invariant may speak of the turns taken so far; if it keeps every turn
from going wrong, no run goes wrong. -/
theorem run_rule {I : List (ι × C) → State ι T S → Prop} (start : I [] s)
    (goesOn : ∀ before s' at_, run step before s = some s' → I before s' →
      ∃ s'', turn step s' at_ = some s'' ∧ I (before ++ [at_]) s'') (schedule : List (ι × C)) :
    ∃ s', run step schedule s = some s' ∧ I schedule s' := by
  induction schedule using List.reverseRecOn with
  | nil => exact ⟨s, rfl, start⟩
  | append_singleton before at_ ih =>
      obtain ⟨s', ran, holds⟩ := ih
      obtain ⟨s'', turned, kept⟩ := goesOn before s' at_ ran holds
      exact ⟨s'', (run_append_singleton ran at_).trans turned, kept⟩

end InferenceGateway.Lib.Threads
