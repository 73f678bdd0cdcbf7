import Mathlib.Init

/-!
# Outcomes

What a computation that may fail ensures: a postcondition where it returns, and another one of the
error where it fails.
-/

namespace InferenceGateway.Lib.Outcome

variable {E A B : Type} {fails : E → Prop}

def Ensures (result : Except E A) (post : A → Prop) (fails : E → Prop) : Prop :=
  match result with
  | .ok a => post a
  | .error e => fails e

@[simp] theorem ensures_ok {a : A} {post : A → Prop} : Ensures (.ok a) post fails ↔ post a := Iff.rfl

@[simp] theorem ensures_error {e : E} {post : A → Prop} : Ensures (.error e) post fails ↔ fails e := Iff.rfl

@[simp] theorem ensures_pure {a : A} {post : A → Prop} : Ensures (pure a) post fails ↔ post a := Iff.rfl

theorem exists_of_bind_ok {first : Except E A} {next : A → Except E B} {b : B} (done : (first >>= next) = .ok b) :
    ∃ a, first = .ok a ∧ next a = .ok b := by
  cases first with
  | error => cases done
  | ok a => exact ⟨a, rfl, done⟩

theorem exists_of_any {result : Except E A} {p : A → Bool} (holds : result.toOption.any p = true) :
    ∃ a, result = .ok a ∧ p a = true := by
  cases result with
  | error e => cases holds
  | ok a => exact ⟨a, rfl, holds⟩

theorem Ensures.bind {result : Except E A} {f : A → Except E B} {mid : A → Prop} {post : B → Prop}
    (first : Ensures result mid fails) (rest : ∀ a, mid a → Ensures (f a) post fails) :
    Ensures (result >>= f) post fails := by
  cases result with
  | ok a => exact rest a first
  | error e => exact first

theorem Ensures.mono {result : Except E A} {post post' : A → Prop} (ensures : Ensures result post fails)
    (weaker : ∀ a, post a → post' a) : Ensures result post' fails := by
  cases result with
  | ok a => exact weaker a ensures
  | error e => exact ensures

theorem Ensures.and {result : Except E A} {post post' : A → Prop} {fails' : E → Prop}
    (first : Ensures result post fails) (second : Ensures result post' fails') :
    Ensures result (fun a => post a ∧ post' a) fails := by
  cases result with
  | ok a => exact ⟨first, second⟩
  | error e => exact first

/-- The rule for loops over a list. The invariant may speak of the elements to come. -/
theorem ensures_foldlM {f : B → A → Except E B} {I : List A → B → Prop}
    (step : ∀ a rest b, I (a :: rest) b → Ensures (f b a) (I rest) fails) {list : List A} {b : B}
    (start : I list b) : Ensures (list.foldlM f b) (I []) fails := by
  induction list generalizing b with
  | nil => exact start
  | cons a rest ih =>
      rw [List.foldlM_cons]
      exact Ensures.bind (step a rest b start) fun b' holds => ih holds

end InferenceGateway.Lib.Outcome
