import Mathlib.Data.List.Infix
import Mathlib.Order.Basic

/-!
# Dialogues with a changing environment

A dialogue asks queries one after the other. The environment answers each by its number, and nothing is
assumed about how the answers of successive queries relate. On the way a dialogue leaves notes. Its log is
what an observer sees: the notes, and the queries with their answers.
-/

namespace InferenceGateway.Lib

inductive Dialogue (Q : Type) (A : Q → Type) (N α : Type)
  | done (a : α)
  | query (q : Q) (next : A q → Dialogue Q A N α)
  | note (n : N) (next : Dialogue Q A N α)

namespace Dialogue
variable {Q N α β π : Type} {A : Q → Type}

inductive Event (Q : Type) (A : Q → Type) (N : Type)
  | answered (q : Q) (a : A q)
  | noted (n : N)

def bind : Dialogue Q A N α → (α → Dialogue Q A N β) → Dialogue Q A N β
  | .done a, f => f a
  | .query q next, f => .query q fun a => (next a).bind f
  | .note n next, f => .note n (next.bind f)

instance : Monad (Dialogue Q A N) where
  pure := .done
  bind := bind

def ask (q : Q) : Dialogue Q A N (A q) := .query q .done

def remark (n : N) : Dialogue Q A N Unit := .note n (.done ())

def keep (test : π → Dialogue Q A N Bool) : List π → Dialogue Q A N (List π)
  | [] => pure []
  | p :: ps => do
      let pass ← test p
      let rest ← keep test ps
      pure (if pass then p :: rest else rest)

section Run
variable (answers : Nat → (q : Q) → A q)

def run : Dialogue Q A N α → Nat → α × Nat
  | .done a, t => (a, t)
  | .query q next, t => (next (answers t q)).run (t + 1)
  | .note _ next, t => next.run t

def log : Dialogue Q A N α → Nat → List (Event Q A N)
  | .done _, _ => []
  | .query q next, t => .answered q (answers t q) :: (next (answers t q)).log (t + 1)
  | .note n next, t => .noted n :: next.log t

@[simp] theorem run_pure (a : α) (t : Nat) : (pure a : Dialogue Q A N α).run answers t = (a, t) := rfl

@[simp] theorem run_ask (q : Q) (t : Nat) : (ask q : Dialogue Q A N (A q)).run answers t = (answers t q, t + 1) := rfl

@[simp] theorem run_remark (n : N) (t : Nat) : (remark n : Dialogue Q A N Unit).run answers t = ((), t) := rfl

@[simp] theorem run_bind (x : Dialogue Q A N α) (f : α → Dialogue Q A N β) (t : Nat) :
    (x >>= f).run answers t = (f (x.run answers t).1).run answers (x.run answers t).2 := by
  change (x.bind f).run answers t = _
  induction x generalizing t with
  | done a => rfl
  | query q next ih => exact ih _ (t + 1)
  | note n next ih => exact ih t

theorem run_ite (c : Prop) [Decidable c] (x y : Dialogue Q A N α) (t : Nat) :
    (if c then x else y).run answers t = if c then x.run answers t else y.run answers t := by
  split <;> rfl

@[simp] theorem log_pure (a : α) (t : Nat) : (pure a : Dialogue Q A N α).log answers t = [] := rfl

@[simp] theorem log_ask (q : Q) (t : Nat) :
    (ask q : Dialogue Q A N (A q)).log answers t = [.answered q (answers t q)] := rfl

@[simp] theorem log_remark (n : N) (t : Nat) : (remark n : Dialogue Q A N Unit).log answers t = [.noted n] := rfl

@[simp] theorem log_bind (x : Dialogue Q A N α) (f : α → Dialogue Q A N β) (t : Nat) :
    (x >>= f).log answers t =
      x.log answers t ++ (f (x.run answers t).1).log answers (x.run answers t).2 := by
  change (x.bind f).log answers t = _
  induction x generalizing t with
  | done a => rfl
  | query q next ih => exact congrArg (List.cons _) (ih _ (t + 1))
  | note n next ih => exact congrArg (List.cons _) (ih t)

variable {answers} in
theorem forall_mem_log {P : Event Q A N → Prop} (noted : ∀ n, P (.noted n)) {t : Nat}
    (answered : ∀ k, t ≤ k → ∀ q, P (.answered q (answers k q))) (x : Dialogue Q A N α) :
    ∀ event ∈ x.log answers t, P event := by
  induction x generalizing t with
  | done a => exact fun _ member => absurd member List.not_mem_nil
  | query q next ih =>
      rw [log, List.forall_mem_cons]
      exact ⟨answered t le_rfl q, ih _ fun k later => answered k (Nat.le_of_succ_le later)⟩
  | note n next ih =>
      rw [log, List.forall_mem_cons]
      exact ⟨noted n, ih answered⟩

/-! ## The elements that pass a test -/

theorem keep_sublist (test : π → Dialogue Q A N Bool) (ps : List π) (t : Nat) :
    ((keep test ps).run answers t).1.Sublist ps := by
  induction ps generalizing t with
  | nil => exact .slnil
  | cons p ps ih =>
      simp only [keep, run_bind, run_pure]
      split
      · exact (ih _).cons_cons p
      · exact (ih _).cons p

end Run

/-! ## What is returned under some observations -/

/-- Whoever answers, if every event of the log is as `P` says, then `a` is returned. -/
def Returns (P : Event Q A N → Prop) (x : Dialogue Q A N α) (a : α) : Prop :=
  ∀ answers t, (∀ event ∈ x.log answers t, P event) → (x.run answers t).1 = a

section Returns
variable {P : Event Q A N → Prop} {x y : Dialogue Q A N α} {a b : α}

theorem returns_pure (P : Event Q A N → Prop) (a : α) : Returns P (pure a) a :=
  fun _ _ _ => rfl

theorem Returns.bind {f : α → Dialogue Q A N β} {b : β} (first : Returns P x a) (second : Returns P (f a) b) :
    Returns P (x >>= f) b := by
  intro answers t observed
  rw [log_bind] at observed
  have value := first answers t fun event member => observed event (List.mem_append_left _ member)
  rw [run_bind, value]
  rw [value] at observed
  exact second answers _ fun event member => observed event (List.mem_append_right _ member)

theorem returns_ite {c : Prop} [Decidable c] (yes : c → Returns P x a) (no : ¬c → Returns P y b) :
    Returns P (if c then x else y) (if c then a else b) := by
  split
  · exact yes (by assumption)
  · exact no (by assumption)

theorem returns_keep {test : π → Dialogue Q A N Bool} {pass : π → Bool} (ps : List π)
    (returns : ∀ p ∈ ps, Returns P (test p) (pass p)) : Returns P (keep test ps) (ps.filter pass) := by
  induction ps with
  | nil => exact returns_pure P []
  | cons p ps ih =>
      refine (returns p (by simp)).bind ((ih fun q member => returns q (by simp [member])).bind ?_)
      rw [List.filter_cons]
      exact returns_pure P _

theorem returns_foldlM {f : β → π → Dialogue Q A N β} {g : β → π → β} (ps : List π)
    (returns : ∀ acc, ∀ p ∈ ps, Returns P (f acc p) (g acc p)) (init : β) :
    Returns P (ps.foldlM f init) (ps.foldl g init) := by
  induction ps generalizing init with
  | nil => exact returns_pure P init
  | cons p ps ih =>
      rw [List.foldlM_cons, List.foldl_cons]
      exact (returns init p (by simp)).bind (ih (fun acc q member => returns acc q (by simp [member])) _)

end Returns

end Dialogue
end InferenceGateway.Lib
