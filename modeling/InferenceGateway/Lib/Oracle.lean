import Mathlib.Init

/-!
# Computations that query a changing environment

An oracle computation runs against an environment `ε` whose answers may differ from one query to
the next; the state `σ` says how far the environment has advanced. Nothing is assumed about how
the answers of successive queries relate.
-/

namespace InferenceGateway.Lib

abbrev Oracle (ε σ α : Type) := ReaderT ε (StateM σ) α

namespace Oracle
variable {ε σ α β : Type}

@[simp] theorem pure_apply (a : α) (e : ε) (s : σ) : (pure a : Oracle ε σ α) e s = (a, s) := rfl

@[simp] theorem bind_apply (x : Oracle ε σ α) (f : α → Oracle ε σ β) (e : ε) (s : σ) :
    (x >>= f) e s = f (x e s).1 e (x e s).2 := rfl

theorem ite_run (c : Prop) [Decidable c] (x y : Oracle ε σ α) (e : ε) (s : σ) :
    (if c then x else y) e s = if c then x e s else y e s := by
  split <;> rfl

end Oracle
end InferenceGateway.Lib
