import InferenceGateway.Basic
import InferenceGateway.Lib.ShortestDecimal

/-!
# Numbers of type `float64`

A rational is rounded to the nearest float64. The arithmetic here rounds every result.
-/

namespace InferenceGateway
open Lib

def nearestFloat64 (q : ℚ) : ℚ := Rounding.nearest 53 (-1074) q

theorem nearestFloat64_mono : Monotone nearestFloat64 := Rounding.monotone_nearest (by decide)

theorem nearestFloat64_zero : nearestFloat64 0 = 0 :=
  Rounding.nearest_of_representable ⟨0, 0, by decide, by decide, by simp⟩

/-- A number that rounds to more than the largest float64 is an error. -/
def decodeFloat64 (q : ℚ) : Option ℚ := if |nearestFloat64 q| < 2 ^ 1024 then some (nearestFloat64 q) else none

theorem nearestFloat64_nearestFloat64 (q : ℚ) : nearestFloat64 (nearestFloat64 q) = nearestFloat64 q :=
  Rounding.nearest_of_representable (Rounding.representable_nearest (by decide) q)

theorem decodeFloat64_of_decoded {q r : ℚ} (decoded : decodeFloat64 q = some r) : decodeFloat64 r = some r := by
  obtain ⟨small, same⟩ := Option.ite_none_right_eq_some.mp decoded
  cases same
  rw [decodeFloat64, nearestFloat64_nearestFloat64, if_pos small]

def Binary64 (q : ℚ) : Prop := |q| < 2 ^ 1024 ∧ Rounding.Representable 53 (-1074) q

/-- The integers that are float64: at most 53 significant bits, and not too large. -/
def IsFloat64 (n : ℤ) : Prop := |n| < 2 ^ 1024 ∧ ∃ (m : ℤ) (k : ℕ), |m| < 2 ^ 53 ∧ n = m * 2 ^ k

theorem binary64_intCast_iff (n : ℤ) : Binary64 n ↔ IsFloat64 n := by
  have range_iff : |(n : ℚ)| < 2 ^ 1024 ↔ |n| < 2 ^ 1024 := by
    rw [← Int.cast_abs, ← Int.cast_two, ← Int.cast_pow, Int.cast_lt]
  rw [Binary64, IsFloat64, Rounding.representable_intCast_iff (by decide), range_iff]

theorem decodeFloat64_eq_self_iff (q : ℚ) : decodeFloat64 q = some q ↔ Binary64 q := by
  have exact_iff : nearestFloat64 q = q ↔ Rounding.Representable 53 (-1074) q :=
    Rounding.nearest_eq_self_iff (by decide)
  rw [decodeFloat64, Option.ite_none_right_eq_some, Option.some_inj, Binary64, ← exact_iff]
  constructor
  · intro decoded
    exact ⟨decoded.2 ▸ decoded.1, decoded.2⟩
  · intro float
    exact ⟨by rw [float.2]; exact float.1, float.2⟩

theorem decodeFloat64_intCast_of_lt {n : ℤ} (small : |n| < 2 ^ 53) : decodeFloat64 n = some (n : ℚ) := by
  apply (decodeFloat64_eq_self_iff n).mpr
  apply (binary64_intCast_iff n).mpr
  exact ⟨small.trans (pow_lt_pow_right₀ one_lt_two (by decide)), n, 0, small, by ring⟩

/-! ## The digits that are written for a float64 -/

theorem keeps_nearestFloat64 {q : ℚ} (float : nearestFloat64 q = q) :
    ShortestDecimal.Keeps nearestFloat64 q where
  monotone := nearestFloat64_mono
  zero := nearestFloat64_zero
  self := float
  double := by
    obtain ⟨m, e, low, few, value⟩ := (Rounding.nearest_eq_self_iff (by decide)).mp float
    refine Rounding.nearest_of_representable ⟨m, e + 1, by omega, few, ?_⟩
    rw [value, zpow_add_one₀ two_ne_zero]
    ring

/-- The shortest decimal that is rounded to the float64, as `encoding/json` writes it. -/
def encodeFloat64 (q : ℚ) : Option ℚ :=
  if decodeFloat64 q = some q then some (ShortestDecimal.shortest nearestFloat64 q) else none

namespace Float64

/-- What is too large becomes an infinity. -/
def bounded (q : ℚ) : Option ℚ → Float64
  | some r => .finite r
  | none => if 0 < q then .posInf else .negInf

def round : Float64 → Float64
  | .finite q => bounded q (decodeFloat64 q)
  | x => x

-- `float64(n)`
def ofInt (n : Int) : Float64 := round (.finite n)

def plus (a b : Float64) : Float64 := round (add a b)

def quotient (a b : Float64) : Float64 := round (divide a b)

theorem round_finite_iff {q r : ℚ} : round (.finite q) = .finite r ↔ decodeFloat64 q = some r := by
  rw [round]
  cases decodeFloat64 q with
  | some s => simp [bounded]
  | none =>
      rw [bounded]
      split <;> simp

/-- A float64 that is no more than a number is no more than what the number is rounded to. -/
theorem le_round {a : ℚ} (float : round (.finite a) = .finite a) {x : Float64} (below : le (.finite a) x = true) :
    le (.finite a) x.round = true := by
  cases x with
  | nan => cases below
  | negInf => cases below
  | posInf => rfl
  | finite b =>
      have decoded := round_finite_iff.mp float
      obtain ⟨small, same⟩ := Option.ite_none_right_eq_some.mp decoded
      have mono := nearestFloat64_mono (of_decide_eq_true below)
      rw [Option.some_inj] at same
      rw [same] at mono small
      rw [round, decodeFloat64]
      split_ifs with fits
      · exact decide_eq_true mono
      · -- the number is too large, and not a negative one, for then so would be the float64
        have positive : 0 < b := by
          by_contra nonpos
          rw [not_lt] at nonpos
          have below : nearestFloat64 b ≤ 0 := nearestFloat64_zero ▸ nearestFloat64_mono nonpos
          rw [abs_of_nonpos below] at fits
          exact fits ((neg_le_neg mono).trans_lt ((neg_le_abs a).trans_lt small))
        rw [bounded, if_pos positive]
        rfl

theorem round_of_binary64 {q : ℚ} (exact64 : Binary64 q) : round (.finite q) = .finite q :=
  round_finite_iff.mpr ((decodeFloat64_eq_self_iff q).mpr exact64)

theorem ofInt_eq_iff (n : ℤ) : ofInt n = .finite n ↔ IsFloat64 n := by
  rw [ofInt, round_finite_iff, decodeFloat64_eq_self_iff, binary64_intCast_iff]

end Float64

abbrev float64Arithmetic : Arithmetic where
  round := Float64.round

end InferenceGateway
