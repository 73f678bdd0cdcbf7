import Mathlib.RingTheory.Multiplicity
import InferenceGateway.Lib.Rounding

/-!
# Shortest decimals

A number is written with as few digits as tell it apart: of the decimals that are rounded to it, a
multiple of the largest power of ten; of these the closest one, and the one with an even last digit
if two are equally close.
-/

namespace InferenceGateway.Lib.ShortestDecimal
open Rounding

section Search
variable (round : ℚ → ℚ) (x : ℚ)

/-- `m` is the multiplier that is taken of those whose multiples of `10 ^ k` are rounded to `x`. -/
structure Closest (k m : ℤ) : Prop where
  rounds : round (m * 10 ^ k) = x
  closest : ∀ n : ℤ, round (n * 10 ^ k) = x → |m * 10 ^ k - x| ≤ |n * 10 ^ k - x|
  even : ∀ n : ℤ, round (n * 10 ^ k) = x → |m * 10 ^ k - x| = |n * 10 ^ k - x| → n ≠ m → Even m

def Unreached (k : ℤ) : Prop := ∀ n : ℤ, round (n * 10 ^ k) ≠ x

/-- The decimal that stands for a number: zero is its own. -/
def IsShortest (d : ℚ) : Prop :=
  if x = 0 then d = 0
  else ∃ k m : ℤ, d = m * 10 ^ k ∧ Closest round x k m ∧ ∀ j > k, Unreached round x j

def multiplier (k : ℤ) : Option ℤ :=
  [halfEven (x / 10 ^ k), ⌊x / 10 ^ k⌋, ⌈x / 10 ^ k⌉].find? fun m => round (m * 10 ^ k) = x

def search : Nat → ℤ → ℚ
  | 0, _ => x
  | steps + 1, k =>
    match multiplier round x k with
    | some m => m * 10 ^ k
    | none => search steps (k - 1)

/-- A power of ten that is larger than twice the number. -/
def top : ℕ := Nat.log 10 ⌈2 * |x|⌉₊ + 1

def shortest : ℚ := if x = 0 then 0 else search round x (top x + x.den + 1) (top x)

/-- What a rounding does around a number that it leaves alone. -/
structure Keeps : Prop where
  monotone : Monotone round
  zero : round 0 = 0
  self : round x = x
  double : round (2 * x) = 2 * x

variable {round x}

theorem Keeps.between (keeps : Keeps round x) {y z : ℚ} (rounds : round y = x)
    (between : (y ≤ z ∧ z ≤ x) ∨ (x ≤ z ∧ z ≤ y)) : round z = x := by
  rcases between with ⟨after, before⟩ | ⟨after, before⟩
  · have lower := keeps.monotone after
    have upper := keeps.monotone before
    rw [rounds] at lower
    rw [keeps.self] at upper
    exact le_antisymm upper lower
  · have lower := keeps.monotone after
    have upper := keeps.monotone before
    rw [rounds] at upper
    rw [keeps.self] at lower
    exact le_antisymm upper lower

theorem scaled_eq (k : ℤ) : x / 10 ^ k * 10 ^ k = x := div_mul_cancel₀ x (zpow_ne_zero k (by norm_num))

theorem abs_multiple_sub (k m : ℤ) : |m * 10 ^ k - x| = |m - x / 10 ^ k| * 10 ^ k := by
  have scale : (0 : ℚ) < 10 ^ k := zpow_pos (by norm_num) k
  rw [← abs_of_pos scale, ← abs_mul, abs_of_pos scale, sub_mul, scaled_eq]

theorem Keeps.floor (keeps : Keeps round x) {k n : ℤ} (rounds : round (n * 10 ^ k) = x) (low : n ≤ ⌊x / 10 ^ k⌋) :
    round (⌊x / 10 ^ k⌋ * 10 ^ k) = x := by
  have scale : (0 : ℚ) < 10 ^ k := zpow_pos (by norm_num) k
  refine keeps.between rounds (.inl ⟨?_, ?_⟩)
  · exact mul_le_mul_of_nonneg_right (by exact_mod_cast low) scale.le
  · exact (le_div_iff₀ scale).mp (Int.floor_le _)

theorem Keeps.ceil (keeps : Keeps round x) {k n : ℤ} (rounds : round (n * 10 ^ k) = x) (high : ⌈x / 10 ^ k⌉ ≤ n) :
    round (⌈x / 10 ^ k⌉ * 10 ^ k) = x := by
  have scale : (0 : ℚ) < 10 ^ k := zpow_pos (by norm_num) k
  refine keeps.between rounds (.inr ⟨?_, ?_⟩)
  · exact (div_le_iff₀ scale).mp (Int.le_ceil _)
  · exact mul_le_mul_of_nonneg_right (by exact_mod_cast high) scale.le

theorem closest_halfEven {k : ℤ} (rounds : round (halfEven (x / 10 ^ k) * 10 ^ k) = x) :
    Closest round x k (halfEven (x / 10 ^ k)) where
  rounds := rounds
  closest n _ := by
    rw [abs_multiple_sub, abs_multiple_sub]
    exact mul_le_mul_of_nonneg_right (halfEven_closest _ n).1 (zpow_pos (by norm_num) k).le
  even n _ tie other := by
    have scale : (10 : ℚ) ^ k ≠ 0 := zpow_ne_zero k (by norm_num)
    rw [abs_multiple_sub, abs_multiple_sub] at tie
    exact (halfEven_closest _ n).2 (mul_right_cancel₀ scale tie) other

/-- A multiplier on the one side of the number, when none on the other side will do. -/
theorem closest_of_side {k m : ℤ} (rounds : round (m * 10 ^ k) = x)
    (side : ∀ n : ℤ, round (n * 10 ^ k) = x → n ≠ m → |m - x / 10 ^ k| < |n - x / 10 ^ k|) :
    Closest round x k m := by
  have scale : (0 : ℚ) < 10 ^ k := zpow_pos (by norm_num) k
  have farther (n : ℤ) (other : round (n * 10 ^ k) = x) (different : n ≠ m) :
      |m * 10 ^ k - x| < |n * 10 ^ k - x| := by
    rw [abs_multiple_sub, abs_multiple_sub]
    exact mul_lt_mul_of_pos_right (side n other different) scale
  refine ⟨rounds, ?_, ?_⟩
  · intro n other
    rcases eq_or_ne n m with rfl | different
    · exact le_rfl
    · exact (farther n other different).le
  · intro n other tie different
    exact absurd tie (farther n other different).ne

theorem Keeps.closest_floor (keeps : Keeps round x) {k : ℤ} (rounds : round (⌊x / 10 ^ k⌋ * 10 ^ k) = x)
    (missed : round (halfEven (x / 10 ^ k) * 10 ^ k) ≠ x) : Closest round x k ⌊x / 10 ^ k⌋ := by
  have below := Int.floor_le (x / 10 ^ k)
  have above := Int.lt_floor_add_one (x / 10 ^ k)
  have next : halfEven (x / 10 ^ k) = ⌊x / 10 ^ k⌋ + 1 := by
    rcases halfEven_cases (x / 10 ^ k) with same | next
    · rw [same] at missed
      exact absurd rounds missed
    · exact next
  apply closest_of_side rounds
  intro n other different
  have low : n < ⌊x / 10 ^ k⌋ := by
    by_contra high
    have ceil : ⌈x / 10 ^ k⌉ ≤ ⌊x / 10 ^ k⌋ + 1 := Int.ceil_le.mpr (by push_cast; exact above.le)
    have reached := keeps.ceil other (by omega)
    rcases (Int.le_ceil (x / 10 ^ k)).lt_or_eq with strict | integer
    · have larger : ⌊x / 10 ^ k⌋ < ⌈x / 10 ^ k⌉ := by exact_mod_cast below.trans_lt strict
      have same : ⌈x / 10 ^ k⌉ = ⌊x / 10 ^ k⌋ + 1 := by omega
      rw [next, ← same] at missed
      exact missed reached
    · have fixed : halfEven (x / 10 ^ k) = ⌈x / 10 ^ k⌉ := by
        nth_rewrite 1 [integer]
        exact halfEven_intCast _
      rw [fixed] at missed
      exact missed reached
  have left : (n : ℚ) < ⌊x / 10 ^ k⌋ := by exact_mod_cast low
  rw [abs_of_nonpos (by linarith), abs_of_nonpos (by linarith)]
  linarith

theorem Keeps.closest_ceil (keeps : Keeps round x) {k : ℤ} (rounds : round (⌈x / 10 ^ k⌉ * 10 ^ k) = x)
    (missed : round (⌊x / 10 ^ k⌋ * 10 ^ k) ≠ x) : Closest round x k ⌈x / 10 ^ k⌉ := by
  apply closest_of_side rounds
  intro n other different
  have low : ⌊x / 10 ^ k⌋ < n := by
    by_contra high
    exact missed (keeps.floor other (by omega))
  have right : (⌈x / 10 ^ k⌉ : ℚ) < n := by
    have ceil : ⌈x / 10 ^ k⌉ ≤ n := (Int.ceil_le_floor_add_one _).trans low
    exact_mod_cast lt_of_le_of_ne ceil different.symm
  have above := Int.le_ceil (x / 10 ^ k)
  rw [abs_of_nonneg (by linarith), abs_of_nonneg (by linarith)]
  linarith

theorem Keeps.closest_multiplier (keeps : Keeps round x) {k m : ℤ} (found : multiplier round x k = some m) :
    Closest round x k m := by
  simp only [multiplier, List.find?_cons, List.find?_nil] at found
  split at found
  · rename_i rounds
    cases found
    exact closest_halfEven (of_decide_eq_true rounds)
  · rename_i missed
    split at found
    · rename_i rounds
      cases found
      exact keeps.closest_floor (of_decide_eq_true rounds) (of_decide_eq_false missed)
    · rename_i missed'
      split at found
      · rename_i rounds
        cases found
        exact keeps.closest_ceil (of_decide_eq_true rounds) (of_decide_eq_false missed')
      · cases found

theorem Keeps.unreached_of_multiplier (keeps : Keeps round x) {k : ℤ} (missed : multiplier round x k = none) :
    Unreached round x k := by
  intro n rounds
  have none (m : ℤ) (listed : m ∈ [halfEven (x / 10 ^ k), ⌊x / 10 ^ k⌋, ⌈x / 10 ^ k⌉]) : round (m * 10 ^ k) ≠ x := by
    simpa using List.find?_eq_none.mp missed m listed
  rcases le_or_gt n ⌊x / 10 ^ k⌋ with low | high
  · exact none _ (by simp) (keeps.floor rounds low)
  · exact none _ (by simp) (keeps.ceil rounds ((Int.ceil_le_floor_add_one _).trans high))

theorem Keeps.exists_search (keeps : Keeps round x) {steps : Nat} {k bottom : ℤ}
    (high : ∀ j > k, Unreached round x j) (reached : ¬Unreached round x bottom) (enough : k - steps < bottom) :
    ∃ j m : ℤ, search round x steps k = m * 10 ^ j ∧ Closest round x j m ∧ ∀ i > j, Unreached round x i := by
  induction steps generalizing k with
  | zero => exact absurd (high bottom (by simpa using enough)) reached
  | succ steps ih =>
      rw [search]
      cases found : multiplier round x k with
      | some m => exact ⟨k, m, rfl, keeps.closest_multiplier found, high⟩
      | none =>
          refine ih (fun j above => ?_) (by push_cast at enough; omega)
          rcases (Int.le_of_sub_one_lt above).eq_or_lt with rfl | larger
          · exact keeps.unreached_of_multiplier found
          · exact high j larger

theorem search_cases (steps : Nat) (k : ℤ) :
    search round x steps k = x ∨ ∃ j m : ℤ, search round x steps k = m * 10 ^ j := by
  induction steps generalizing k with
  | zero => exact .inl rfl
  | succ steps ih =>
      rw [search]
      cases multiplier round x k with
      | some m => exact .inr ⟨k, m, rfl⟩
      | none => exact ih (k - 1)

theorem shortest_cases : shortest round x = x ∨ ∃ j m : ℤ, shortest round x = m * 10 ^ j := by
  rw [shortest]
  split_ifs with zero
  · exact .inl zero.symm
  · exact search_cases _ _

theorem lt_ten_pow_top : 2 * |x| < 10 ^ top x := by
  have next := Nat.lt_pow_succ_log_self (b := 10) (by decide) ⌈2 * |x|⌉₊
  calc 2 * |x| ≤ ⌈2 * |x|⌉₊ := Nat.le_ceil _
    _ < ((10 ^ (Nat.log 10 ⌈2 * |x|⌉₊ + 1) : ℕ) : ℚ) := by exact_mod_cast next
    _ = 10 ^ top x := by push_cast; rfl

/-- A decimal that is larger than twice the number is rounded to another one. -/
theorem Keeps.ne_of_large (keeps : Keeps round x) (nonzero : x ≠ 0) {d : ℚ} (large : 2 * |x| < |d|) : round d ≠ x := by
  intro rounds
  rcases lt_or_gt_of_ne nonzero with negative | positive
  · rw [abs_of_neg negative] at large
    rcases le_or_gt 0 d with nonneg | below
    · have upper := keeps.monotone nonneg
      rw [keeps.zero, rounds] at upper
      exact absurd upper negative.not_ge
    · rw [abs_of_neg below] at large
      have upper := keeps.monotone (show d ≤ 2 * x by linarith)
      rw [keeps.double, rounds] at upper
      linarith
  · rw [abs_of_pos positive] at large
    rcases le_or_gt d 0 with nonpos | above
    · have lower := keeps.monotone nonpos
      rw [keeps.zero, rounds] at lower
      exact absurd lower positive.not_ge
    · rw [abs_of_pos above] at large
      have lower := keeps.monotone (show 2 * x ≤ d by linarith)
      rw [keeps.double, rounds] at lower
      linarith

theorem Keeps.unreached_of_top (keeps : Keeps round x) (nonzero : x ≠ 0) {k : ℤ} (high : (top x : ℤ) < k) :
    Unreached round x k := by
  intro n rounds
  rcases eq_or_ne n 0 with rfl | some
  · rw [Int.cast_zero, zero_mul, keeps.zero] at rounds
    exact nonzero rounds.symm
  · have power : (10 : ℚ) ^ top x ≤ 10 ^ k := by
      rw [← zpow_natCast]
      exact zpow_le_zpow_right₀ (by norm_num) high.le
    have one : (1 : ℚ) ≤ |(n : ℚ)| := by exact_mod_cast Int.one_le_abs some
    have scale : (0 : ℚ) < 10 ^ k := zpow_pos (by norm_num) k
    refine keeps.ne_of_large nonzero ?_ rounds
    rw [abs_mul, abs_of_pos scale]
    calc 2 * |x| < 10 ^ top x := lt_ten_pow_top
      _ ≤ 1 * 10 ^ k := by rw [one_mul]; exact power
      _ ≤ |(n : ℚ)| * 10 ^ k := mul_le_mul_of_nonneg_right one scale.le

theorem exists_multiple {places : ℕ} (decimal : x.den ∣ 10 ^ places) : ∃ m : ℤ, x = m * 10 ^ (-(places : ℤ)) := by
  obtain ⟨factor, power⟩ := decimal
  refine ⟨x.num * factor, ?_⟩
  have denominator : (x.den : ℚ) ≠ 0 := by exact_mod_cast x.den_nz
  have power' : (10 : ℚ) ^ places = x.den * factor := by exact_mod_cast power
  rw [zpow_neg, zpow_natCast, ← div_eq_mul_inv, eq_div_iff (by positivity), power']
  nth_rewrite 1 [← Rat.num_div_den x]
  push_cast
  field_simp

theorem Keeps.isShortest_shortest (keeps : Keeps round x) (decimal : x.den ∣ 10 ^ x.den) :
    IsShortest round x (shortest round x) := by
  rw [IsShortest, shortest]
  split_ifs with zero
  · rfl
  · obtain ⟨m, value⟩ := exists_multiple decimal
    refine keeps.exists_search (fun j above => keeps.unreached_of_top zero above) (fun unreached => ?_)
      (by push_cast; omega : (top x : ℤ) - _ < -(x.den : ℤ))
    exact unreached m (by rw [← value]; exact keeps.self)

/-! ## There is only one -/

theorem Closest.unique {k m n : ℤ} (first : Closest round x k m) (second : Closest round x k n)
    (keeps : Keeps round x) : m = n := by
  by_contra different
  have scale : (0 : ℚ) < 10 ^ k := zpow_pos (by norm_num) k
  have tie := le_antisymm (first.closest n second.rounds) (second.closest m first.rounds)
  obtain ⟨a, rfl⟩ := first.even n second.rounds tie (Ne.symm different)
  obtain ⟨b, rfl⟩ := second.even _ first.rounds tie.symm different
  rw [abs_multiple_sub, abs_multiple_sub, mul_left_inj' scale.ne'] at tie
  -- two even multipliers that are equally far have an integer half-way, which is the number itself
  have middle : x / 10 ^ k = ((a + b : ℤ) : ℚ) := by
    rcases abs_eq_abs.mp tie with same | opposite
    · have equal : ((a + a : ℤ) : ℚ) = ((b + b : ℤ) : ℚ) := by linarith
      exact absurd (by exact_mod_cast equal) different
    · push_cast at opposite ⊢
      linarith
  have exact : round (((a + b : ℤ) : ℚ) * 10 ^ k) = x := by rw [← middle, scaled_eq, keeps.self]
  have near := first.closest (a + b) exact
  rw [abs_multiple_sub, abs_multiple_sub, ← middle, sub_self, abs_zero, zero_mul] at near
  have nothing : |((a + a : ℤ) : ℚ) - x / 10 ^ k| = 0 := by
    refine le_antisymm ?_ (abs_nonneg _)
    by_contra some
    exact absurd near (not_le.mpr (mul_pos (not_le.mp some) scale))
  rw [middle, abs_eq_zero, sub_eq_zero] at nothing
  have equal : a + a = a + b := by exact_mod_cast nothing
  omega

theorem IsShortest.unique {d e : ℚ} (first : IsShortest round x d) (second : IsShortest round x e)
    (keeps : Keeps round x) : d = e := by
  unfold IsShortest at first second
  split_ifs at first second
  · rw [first, second]
  · obtain ⟨k, m, rfl, close, least⟩ := first
    obtain ⟨j, n, rfl, close', least'⟩ := second
    rcases lt_trichotomy k j with less | rfl | more
    · exact absurd close'.rounds (least j less n)
    · rw [close.unique close' keeps]
    · exact absurd close.rounds (least' k more m)

theorem Keeps.shortest_eq_iff (keeps : Keeps round x) (decimal : x.den ∣ 10 ^ x.den) {d : ℚ} :
    shortest round x = d ↔ IsShortest round x d := by
  constructor
  · rintro rfl
    exact keeps.isShortest_shortest decimal
  · intro is
    exact (keeps.isShortest_shortest decimal).unique is keeps

theorem IsShortest.rounds {d : ℚ} (is : IsShortest round x d) (keeps : Keeps round x) : round d = x := by
  unfold IsShortest at is
  split_ifs at is with zero
  · rw [is, zero, keeps.zero]
  · obtain ⟨k, m, rfl, close, _⟩ := is
    exact close.rounds

/-! ## Integers -/

section Integers
variable {bound n : ℤ} (monotone : Monotone round) (exact : ∀ i : ℤ, |i| ≤ bound → round i = i)
include monotone exact

theorem round_ne_of_ne {i : ℤ} (small : |n| < bound) (different : i ≠ n) : round i ≠ n := by
  intro rounds
  obtain ⟨below, above⟩ := abs_lt.mp small
  have limit : |bound| = bound := abs_of_nonneg ((abs_nonneg n).trans small.le)
  rcases le_or_gt |i| bound with inside | outside
  · rw [exact i inside] at rounds
    exact different (by exact_mod_cast rounds)
  · rcases lt_abs.mp outside with high | low
    · have upper := monotone (show (bound : ℚ) ≤ i by exact_mod_cast high.le)
      rw [rounds, exact bound limit.le] at upper
      exact absurd (by exact_mod_cast upper) (not_le.mpr above)
    · have lower := monotone (show (i : ℚ) ≤ ((-bound : ℤ) : ℚ) by exact_mod_cast (by omega : i ≤ -bound))
      rw [rounds, exact (-bound) (by rw [abs_neg, limit])] at lower
      exact absurd (by exact_mod_cast lower) (not_le.mpr below)

/-- Where every integer is left alone, an integer is its own shortest decimal. -/
theorem isShortest_intCast (small : |n| < bound) : IsShortest round n n := by
  unfold IsShortest
  split_ifs with zero
  · exact zero
  · have finite : FiniteMultiplicity 10 n := Int.finiteMultiplicity_iff.mpr ⟨by decide, by exact_mod_cast zero⟩
    obtain ⟨m, power, last⟩ := finite.exists_eq_pow_mul_and_not_dvd
    generalize multiplicity 10 n = k at power
    have value : (n : ℚ) = m * 10 ^ (k : ℤ) := by
      rw [power, zpow_natCast]
      push_cast
      ring
    refine ⟨k, m, value, ⟨by rw [← value]; exact exact n small.le, ?_, ?_⟩, ?_⟩
    · intro i _
      rw [← value, sub_self, abs_zero]
      exact abs_nonneg _
    · intro i _ tie different
      rw [← value, sub_self, abs_zero, eq_comm, abs_eq_zero, sub_eq_zero, value] at tie
      have same := mul_right_cancel₀ (zpow_ne_zero _ (by norm_num)) tie
      exact absurd (by exact_mod_cast same) different
    · intro j above i
      obtain ⟨shift, rfl⟩ : ∃ shift : ℕ, j = (k + 1 + shift : ℕ) := ⟨(j - k - 1).toNat, by omega⟩
      have integer : (i * 10 ^ ((k + 1 + shift : ℕ) : ℤ) : ℚ) = ((i * 10 ^ (k + 1 + shift) : ℤ) : ℚ) := by
        rw [zpow_natCast]
        push_cast
        rfl
      rw [integer]
      apply round_ne_of_ne monotone exact small
      intro same
      refine last ⟨i * 10 ^ shift, mul_left_cancel₀ (pow_ne_zero k (by norm_num : (10 : ℤ) ≠ 0)) ?_⟩
      rw [← power, ← same]
      ring

end Integers

end Search

end InferenceGateway.Lib.ShortestDecimal
