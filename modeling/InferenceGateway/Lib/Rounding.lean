import Mathlib.Data.Int.Log
import Mathlib.Data.Rat.Floor
import Mathlib.Tactic.Linarith
import Mathlib.Tactic.Positivity
import Mathlib.Tactic.Ring

/-!
# Rounding to binary numbers

The numbers with `precision` significant bits, whose last bit stands for no less than `2 ^ least`. A
rational is rounded to the nearest of them, and to the even one if two are equally near. There is no
largest exponent.
-/

namespace InferenceGateway.Lib.Rounding

def halfEven (x : ℚ) : ℤ :=
  if x - ⌊x⌋ < 1 / 2 then ⌊x⌋
  else if 1 / 2 < x - ⌊x⌋ then ⌊x⌋ + 1
  else if ⌊x⌋ % 2 = 0 then ⌊x⌋ else ⌊x⌋ + 1

theorem halfEven_intCast (n : ℤ) : halfEven n = n := by
  simp [halfEven]

theorem halfEven_cases (x : ℚ) : halfEven x = ⌊x⌋ ∨ halfEven x = ⌊x⌋ + 1 := by
  unfold halfEven
  split_ifs
  · exact .inl rfl
  · exact .inr rfl
  · exact .inl rfl
  · exact .inr rfl

theorem abs_halfEven_le {x : ℚ} {bound : ℤ} (small : |x| < bound) : |halfEven x| ≤ bound := by
  obtain ⟨below, above⟩ := abs_lt.mp small
  have lower : -bound ≤ ⌊x⌋ := Int.le_floor.mpr (by push_cast; exact below.le)
  have upper : ⌊x⌋ < bound := Int.floor_lt.mpr above
  rw [abs_le]
  rcases halfEven_cases x with same | next <;> omega

theorem abs_halfEven_sub_le (x : ℚ) : |halfEven x - x| ≤ |x| := by
  have below := Int.floor_le x
  have above := Int.lt_floor_add_one x
  rcases le_or_gt 0 x with nonneg | negative
  · have whole : (0 : ℚ) ≤ ⌊x⌋ := by exact_mod_cast Int.floor_nonneg.mpr nonneg
    rw [abs_of_nonneg nonneg, abs_le, halfEven]
    split_ifs <;> push_cast <;> constructor <;> linarith
  · have whole : (⌊x⌋ : ℚ) + 1 ≤ 0 := by
      have less : ⌊x⌋ < 0 := Int.floor_lt.mpr (by simpa using negative)
      exact_mod_cast less
    rw [abs_of_neg negative, abs_le, halfEven]
    split_ifs <;> push_cast <;> constructor <;> linarith

theorem halfEven_pos {x : ℚ} (large : 1 ≤ x) : 0 < halfEven x := by
  have whole : 1 ≤ ⌊x⌋ := Int.le_floor.mpr (by simpa using large)
  rcases halfEven_cases x with same | next <;> omega

/-- No integer is closer, and the closest is even if another is as close. -/
theorem halfEven_closest (x : ℚ) (m : ℤ) :
    |halfEven x - x| ≤ |m - x| ∧ (|halfEven x - x| = |m - x| → m ≠ halfEven x → Even (halfEven x)) := by
  have below := Int.floor_le x
  have above := Int.lt_floor_add_one x
  rcases le_or_gt m ⌊x⌋ with low | high
  · have left : (m : ℚ) ≤ ⌊x⌋ := by exact_mod_cast low
    rw [abs_of_nonpos (by linarith : (m : ℚ) - x ≤ 0), halfEven]
    split_ifs with down up even
    · rw [abs_of_nonpos (by linarith)]
      refine ⟨by linarith, fun tie other => ?_⟩
      exact absurd (by exact_mod_cast (by linarith : (m : ℚ) = ⌊x⌋)) other
    · push_cast
      rw [abs_of_nonneg (by linarith)]
      exact ⟨by linarith, fun tie _ => by linarith⟩
    · rw [abs_of_nonpos (by linarith)]
      exact ⟨by linarith, fun _ _ => Int.even_iff.mpr even⟩
    · push_cast
      rw [abs_of_nonneg (by linarith)]
      exact ⟨by linarith, fun _ _ => Int.even_iff.mpr (by omega)⟩
  · have right : (⌊x⌋ : ℚ) + 1 ≤ m := by exact_mod_cast high
    rw [abs_of_nonneg (by linarith : (0 : ℚ) ≤ m - x), halfEven]
    split_ifs with down up even
    · rw [abs_of_nonpos (by linarith)]
      exact ⟨by linarith, fun tie _ => by linarith⟩
    · push_cast
      rw [abs_of_nonneg (by linarith)]
      refine ⟨by linarith, fun tie other => ?_⟩
      exact absurd (by exact_mod_cast (by linarith : (m : ℚ) = ⌊x⌋ + 1)) other
    · rw [abs_of_nonpos (by linarith)]
      exact ⟨by linarith, fun _ _ => Int.even_iff.mpr even⟩
    · push_cast
      rw [abs_of_nonneg (by linarith)]
      exact ⟨by linarith, fun _ _ => Int.even_iff.mpr (by omega)⟩

section Precision
variable (precision : ℕ) (least : ℤ)

def lastBit (q : ℚ) : ℤ := max (Int.log 2 |q| + 1 - precision) least

def nearest (q : ℚ) : ℚ := halfEven (q / 2 ^ lastBit precision least q) * 2 ^ lastBit precision least q

def Representable (q : ℚ) : Prop := ∃ m e : ℤ, least ≤ e ∧ |m| < 2 ^ precision ∧ q = m * 2 ^ e

variable {precision least} {q : ℚ}

theorem scaled_eq (q : ℚ) (e : ℤ) : q / 2 ^ e * 2 ^ e = q :=
  div_mul_cancel₀ q (zpow_ne_zero e two_ne_zero)

theorem lastBit_le {m e : ℤ} (low : least ≤ e) (few : |m| < 2 ^ precision) (nonzero : m ≠ 0) :
    lastBit precision least (m * 2 ^ e) ≤ e := by
  have scale : (0 : ℚ) < 2 ^ e := zpow_pos two_pos e
  have size : |(m * 2 ^ e : ℚ)| = |(m : ℚ)| * 2 ^ e := by rw [abs_mul, abs_of_pos scale]
  have positive : (0 : ℚ) < |(m * 2 ^ e : ℚ)| := by
    rw [size]
    exact mul_pos (abs_pos.mpr (Int.cast_ne_zero.mpr nonzero)) scale
  have upper : |(m * 2 ^ e : ℚ)| < ((2 : ℕ) : ℚ) ^ ((precision : ℤ) + e) := by
    have few' : |(m : ℚ)| < 2 ^ (precision : ℤ) := by exact_mod_cast few
    rw [size, Nat.cast_two, zpow_add₀ two_ne_zero]
    exact mul_lt_mul_of_pos_right few' scale
  have bits : Int.log 2 |(m * 2 ^ e : ℚ)| < precision + e :=
    (Int.lt_zpow_iff_log_lt one_lt_two positive).mp upper
  exact max_le (by omega) low

theorem nearest_of_representable (representable : Representable precision least q) :
    nearest precision least q = q := by
  obtain ⟨m, e, low, few, rfl⟩ := representable
  by_cases zero : m = 0
  · subst zero
    have none : halfEven 0 = 0 := halfEven_intCast 0
    simp [nearest, none]
  · -- the last bit of the number is no place above its own exponent, so the quotient is an integer
    obtain ⟨shift, place⟩ := Int.le.dest (lastBit_le low few zero)
    have whole : (m * 2 ^ e : ℚ) / 2 ^ lastBit precision least (m * 2 ^ e) = ((m * 2 ^ shift : ℤ) : ℚ) := by
      rw [div_eq_iff (zpow_ne_zero _ two_ne_zero)]
      push_cast
      rw [mul_assoc, ← zpow_natCast, ← zpow_add₀ two_ne_zero, add_comm (shift : ℤ), place]
    rw [nearest, whole, halfEven_intCast, ← whole, scaled_eq]

theorem abs_scaled_lt (q : ℚ) : |q / 2 ^ lastBit precision least q| < 2 ^ precision := by
  have scale : (0 : ℚ) < 2 ^ lastBit precision least q := zpow_pos two_pos _
  rw [abs_div, abs_of_pos scale, div_lt_iff₀ scale, ← zpow_natCast, ← zpow_add₀ two_ne_zero]
  have upper : |q| < 2 ^ (Int.log 2 |q| + 1) := by
    simpa using Int.lt_zpow_succ_log_self (b := 2) one_lt_two |q|
  refine upper.trans_le (zpow_le_zpow_right₀ one_le_two ?_)
  have place : Int.log 2 |q| + 1 - precision ≤ lastBit precision least q := le_max_left _ _
  omega

theorem representable_nearest (positive : 0 < precision) (q : ℚ) :
    Representable precision least (nearest precision least q) := by
  have low : least ≤ lastBit precision least q := le_max_right _ _
  have size : |halfEven (q / 2 ^ lastBit precision least q)| ≤ (2 ^ precision : ℤ) :=
    abs_halfEven_le (by exact_mod_cast abs_scaled_lt q)
  rcases size.lt_or_eq with few | carry
  · exact ⟨_, _, low, few, rfl⟩
  · -- the rounding carries into a bit more, and the last bit of the sum is zero
    obtain ⟨bits, rfl⟩ := Nat.exists_eq_add_one.mpr positive
    have double : ∃ m : ℤ, |m| < 2 ^ (bits + 1) ∧ halfEven (q / 2 ^ lastBit (bits + 1) least q) = m * 2 := by
      have less : (2 : ℤ) ^ bits < 2 ^ (bits + 1) := pow_lt_pow_right₀ one_lt_two (Nat.lt_succ_self bits)
      rcases (abs_eq (by positivity)).mp carry with up | down
      · exact ⟨2 ^ bits, by rwa [abs_of_pos (by positivity)], by rw [up, pow_succ]⟩
      · exact ⟨-2 ^ bits, by rwa [abs_neg, abs_of_pos (by positivity)], by rw [down, pow_succ, neg_mul]⟩
    obtain ⟨m, few, half⟩ := double
    refine ⟨m, lastBit (bits + 1) least q + 1, by omega, few, ?_⟩
    rw [nearest, half, zpow_add_one₀ two_ne_zero]
    push_cast
    ring

theorem nearest_eq_self_iff (positive : 0 < precision) :
    nearest precision least q = q ↔ Representable precision least q :=
  ⟨fun same => same ▸ representable_nearest positive q, nearest_of_representable⟩

theorem abs_nearest_sub_le (q : ℚ) : |nearest precision least q - q| ≤ |q| := by
  have scale : (0 : ℚ) < 2 ^ lastBit precision least q := zpow_pos two_pos _
  have scaled := abs_halfEven_sub_le (q / 2 ^ lastBit precision least q)
  calc
    |nearest precision least q - q|
      = |halfEven (q / 2 ^ lastBit precision least q) - q / 2 ^ lastBit precision least q| *
          2 ^ lastBit precision least q := by
        rw [← abs_of_pos scale, ← abs_mul, abs_of_pos scale, sub_mul, scaled_eq, nearest]
    _ ≤ |q / 2 ^ lastBit precision least q| * 2 ^ lastBit precision least q := by gcongr
    _ = |q| := by rw [← abs_of_pos scale, ← abs_mul, abs_of_pos scale, scaled_eq]

theorem abs_nearest_sub_le_multiple (q : ℚ) (m : ℤ) :
    |nearest precision least q - q| ≤ |m * 2 ^ lastBit precision least q - q| := by
  have scale : (0 : ℚ) < 2 ^ lastBit precision least q := zpow_pos two_pos _
  have difference (k : ℤ) : |k * 2 ^ lastBit precision least q - q| =
      |k - q / 2 ^ lastBit precision least q| * 2 ^ lastBit precision least q := by
    rw [← abs_of_pos scale, ← abs_mul, abs_of_pos scale, sub_mul, scaled_eq]
  rw [nearest, difference, difference]
  exact mul_le_mul_of_nonneg_right (halfEven_closest _ m).1 scale.le

/-- No representable number is closer. -/
theorem nearest_closest (positive : 0 < precision) (q : ℚ) {r : ℚ} (representable : Representable precision least r) :
    |nearest precision least q - q| ≤ |r - q| := by
  obtain ⟨m, e, low, few, rfl⟩ := representable
  rcases le_or_gt (lastBit precision least q) e with fine | coarse
  · obtain ⟨shift, place⟩ := Int.le.dest fine
    have multiple : (m * 2 ^ e : ℚ) = ((m * 2 ^ shift : ℤ) : ℚ) * 2 ^ lastBit precision least q := by
      push_cast
      rw [mul_assoc, ← zpow_natCast, ← zpow_add₀ two_ne_zero, add_comm (shift : ℤ), place]
    rw [multiple]
    exact abs_nearest_sub_le_multiple q _
  · rcases eq_or_ne q 0 with rfl | nonzero
    · exact (abs_nearest_sub_le 0).trans (by rw [abs_zero]; exact abs_nonneg _)
    -- the number is below the power of two that begins the binade of `q`
    obtain ⟨bits, rfl⟩ := Nat.exists_eq_add_one.mpr positive
    have place : lastBit (bits + 1) least q = Int.log 2 |q| - bits := by
      unfold lastBit at coarse ⊢
      rcases max_cases (Int.log 2 |q| + 1 - ((bits + 1 : ℕ) : ℤ)) least with ⟨same, _⟩ | ⟨same, _⟩ <;> omega
    have leading : (2 : ℚ) ^ bits * 2 ^ lastBit (bits + 1) least q = 2 ^ Int.log 2 |q| := by
      rw [place, ← zpow_natCast, ← zpow_add₀ two_ne_zero]
      congr 1
      omega
    have small : |(m * 2 ^ e : ℚ)| ≤ 2 ^ Int.log 2 |q| := by
      have few' : |(m : ℚ)| ≤ 2 ^ ((bits + 1 : ℕ) : ℤ) := by exact_mod_cast few.le
      have scale : (0 : ℚ) < 2 ^ e := zpow_pos two_pos e
      rw [abs_mul, abs_of_pos scale]
      calc |(m : ℚ)| * 2 ^ e ≤ 2 ^ ((bits + 1 : ℕ) : ℤ) * 2 ^ e := mul_le_mul_of_nonneg_right few' scale.le
        _ = 2 ^ (((bits + 1 : ℕ) : ℤ) + e) := (zpow_add₀ two_ne_zero _ _).symm
        _ ≤ 2 ^ Int.log 2 |q| := zpow_le_zpow_right₀ one_le_two (by omega)
    have below : (2 : ℚ) ^ Int.log 2 |q| ≤ |q| := by
      simpa using Int.zpow_log_le_self (b := 2) one_lt_two (abs_pos.mpr nonzero)
    have bounded : |nearest (bits + 1) least q - q| ≤ |q| - 2 ^ Int.log 2 |q| := by
      generalize (2 : ℚ) ^ Int.log 2 |q| = power at leading below
      rcases le_or_gt 0 q with nonneg | negative
      · have multiple := @abs_nearest_sub_le_multiple (bits + 1) least q (2 ^ bits)
        rw [abs_of_nonneg nonneg] at below ⊢
        push_cast at multiple
        rwa [leading, abs_sub_comm power, abs_of_nonneg (sub_nonneg.mpr below)] at multiple
      · have multiple := @abs_nearest_sub_le_multiple (bits + 1) least q (-2 ^ bits)
        rw [abs_of_neg negative] at below ⊢
        push_cast at multiple
        rw [neg_mul, leading, abs_of_nonneg (by linarith : 0 ≤ -power - q)] at multiple
        linarith
    have apart := abs_sub_abs_le_abs_sub q (m * 2 ^ e)
    rw [abs_sub_comm] at apart
    linarith

theorem monotone_nearest (positive : 0 < precision) : Monotone (nearest precision least) := by
  intro a b le
  by_contra crossed
  have closest (q r : ℚ) := nearest_closest positive q (@representable_nearest precision least positive r)
  have first := closest a b
  have second := closest b a
  -- each result would be at least as close to its own argument as the other one, from the other side
  rcases le_or_gt a (nearest precision least b) with above | below
  · rw [abs_of_nonneg (sub_nonneg.mpr above), abs_of_nonneg (by linarith)] at first
    linarith
  · rcases le_or_gt (nearest precision least a) b with under | outside
    · rw [abs_of_nonpos (by linarith), abs_of_nonpos (by linarith)] at second
      linarith
    · rw [abs_of_pos (by linarith), abs_of_neg (by linarith)] at first
      rw [abs_of_neg (by linarith), abs_of_pos (by linarith)] at second
      have same : a = b := by linarith
      exact crossed (same ▸ le_rfl)

theorem nearest_pos (positive : 0 < precision) (large : 2 ^ least ≤ q) : 0 < nearest precision least q := by
  have scale : (0 : ℚ) < 2 ^ lastBit precision least q := zpow_pos two_pos _
  have above : 0 < q := (zpow_pos two_pos least).trans_le large
  have place : (2 : ℚ) ^ lastBit precision least q ≤ q := by
    rw [← abs_of_pos above] at large
    rw [lastBit]
    rcases max_cases (Int.log 2 |q| + 1 - precision) least with ⟨log, _⟩ | ⟨low, _⟩
    · have leading : (2 : ℚ) ^ Int.log 2 |q| ≤ |q| := by
        simpa using Int.zpow_log_le_self (b := 2) one_lt_two (abs_pos.mpr above.ne')
      rw [log, ← abs_of_pos above, abs_abs]
      refine le_trans (zpow_le_zpow_right₀ one_le_two ?_) leading
      omega
    · rw [low, ← abs_of_pos above]
      exact large
  have whole : 0 < halfEven (q / 2 ^ lastBit precision least q) := halfEven_pos ((one_le_div scale).mpr place)
  rw [nearest]
  exact mul_pos (by exact_mod_cast whole) scale

theorem exists_nearest_intCast (n : ℤ) : ∃ k : ℤ, nearest precision least n = k := by
  rcases le_or_gt 0 (lastBit precision least n) with whole | fraction
  · obtain ⟨shift, place⟩ := Int.eq_ofNat_of_zero_le whole
    refine ⟨halfEven (n / 2 ^ lastBit precision least n) * 2 ^ shift, ?_⟩
    rw [nearest, place, zpow_natCast]
    push_cast
    rfl
  · -- a last bit after the point: the scaled number is an integer
    obtain ⟨shift, place⟩ : ∃ k : ℕ, lastBit precision least n = -k := ⟨(lastBit precision least n).natAbs, by omega⟩
    have integer : (n : ℚ) / 2 ^ lastBit precision least n = ((n * 2 ^ shift : ℤ) : ℚ) := by
      rw [place, zpow_neg, zpow_natCast, div_inv_eq_mul]
      push_cast
      rfl
    exact ⟨n, by rw [nearest, integer, halfEven_intCast, ← integer, scaled_eq]⟩

/-- An integer is representable if few enough bits are left when its trailing zeros are dropped. -/
theorem representable_intCast_iff (low : least ≤ 0) (n : ℤ) :
    Representable precision least n ↔ ∃ (m : ℤ) (k : ℕ), |m| < 2 ^ precision ∧ n = m * 2 ^ k := by
  constructor
  · rintro ⟨m, e, _, few, value⟩
    rcases le_or_gt 0 e with whole | fraction
    · obtain ⟨k, rfl⟩ := Int.eq_ofNat_of_zero_le whole
      exact ⟨m, k, few, by exact_mod_cast value⟩
    · obtain ⟨k, rfl⟩ : ∃ k : ℕ, e = -k := ⟨e.natAbs, by omega⟩
      have product : m = n * 2 ^ k := by
        rw [zpow_neg, zpow_natCast, ← div_eq_mul_inv, eq_div_iff (by positivity)] at value
        exact_mod_cast value.symm
      refine ⟨n, 0, ?_, by ring⟩
      have larger : |n| ≤ |m| := by
        rw [product, abs_mul, abs_of_pos (by positivity : (0 : ℤ) < 2 ^ k)]
        exact le_mul_of_one_le_right (abs_nonneg n) (one_le_pow₀ one_le_two)
      exact larger.trans_lt few
  · rintro ⟨m, k, few, rfl⟩
    exact ⟨m, k, by omega, few, by push_cast; rw [zpow_natCast]⟩

end Precision

end InferenceGateway.Lib.Rounding
