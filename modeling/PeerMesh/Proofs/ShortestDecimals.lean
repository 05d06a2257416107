import Mathlib.Tactic.LinearCombination
import PeerMesh.Proofs.Rounding

/-! Shortest decimals. The decimal that is found for a double is in the double's interval, whichever way
ties are broken: on the grid of seventeen digits one neighbour of the double always is. -/

namespace PeerMesh

def Decimal.toRat (d : Decimal) : ℚ := d.digits * 10 ^ d.exponent

namespace Proofs.ShortestDecimals
open Decimal Double Rounding

variable {num den : Nat} {i : Interval} {e : ℤ} {digits : Nat}

theorem onGrid_pos (num : Nat) (positive : 0 < den) (e : ℤ) : 0 < (onGrid num den e).2 := by
  cases e with
  | ofNat e => exact Nat.mul_pos positive (Nat.pow_pos (by decide))
  | negSucc e => exact positive

theorem onGrid_div (num den : Nat) (e : ℤ) :
    ((onGrid num den e).1 : ℚ) / (onGrid num den e).2 = num / den / 10 ^ e := by
  cases e with
  | ofNat e =>
    have scaled : (10 : ℚ) ^ (Int.ofNat e) = (Nat.pow 10 e : Nat) := by
      rw [Int.ofNat_eq_natCast, zpow_natCast, Nat.pow_eq, Nat.cast_pow, Nat.cast_ofNat]
    rw [scaled, onGrid, Nat.cast_mul, div_div]
  | negSucc e =>
    have scaled : (10 : ℚ) ^ (Int.negSucc e) = 1 / (Nat.pow 10 (e + 1) : Nat) := by
      rw [zpow_negSucc, one_div, Nat.pow_eq, Nat.cast_pow, Nat.cast_ofNat]
    rw [scaled, onGrid, Nat.cast_mul]
    field_simp

theorem onGrid_mul (num : Nat) (positive : 0 < den) (e : ℤ) :
    ((onGrid num den e).1 : ℚ) * 10 ^ e = num / den * (onGrid num den e).2 := by
  have size : ((onGrid num den e).2 : ℚ) ≠ 0 := by
    exact_mod_cast (onGrid_pos num positive e).ne'
  have power : (10 : ℚ) ^ e ≠ 0 := by positivity
  exact (div_eq_div_iff size power).mp ((onGrid_div num den e).trans rfl)

private theorem mul_onGrid (num : Nat) (positive : 0 < den) (factor : Nat) (e : ℤ) :
    (factor : ℚ) * (onGrid num den e).1 * 10 ^ e = factor * (num / den) * (onGrid num den e).2 := by
  rw [mul_assoc, onGrid_mul num positive, mul_assoc]

/-- Multiples of a quotient and of a power of ten, compared on its grid. -/
theorem grid_le_iff (positive : 0 < den) (factor digits : Nat) (e : ℤ) :
    factor * (onGrid num den e).1 ≤ digits * (onGrid num den e).2 ↔
      (factor : ℚ) * (num / den) ≤ digits * 10 ^ e := by
  have size : (0 : ℚ) < (onGrid num den e).2 := by exact_mod_cast onGrid_pos num positive e
  have power : (0 : ℚ) < 10 ^ e := by positivity
  rw [← mul_le_mul_iff_of_pos_right size, ← mul_onGrid num positive, mul_right_comm (digits : ℚ),
    mul_le_mul_iff_of_pos_right power]
  exact_mod_cast Iff.rfl

theorem le_grid_iff (positive : 0 < den) (factor digits : Nat) (e : ℤ) :
    digits * (onGrid num den e).2 ≤ factor * (onGrid num den e).1 ↔
      (digits : ℚ) * 10 ^ e ≤ factor * (num / den) := by
  have size : (0 : ℚ) < (onGrid num den e).2 := by exact_mod_cast onGrid_pos num positive e
  have power : (0 : ℚ) < 10 ^ e := by positivity
  rw [← mul_le_mul_iff_of_pos_right size, ← mul_onGrid num positive, mul_right_comm (digits : ℚ),
    mul_le_mul_iff_of_pos_right power]
  exact_mod_cast Iff.rfl

theorem holds_iff (positive : 0 < i.den) : i.holds e digits = true ↔ i.Contains (digits * 10 ^ e) := by
  unfold Interval.holds Interval.Contains Interval.unit
  dsimp only
  split
  · rw [Bool.and_eq_true, decide_eq_true_iff, decide_eq_true_iff, grid_le_iff positive,
      le_grid_iff positive]
  · rw [Bool.and_eq_true, decide_eq_true_iff, decide_eq_true_iff, ← Nat.not_le, ← Nat.not_le,
      grid_le_iff positive, le_grid_iff positive, not_le, not_le]

private def nearestTo (tie : DecimalTie) (num den : Nat) : Nat :=
  if 2 * (num % den) < den then num / den
  else if den < 2 * (num % den) then num / den + 1
  else match tie with
    | .upward => num / den + 1
    | .even => num / den + num / den % 2

private theorem nearest?_eq (i : Interval) (tie : DecimalTie) (e : ℤ) :
    i.nearest? tie e =
      let (n, d) := onGrid i.num i.den e
      let rounded := nearestTo tie (i.value * n) d
      let other := if rounded = i.value * n / d then i.value * n / d + 1 else i.value * n / d
      if i.holds e rounded then some rounded
      else if i.holds e other then some other
      else none := rfl

private theorem nearestTo_near (tie : DecimalTie) (positive : 0 < den) :
    2 * num ≤ 2 * (nearestTo tie num den * den) + den ∧
      2 * (nearestTo tie num den * den) ≤ 2 * num + den := by
  have division : num / den * den + num % den = num := Nat.div_add_mod' num den
  have rest : num % den < den := Nat.mod_lt num positive
  have next : (num / den + 1) * den = num / den * den + den := Nat.succ_mul ..
  unfold nearestTo
  split
  · omega
  split
  · omega
  cases tie with
  | upward =>
    dsimp only
    omega
  | even =>
    dsimp only
    rcases Nat.mod_two_eq_zero_or_one (num / den) with even | odd
    · rw [even, Nat.add_zero]
      omega
    · rw [odd]
      omega

/-- The nearer neighbour of a quotient is at most half a step of the grid away. -/
private theorem nearestTo_onGrid (tie : DecimalTie) (positive : 0 < den) (value : Nat) (e : ℤ) :
    2 * (value * (num / den : ℚ)) ≤
        2 * (nearestTo tie (value * (onGrid num den e).1) (onGrid num den e).2 * 10 ^ e) + 10 ^ e ∧
      2 * (nearestTo tie (value * (onGrid num den e).1) (onGrid num den e).2 * (10 : ℚ) ^ e) ≤
        2 * (value * (num / den)) + 10 ^ e := by
  have size : (0 : ℚ) < (onGrid num den e).2 := by exact_mod_cast onGrid_pos num positive e
  have power : (0 : ℚ) < 10 ^ e := by positivity
  have scaled := onGrid_mul num positive e
  obtain ⟨high, low⟩ := @nearestTo_near (value * (onGrid num den e).1) _ tie (onGrid_pos num positive e)
  generalize nearestTo tie (value * (onGrid num den e).1) (onGrid num den e).2 = near at high low ⊢
  generalize (onGrid num den e).1 = n at scaled high low
  generalize (onGrid num den e).2 = d at scaled high low size
  have high : 2 * ((value : ℚ) * n) ≤ 2 * (near * d) + d := by exact_mod_cast high
  have low : 2 * ((near : ℚ) * d) ≤ 2 * (value * n) + d := by exact_mod_cast low
  constructor
  · refine le_of_mul_le_mul_right ?_ size
    calc 2 * ((value : ℚ) * (num / den)) * d = 2 * (value * n) * 10 ^ e := by
          linear_combination (-2 * (value : ℚ)) * scaled
      _ ≤ (2 * (near * d) + d) * 10 ^ e := by gcongr
      _ = (2 * (near * 10 ^ e) + 10 ^ e) * d := by ring
  · refine le_of_mul_le_mul_right ?_ size
    calc 2 * ((near : ℚ) * 10 ^ e) * d = 2 * (near * d) * 10 ^ e := by ring
      _ ≤ (2 * (value * n) + d) * 10 ^ e := by gcongr
      _ = (2 * (value * (num / den)) + 10 ^ e) * d := by
          linear_combination (2 * (value : ℚ)) * scaled

/-- Of the two neighbours only one that is in the interval is taken. -/
theorem contains_of_nearest? {tie : DecimalTie} (positive : 0 < i.den)
    (found : i.nearest? tie e = some digits) : i.Contains (digits * 10 ^ e) := by
  rw [nearest?_eq] at found
  dsimp only at found
  refine (holds_iff positive).mp ?_
  split at found
  next holds => exact Option.some.inj found ▸ holds
  next =>
    obtain ⟨holds, same⟩ := Option.ite_none_right_eq_some.mp found
    exact Option.some.inj same ▸ holds

/-- Where the grid is fine enough, the nearer neighbour is in the interval. -/
theorem nearest?_isSome (tie : DecimalTie) (positive : 0 < i.den)
    (below : (10 : ℚ) ^ e < 2 * ((i.value - i.low) * i.unit))
    (above : (10 : ℚ) ^ e < 2 * ((i.high - i.value) * i.unit)) : (i.nearest? tie e).isSome = true := by
  obtain ⟨high, low⟩ := @nearestTo_onGrid i.num _ tie positive i.value e
  rw [← Interval.unit] at high low
  have holds : i.holds e (nearestTo tie (i.value * (onGrid i.num i.den e).1) (onGrid i.num i.den e).2)
      = true := by
    rw [holds_iff positive, Interval.Contains]
    split
    · constructor <;> linarith
    · constructor <;> linarith
  rw [nearest?_eq]
  dsimp only
  rw [if_pos holds]
  rfl

private theorem pow_zpow (a : ℚ) (p : ℤ) (n : ℕ) : (a ^ n) ^ p = a ^ (n * p) := by
  rw [← zpow_natCast, ← zpow_mul]

private theorem zpow_pow (a : ℚ) (p : ℤ) (n : ℕ) : (a ^ p) ^ n = a ^ (n * p) := by
  rw [← zpow_natCast, ← zpow_mul, mul_comm]

/-- Powers of two and of ten, compared well enough for all the exponents of doubles. -/
theorem zpow_ten_le {p j : ℤ} (le : 4096 * (p + 1) ≤ 1233 * j) (small : |j| ≤ 4096) :
    (10 : ℚ) ^ p ≤ 2 ^ j := by
  obtain ⟨low, high⟩ := abs_le.mp small
  rcases le_total 0 p with upward | downward
  · have root : ((10 : ℚ) ^ p) ^ 59 ≤ (2 ^ j) ^ 59 := by
      calc ((10 : ℚ) ^ p) ^ 59 = (10 ^ 59) ^ p := by rw [zpow_pow, pow_zpow]
        _ ≤ (2 ^ 196) ^ p := zpow_le_zpow_left₀ upward (by positivity) (by norm_num)
        _ = 2 ^ ((196 : ℕ) * p) := pow_zpow ..
        _ ≤ 2 ^ ((59 : ℕ) * j) := zpow_le_zpow_right₀ (by norm_num) (by omega)
        _ = (2 ^ j) ^ 59 := (zpow_pow ..).symm
    exact le_of_pow_le_pow_left₀ (by norm_num) (by positivity) root
  · have root : ((2 : ℚ) ^ (-j)) ^ 28 ≤ (10 ^ (-p)) ^ 28 := by
      calc ((2 : ℚ) ^ (-j)) ^ 28 = 2 ^ ((28 : ℕ) * -j) := zpow_pow ..
        _ ≤ 2 ^ ((93 : ℕ) * -p) := zpow_le_zpow_right₀ (by norm_num) (by omega)
        _ = (2 ^ 93) ^ (-p) := (pow_zpow ..).symm
        _ ≤ (10 ^ 28) ^ (-p) := zpow_le_zpow_left₀ (by omega) (by positivity) (by norm_num)
        _ = (10 ^ (-p)) ^ 28 := by rw [zpow_pow, pow_zpow]
    have inverse : (2 : ℚ) ^ (-j) ≤ 10 ^ (-p) :=
      le_of_pow_le_pow_left₀ (by norm_num) (by positivity) root
    rw [zpow_neg, zpow_neg] at inverse
    exact (inv_le_inv₀ (by positivity) (by positivity)).mp inverse

private theorem below_iff (positive : 0 < den) (k : ℤ) :
    (onGrid num den k).1 < (onGrid num den k).2 ↔ (num : ℚ) / den < 10 ^ k := by
  have least := @le_grid_iff num _ positive 1 1 k
  rw [Nat.one_mul, Nat.one_mul] at least
  rw [← Nat.not_le, least]
  push_cast
  rw [one_mul, one_mul, not_le]

/-- The place of the first digit is not too high. -/
theorem place_le (numerator : 0 < num) (denominator : 0 < den)
    (small : |(num.log2 : ℤ) - den.log2 - 1| ≤ 4096) :
    (10 : ℚ) ^ (place num den - 1) ≤ num / den := by
  unfold place
  dsimp only
  split
  next =>
    refine (zpow_ten_le ?_ small).trans (log2_bounds numerator denominator).1.le
    rw [Int.fdiv_eq_ediv_of_nonneg _ (by decide)]
    omega
  next first =>
    rw [decide_eq_true_iff, below_iff denominator, not_lt] at first
    split
    next => rwa [add_sub_cancel_right]
    next second =>
      rw [decide_eq_true_iff, below_iff denominator, not_lt] at second
      have step (guess : ℤ) : guess + 2 - 1 = guess + 1 := by ring
      rwa [step]

theorem toRat_trimZeros (fuel digits : Nat) (e : ℤ) :
    (trimZeros fuel digits e).toRat = digits * 10 ^ e := by
  induction fuel generalizing digits e with
  | zero => rfl
  | succ fuel ih =>
    rw [trimZeros]
    split
    next whole =>
      have tens : (digits : ℚ) = 10 * (digits / 10 : Nat) := by
        have division : digits = 10 * (digits / 10) := by omega
        exact_mod_cast division
      rw [ih, tens, zpow_add_one₀ (by norm_num)]
      ring
    next => rfl

variable {d : Double}

private theorem den_pos (d : Double) : 0 < d.interval.den := by
  unfold interval
  dsimp only
  split
  · exact Nat.one_pos
  · exact Nat.pow_pos (by decide)

private theorem num_pos (d : Double) : 0 < d.interval.num := by
  unfold interval
  dsimp only
  split
  · exact Nat.pow_pos (by decide)
  · exact Nat.one_pos

private theorem unit_pos (d : Double) : 0 < d.interval.unit := by
  rw [unit_interval]
  exact div_pos (ulp_pos _) (by norm_num)

/-- The double itself, as a quotient. -/
private theorem value_div (d : Double) :
    ((d.interval.value * d.interval.num : Nat) : ℚ) / d.interval.den =
      4 * d.mantissa * d.interval.unit := by
  have value : d.interval.value = 4 * d.mantissa := rfl
  rw [value, Interval.unit]
  push_cast
  ring

private theorem scale_le (d : Double) : d.scale ≤ 2047 := by
  unfold scale magnitudeBits fractionSize
  omega

private theorem log2_small (nonzero : d.isZero = false) :
    |((d.interval.value * d.interval.num).log2 : ℤ) - d.interval.den.log2 - 1| ≤ 4096 := by
  have mantissa := mantissa_pos nonzero
  have scale := scale_le d
  have size := ulp_pos d.scale
  have positive : 0 < d.interval.value * d.interval.num :=
    Nat.mul_pos (Nat.mul_pos (by decide) mantissa) (num_pos d)
  obtain ⟨low, high⟩ := log2_bounds positive (den_pos d)
  rw [value_div, unit_interval] at low high
  have least : (1 : ℚ) ≤ d.mantissa := by exact_mod_cast mantissa
  have most : (d.mantissa : ℚ) < 2 ^ 53 := by
    rw [← cast_two_fractionSize]
    exact_mod_cast mantissa_lt d
  have below : (2 : ℚ) ^ ((d.scale : ℤ) - 1075) ≤ 4 * d.mantissa * (ulp d.scale / 4) := by
    rw [← ulp]
    nlinarith
  have above : 4 * d.mantissa * (ulp d.scale / 4) < (2 : ℚ) ^ ((53 : ℕ) + (d.scale : ℤ) - 1075) := by
    rw [← mul_ulp]
    nlinarith
  have one : (1 : ℚ) < 2 := by norm_num
  have first := (zpow_lt_zpow_iff_right₀ one).mp (low.trans above)
  have last := (zpow_lt_zpow_iff_right₀ one).mp (below.trans_lt high)
  rw [abs_le]
  constructor <;> omega

/-- The ends of an interval are far enough from the double. -/
private theorem low_le (nonzero : d.isZero = false) : d.interval.low + 1 ≤ d.interval.value ∧
    (d.mantissa ≠ fractionSize → d.interval.low + 2 ≤ d.interval.value) := by
  have mantissa := mantissa_pos nonzero
  have low : d.interval.low =
      if d.mantissa = fractionSize && 1 < d.scale then 4 * d.mantissa - 1 else 4 * d.mantissa - 2 := rfl
  have value : d.interval.value = 4 * d.mantissa := rfl
  rw [low, value]
  constructor
  · split <;> omega
  · intro other
    rw [if_neg (by simp [other])]
    omega

/-- On the grid of seventeen digits the steps are short enough. -/
private theorem grid_fine (nonzero : d.isZero = false) :
    let e := place (d.interval.value * d.interval.num) d.interval.den - 17
    (10 : ℚ) ^ e < 2 * ((d.interval.value - d.interval.low) * d.interval.unit) ∧
      (10 : ℚ) ^ e < 2 * ((d.interval.high - d.interval.value) * d.interval.unit) := by
  intro e
  have size := unit_pos d
  have positive : 0 < d.interval.value * d.interval.num :=
    Nat.mul_pos (Nat.mul_pos (by decide) (mantissa_pos nonzero)) (num_pos d)
  have placed := place_le positive (den_pos d) (log2_small nonzero)
  rw [value_div] at placed
  have exponent : e = place (d.interval.value * d.interval.num) d.interval.den - 1 - 16 := by
    simp only [e]
    ring
  have fine : (10 : ℚ) ^ e ≤ 4 * d.mantissa * d.interval.unit / 10 ^ 16 := by
    rw [exponent, zpow_sub₀ (by norm_num)]
    exact div_le_div_of_nonneg_right placed (by positivity)
  have most : (d.mantissa : ℚ) < 2 ^ 53 := by
    rw [← cast_two_fractionSize]
    exact_mod_cast mantissa_lt d
  have step : (10 : ℚ) ^ e < 4 * d.interval.unit := by
    refine fine.trans_lt ?_
    rw [div_lt_iff₀ (by norm_num)]
    nlinarith
  have ends : (d.interval.high : ℚ) - d.interval.value = 2 := by
    have value : (d.interval.value : ℚ) = 4 * d.mantissa := by
      exact_mod_cast (rfl : d.interval.value = 4 * d.mantissa)
    rw [high_interval, value]
    ring
  refine ⟨?_, by rw [ends]; linarith⟩
  obtain ⟨near, far⟩ := low_le nonzero
  by_cases power : d.mantissa = fractionSize
  · -- Below a power of two the interval is half as long, but there the steps are short as well.
    have near : (d.interval.low : ℚ) + 1 ≤ d.interval.value := by exact_mod_cast near
    rw [power, cast_fractionSize] at fine
    have step : (10 : ℚ) ^ e < 2 * d.interval.unit := by
      refine fine.trans_lt ?_
      rw [div_lt_iff₀ (by norm_num)]
      nlinarith
    nlinarith
  · have far : (d.interval.low : ℚ) + 2 ≤ d.interval.value := by exact_mod_cast far power
    nlinarith

theorem contains_shortest (tie : DecimalTie) (nonzero : d.isZero = false) :
    d.interval.Contains (d.shortest tie).toRat := by
  obtain ⟨below, above⟩ := grid_fine nonzero
  have last := nearest?_isSome tie (den_pos d) below above
  unfold shortest
  dsimp only
  cases found : (List.range 17).findSome? fun (n : Nat) =>
      (d.interval.nearest? tie (place (d.interval.value * d.interval.num) d.interval.den -
        (n + 1 : Nat))).map fun digits => trimZeros 18 digits
          (place (d.interval.value * d.interval.num) d.interval.den - (n + 1 : Nat)) with
  | none =>
    have missing := List.findSome?_eq_none_iff.mp found 16 (by decide)
    have missing : d.interval.nearest? tie (place (d.interval.value * d.interval.num)
        d.interval.den - 17) = none := Option.map_eq_none_iff.mp missing
    rw [missing] at last
    cases last
  | some decimal =>
    obtain ⟨n, -, taken⟩ := List.exists_of_findSome?_eq_some found
    obtain ⟨digits, nearest, rfl⟩ := Option.map_eq_some_iff.mp taken
    rw [Option.getD_some, toRat_trimZeros]
    exact contains_of_nearest? (den_pos d) nearest

end Proofs.ShortestDecimals
end PeerMesh
