import Mathlib.Algebra.Order.Field.Power
import Mathlib.Tactic.FieldSimp
import Mathlib.Tactic.Linarith
import Mathlib.Tactic.NormNum
import Mathlib.Tactic.Positivity
import Mathlib.Tactic.Ring
import PeerMesh.Double.Shortest

/-! Rounding to doubles. A quotient is rounded at the least scale at which its mantissa fits, to the
nearest integer there. Every number in the interval of a double is rounded to that double, the ends
included where they belong to it, and also where the mantissa of a number just below a power of two is
rounded up to that power. -/

namespace PeerMesh.Double

/-- The weight of the lowest bit of a mantissa at a scale. -/
def ulp (scale : Nat) : ℚ := 2 ^ ((scale : ℤ) - 1075)

/-- What the bounds of an interval are multiples of. -/
def Interval.unit (i : Interval) : ℚ := i.num / i.den

def Interval.Contains (i : Interval) (x : ℚ) : Prop :=
  if i.closed then i.low * i.unit ≤ x ∧ x ≤ i.high * i.unit
  else i.low * i.unit < x ∧ x < i.high * i.unit

end PeerMesh.Double

namespace PeerMesh.Proofs.Rounding
open Double

variable {num den : Nat}

/-- What is at most a half away is the rounded quotient, unless it is odd and just a half away. -/
theorem roundDiv_eq {m : Nat} (positive : 0 < den) (low : 2 * (den * m) ≤ 2 * num + den)
    (high : 2 * num ≤ 2 * (den * m) + den)
    (odd : m % 2 = 1 → 2 * (den * m) < 2 * num + den ∧ 2 * num < 2 * (den * m) + den) :
    roundDiv num den = m := by
  have division : den * (num / den) + num % den = num := Nat.div_add_mod num den
  have rest : num % den < den := Nat.mod_lt num positive
  have lower : num / den ≤ m := by
    by_contra less
    have product : den * (m + 1) ≤ den * (num / den) := Nat.mul_le_mul_left den (by omega)
    rw [Nat.mul_succ] at product
    omega
  have upper : m ≤ num / den + 1 := by
    by_contra more
    have product : den * (num / den + 2) ≤ den * m := Nat.mul_le_mul_left den (by omega)
    rw [Nat.mul_add] at product
    omega
  unfold roundDiv
  dsimp only
  rcases Nat.le_or_eq_of_le_succ upper with least | next
  · obtain rfl : m = num / den := Nat.le_antisymm least lower
    split
    · rfl
    split
    · omega
    · omega
  · subst next
    rw [Nat.mul_succ] at low high odd
    split
    · omega
    split
    · rfl
    · omega

/-- The same of a quotient that is a number. -/
theorem roundDiv_of_near {m : Nat} {y : ℚ} (positive : 0 < den) (same : (num : ℚ) / den = y)
    (low : (m : ℚ) - 1 / 2 ≤ y) (high : y ≤ m + 1 / 2)
    (odd : m % 2 = 1 → (m : ℚ) - 1 / 2 < y ∧ y < m + 1 / 2) : roundDiv num den = m := by
  have size : (0 : ℚ) < den := by exact_mod_cast positive
  have product : (num : ℚ) = y * den := by
    rw [← same]
    field_simp
  refine roundDiv_eq positive ?_ ?_ fun uneven => ?_
  · have scaled : (2 : ℚ) * (den * m) ≤ 2 * num + den := by nlinarith
    exact_mod_cast scaled
  · have scaled : (2 : ℚ) * num ≤ 2 * (den * m) + den := by nlinarith
    exact_mod_cast scaled
  · obtain ⟨above, below⟩ := odd uneven
    constructor
    · have scaled : (2 : ℚ) * (den * m) < 2 * num + den := by nlinarith
      exact_mod_cast scaled
    · have scaled : (2 : ℚ) * num < 2 * (den * m) + den := by nlinarith
      exact_mod_cast scaled

theorem ulp_pos (s : Nat) : 0 < ulp s := by
  unfold ulp
  positivity

theorem ulp_succ (s : Nat) : ulp (s + 1) = 2 * ulp s := by
  have exponent : ((s + 1 : Nat) : ℤ) - 1075 = ((s : ℤ) - 1075) + 1 := by push_cast; ring
  rw [ulp, ulp, exponent, zpow_add_one₀ (by norm_num)]
  ring

theorem ulp_mono {s t : Nat} (le : s ≤ t) : ulp s ≤ ulp t :=
  zpow_le_zpow_right₀ (by norm_num) (by omega)

theorem ulp_of_le {s : Nat} (le : 1075 ≤ s) : ulp s = (Nat.pow 2 (s - 1075) : Nat) := by
  have exponent : (s : ℤ) - 1075 = (s - 1075 : Nat) := by omega
  rw [ulp, exponent, zpow_natCast, Nat.pow_eq, Nat.cast_pow, Nat.cast_ofNat]

theorem ulp_of_lt {s : Nat} (lt : s < 1075) : ulp s = 1 / (Nat.pow 2 (1075 - s) : Nat) := by
  have exponent : (s : ℤ) - 1075 = -((1075 - s : Nat) : ℤ) := by omega
  rw [ulp, exponent, zpow_neg, zpow_natCast, one_div, Nat.pow_eq, Nat.cast_pow, Nat.cast_ofNat]

/-- A quotient as a multiple of an ulp, again as a quotient. -/
theorem div_ulp (num den s : Nat) :
    ((if 1075 ≤ s then num else num * Nat.pow 2 (1075 - s) : Nat) : ℚ) /
      (if 1075 ≤ s then den * Nat.pow 2 (s - 1075) else den : Nat) = num / den / ulp s := by
  split
  next le =>
    rw [ulp_of_le le]
    push_cast
    rw [div_div]
  next lt =>
    rw [ulp_of_lt (Nat.not_le.mp lt)]
    push_cast
    field_simp

theorem cast_fractionSize : (fractionSize : ℚ) = 2 ^ 52 := by norm_num [fractionSize]

theorem cast_two_fractionSize : ((2 * fractionSize : Nat) : ℚ) = 2 ^ 53 := by
  norm_num [fractionSize]

private def fits (num den s : Nat) : Bool :=
  if 1075 ≤ s then num < den * Nat.pow 2 (s - 1075) * (2 * fractionSize)
  else num * Nat.pow 2 (1075 - s) < den * (2 * fractionSize)

private def guess (num den : Nat) : Nat := (1075 + num.log2 : Nat) - den.log2 - 52

private theorem scaleOf_eq (num den : Nat) : scaleOf num den =
    max 1 (if fits num den (guess num den - 1) then guess num den - 1
      else if fits num den (guess num den) then guess num den else guess num den + 1) := rfl

private theorem fits_iff (positive : 0 < den) (s : Nat) :
    fits num den s = true ↔ (num : ℚ) / den < 2 ^ 53 * ulp s := by
  have size : (0 : ℚ) < den := by exact_mod_cast positive
  have mantissa : (num : ℚ) / den < 2 ^ 53 * ulp s ↔ (num : ℚ) / den / ulp s < 2 ^ 53 :=
    (div_lt_iff₀ (ulp_pos s)).symm
  rw [mantissa, ← div_ulp, ← cast_two_fractionSize]
  unfold fits
  split
  next le =>
    have scaled : (0 : ℚ) < (den * Nat.pow 2 (s - 1075) : Nat) := by
      exact_mod_cast Nat.mul_pos positive (Nat.pow_pos (by decide))
    rw [div_lt_iff₀ scaled, decide_eq_true_iff, mul_comm]
    exact_mod_cast Iff.rfl
  next lt =>
    rw [div_lt_iff₀ size, decide_eq_true_iff, mul_comm den]
    exact_mod_cast Iff.rfl

/-- The binary logarithms tell a quotient but for a factor of two. -/
theorem log2_bounds (numerator : 0 < num) (denominator : 0 < den) :
    (2 : ℚ) ^ ((num.log2 : ℤ) - den.log2 - 1) < num / den ∧
      (num : ℚ) / den < 2 ^ ((num.log2 : ℤ) - den.log2 + 1) := by
  have size : (0 : ℚ) < den := by exact_mod_cast denominator
  have numLow : (2 : ℚ) ^ (num.log2 : ℤ) ≤ num := by
    rw [zpow_natCast]
    exact_mod_cast Nat.log2_self_le numerator.ne'
  have numHigh : (num : ℚ) < 2 ^ ((num.log2 : ℤ) + 1) := by
    exact_mod_cast Nat.lt_log2_self (n := num)
  have denLow : (2 : ℚ) ^ (den.log2 : ℤ) ≤ den := by
    rw [zpow_natCast]
    exact_mod_cast Nat.log2_self_le denominator.ne'
  have denHigh : (den : ℚ) < 2 ^ ((den.log2 : ℤ) + 1) := by
    exact_mod_cast Nat.lt_log2_self (n := den)
  constructor
  · rw [lt_div_iff₀ size]
    calc (2 : ℚ) ^ ((num.log2 : ℤ) - den.log2 - 1) * den
        < 2 ^ ((num.log2 : ℤ) - den.log2 - 1) * 2 ^ ((den.log2 : ℤ) + 1) := by gcongr
      _ = 2 ^ (num.log2 : ℤ) := by
        rw [← zpow_add₀ (by norm_num)]
        ring_nf
      _ ≤ num := numLow
  · rw [div_lt_iff₀ size]
    calc (num : ℚ) < 2 ^ ((num.log2 : ℤ) + 1) := numHigh
      _ = 2 ^ ((num.log2 : ℤ) - den.log2 + 1) * 2 ^ (den.log2 : ℤ) := by
        rw [← zpow_add₀ (by norm_num)]
        ring_nf
      _ ≤ 2 ^ ((num.log2 : ℤ) - den.log2 + 1) * den := by gcongr

theorem mul_ulp (bits s : Nat) : 2 ^ bits * ulp s = (2 : ℚ) ^ ((bits : ℤ) + s - 1075) := by
  rw [ulp, ← zpow_natCast, ← zpow_add₀ (by norm_num)]
  ring_nf

/-- The scale of a quotient is the least one at which its mantissa has no more than fifty-three bits. -/
theorem scaleOf_spec (numerator : 0 < num) (denominator : 0 < den) :
    1 ≤ scaleOf num den ∧ (num : ℚ) / den < 2 ^ 53 * ulp (scaleOf num den) ∧
      (scaleOf num den = 1 ∨ 2 ^ 52 * ulp (scaleOf num den) ≤ num / den) := by
  obtain ⟨low, high⟩ := log2_bounds numerator denominator
  have guessed : fits num den (guess num den) = true := by
    rw [fits_iff denominator, mul_ulp]
    refine high.trans_le (zpow_le_zpow_right₀ (by norm_num) ?_)
    unfold guess
    omega
  rw [scaleOf_eq, if_pos guessed]
  refine ⟨Nat.le_max_left .., ?_⟩
  split
  next less =>
    refine ⟨((fits_iff denominator _).mp less).trans_le ?_, ?_⟩
    · gcongr
      exact ulp_mono (Nat.le_max_right ..)
    · rcases Nat.le_total (guess num den - 1) 1 with least | more
      · exact .inl (Nat.max_eq_left least)
      · by_cases one : guess num den - 1 = 1
        · exact .inl (by omega)
        refine .inr ?_
        rw [Nat.max_eq_right more, mul_ulp]
        refine le_trans (zpow_le_zpow_right₀ (by norm_num) ?_) low.le
        unfold guess at more one ⊢
        omega
  next exceeds =>
    refine ⟨((fits_iff denominator _).mp guessed).trans_le ?_, ?_⟩
    · gcongr
      exact ulp_mono (Nat.le_max_right ..)
    · rcases Nat.le_total (guess num den) 1 with least | more
      · exact .inl (Nat.max_eq_left least)
      · refine .inr ?_
        rw [fits_iff denominator, not_lt] at exceeds
        obtain ⟨before, same⟩ : ∃ before, guess num den = before + 1 := ⟨guess num den - 1, by omega⟩
        rw [Nat.max_eq_right more, same, ulp_succ]
        rw [same, Nat.add_sub_cancel] at exceeds
        linarith

variable {d : Double}

theorem scale_pos (d : Double) : 1 ≤ d.scale := Nat.le_max_left ..

theorem mantissa_lt (d : Double) : d.mantissa < 2 * fractionSize := by
  unfold mantissa fractionSize
  split <;> omega

theorem mantissa_pos (nonzero : d.isZero = false) : 0 < d.mantissa := by
  have positive : d.magnitudeBits ≠ 0 := by simpa [isZero] using nonzero
  unfold mantissa fractionSize
  split <;> omega

/-- Only at the least scale are mantissas short. -/
theorem scale_eq_one_or (d : Double) : d.scale = 1 ∨ fractionSize ≤ d.mantissa := by
  unfold scale mantissa fractionSize
  split
  · exact .inl (by omega)
  · exact .inr (Nat.le_add_right ..)

/-- The bits of a magnitude count the doubles below it. -/
theorem magnitude_eq (d : Double) : (d.scale - 1) * fractionSize + d.mantissa = d.magnitudeBits := by
  unfold scale mantissa fractionSize
  split <;> omega

theorem unit_interval (d : Double) : d.interval.unit = ulp d.scale / 4 := by
  have quarter : ulp d.scale / 4 = 2 ^ ((d.scale : ℤ) - 1077) := by
    have exponent : (d.scale : ℤ) - 1077 = (d.scale - 1075) - 2 := by ring
    rw [exponent, zpow_sub₀ (by norm_num), ulp]
    norm_num
  unfold Interval.unit interval
  rw [quarter]
  dsimp only
  split
  next le =>
    have exponent : (d.scale : ℤ) - 1077 = (d.scale - 1077 : Nat) := by omega
    rw [exponent, zpow_natCast, Nat.pow_eq, Nat.cast_pow, Nat.cast_ofNat, Nat.cast_one, div_one]
  next lt =>
    have exponent : (d.scale : ℤ) - 1077 = -((1077 - d.scale : Nat) : ℤ) := by omega
    rw [exponent, zpow_neg, zpow_natCast, Nat.cast_one, one_div, Nat.pow_eq, Nat.cast_pow,
      Nat.cast_ofNat]

theorem Contains.weak {i : Interval} {x : ℚ} (contains : i.Contains x) :
    i.low * i.unit ≤ x ∧ x ≤ i.high * i.unit := by
  unfold Interval.Contains at contains
  split at contains
  · exact contains
  · exact ⟨contains.1.le, contains.2.le⟩

theorem Contains.strict {i : Interval} {x : ℚ} (contains : i.Contains x) (opened : i.closed = false) :
    i.low * i.unit < x ∧ x < i.high * i.unit := by
  unfold Interval.Contains at contains
  rwa [if_neg (by simp [opened])] at contains

/-- The lower end is half an ulp below the double, or a quarter below a power of two. -/
theorem low_interval (d : Double) : 4 * (d.mantissa : ℚ) ≤ d.interval.low + 2 ∧
    (d.mantissa = fractionSize → 1 < d.scale → 4 * (d.mantissa : ℚ) ≤ d.interval.low + 1) := by
  have low : d.interval.low =
      if d.mantissa = fractionSize && 1 < d.scale then 4 * d.mantissa - 1 else 4 * d.mantissa - 2 := rfl
  rw [low]
  constructor
  · have bound : 4 * d.mantissa ≤ (if d.mantissa = fractionSize && 1 < d.scale then 4 * d.mantissa - 1
        else 4 * d.mantissa - 2) + 2 := by split <;> omega
    exact_mod_cast bound
  · intro power more
    rw [if_pos (by simp [power, more])]
    have bound : 4 * d.mantissa ≤ 4 * d.mantissa - 1 + 1 := by omega
    exact_mod_cast bound

theorem high_interval (d : Double) : (d.interval.high : ℚ) = 4 * d.mantissa + 2 := by
  have high : d.interval.high = 4 * d.mantissa + 2 := rfl
  rw [high]
  push_cast
  rfl

/-- A number in the interval of a double is at most half an ulp away, or a quarter of one below a power
of two, and less than that if the mantissa is odd. -/
theorem near_of_contains {x : ℚ} (contains : d.interval.Contains x) :
    (d.mantissa : ℚ) - 1 / 2 ≤ x / ulp d.scale ∧ x / ulp d.scale ≤ d.mantissa + 1 / 2 ∧
      (d.mantissa % 2 = 1 →
        (d.mantissa : ℚ) - 1 / 2 < x / ulp d.scale ∧ x / ulp d.scale < d.mantissa + 1 / 2) ∧
      (d.mantissa = fractionSize → 1 < d.scale → (d.mantissa : ℚ) - 1 / 4 ≤ x / ulp d.scale) := by
  have size := ulp_pos d.scale
  obtain ⟨half, quarter⟩ := low_interval d
  obtain ⟨low, high⟩ := Contains.weak contains
  rw [unit_interval] at low high
  rw [high_interval] at high
  simp only [le_div_iff₀ size, div_le_iff₀ size, lt_div_iff₀ size, div_lt_iff₀ size]
  refine ⟨by nlinarith, by nlinarith, fun odd => ?_, fun power more => ?_⟩
  · have opened : d.interval.closed = false := by
      have closed : d.interval.closed = (d.mantissa % 2 == 0) := rfl
      rw [closed, odd]
      rfl
    obtain ⟨low, high⟩ := Contains.strict contains opened
    rw [unit_interval] at low high
    rw [high_interval] at high
    constructor <;> nlinarith
  · have near := quarter power more
    nlinarith

/-- What is near the mantissa at the scale of the quotient is the rounded mantissa. -/
theorem ofRatio_of_near {m : Nat} (numerator : 0 < num) (denominator : 0 < den) (negative : Bool)
    (low : (m : ℚ) - 1 / 2 ≤ num / den / ulp (scaleOf num den))
    (high : num / den / ulp (scaleOf num den) ≤ (m : ℚ) + 1 / 2)
    (odd : m % 2 = 1 → (m : ℚ) - 1 / 2 < num / den / ulp (scaleOf num den) ∧
      num / den / ulp (scaleOf num den) < (m : ℚ) + 1 / 2) :
    ofRatio negative num den =
      ofMagnitude negative (min infinityBits ((scaleOf num den - 1) * fractionSize + m)) := by
  have scaled := div_ulp num den (scaleOf num den)
  unfold ofRatio
  rw [if_neg (Nat.pos_iff_ne_zero.mp numerator)]
  dsimp only
  split
  next le =>
    rw [if_pos le, if_pos le] at scaled
    have positive : 0 < den * Nat.pow 2 (scaleOf num den - 1075) :=
      Nat.mul_pos denominator (Nat.pow_pos (by decide))
    rw [roundDiv_of_near positive scaled low high odd]
  next lt =>
    rw [if_neg lt, if_neg lt] at scaled
    rw [roundDiv_of_near denominator scaled low high odd]

theorem scaleOf_le (numerator : 0 < num) (denominator : 0 < den)
    (contains : d.interval.Contains (num / den)) : scaleOf num den ≤ d.scale := by
  obtain ⟨-, -, low⟩ := scaleOf_spec numerator denominator
  obtain ⟨-, below, -, -⟩ := near_of_contains contains
  have size := ulp_pos d.scale
  rw [div_le_iff₀ size] at below
  by_contra more
  have within : ulp (d.scale + 1) ≤ ulp (scaleOf num den) := ulp_mono (by omega)
  rw [ulp_succ] at within
  have most : (d.mantissa : ℚ) + 1 ≤ (2 * fractionSize : Nat) := by exact_mod_cast mantissa_lt d
  rw [cast_two_fractionSize] at most
  rcases low with least | low
  · have first := scale_pos d
    omega
  · nlinarith

/-- A lower scale is that of a number just below a power of two. -/
theorem mantissa_of_scaleOf_lt (numerator : 0 < num) (denominator : 0 < den)
    (contains : d.interval.Contains (num / den)) (less : scaleOf num den < d.scale) :
    d.mantissa = fractionSize := by
  obtain ⟨positive, high, -⟩ := scaleOf_spec numerator denominator
  obtain ⟨above, -, -, -⟩ := near_of_contains contains
  have size := ulp_pos d.scale
  rw [le_div_iff₀ size] at above
  obtain ⟨before, next⟩ : ∃ before, d.scale = before + 1 := ⟨d.scale - 1, by omega⟩
  have within : ulp (scaleOf num den) ≤ ulp before := ulp_mono (by omega)
  rw [next, ulp_succ] at above size
  have least : fractionSize ≤ d.mantissa := by
    have short := scale_eq_one_or d
    omega
  have bound : (d.mantissa : ℚ) < fractionSize + 1 := by
    rw [cast_fractionSize]
    nlinarith
  have bound : d.mantissa < fractionSize + 1 := by exact_mod_cast bound
  omega

/-- The scale of a number that is in the interval of a double is that of the double, or the next lower
one just below a power of two. -/
theorem scaleOf_of_contains (numerator : 0 < num) (denominator : 0 < den)
    (contains : d.interval.Contains (num / den)) :
    scaleOf num den = d.scale ∨ scaleOf num den + 1 = d.scale ∧ d.mantissa = fractionSize := by
  rcases (scaleOf_le numerator denominator contains).eq_or_lt with same | less
  · exact .inl same
  obtain ⟨positive, high, -⟩ := scaleOf_spec numerator denominator
  obtain ⟨-, -, -, quarter⟩ := near_of_contains contains
  have power := mantissa_of_scaleOf_lt numerator denominator contains less
  have near := quarter power (by omega)
  rw [le_div_iff₀ (ulp_pos d.scale), power, cast_fractionSize] at near
  refine .inr ⟨?_, power⟩
  by_contra apart
  obtain ⟨last, again⟩ : ∃ last, d.scale = last + 1 + 1 := ⟨d.scale - 2, by omega⟩
  have within : ulp (scaleOf num den) ≤ ulp last := ulp_mono (by omega)
  rw [again, ulp_succ, ulp_succ] at near
  have size := ulp_pos last
  nlinarith

/-- A number in the interval of a double is rounded to it. -/
theorem ofRatio_of_contains (numerator : 0 < num) (denominator : 0 < den) (finite : d.isFinite = true)
    (contains : d.interval.Contains (num / den)) (negative : Bool) :
    ofRatio negative num den = ofMagnitude negative d.magnitudeBits := by
  have bound : d.magnitudeBits ≤ infinityBits := (of_decide_eq_true finite).le
  have magnitude := magnitude_eq d
  obtain ⟨above, below, odd, quarter⟩ := near_of_contains contains
  rcases scaleOf_of_contains numerator denominator contains with same | ⟨next, power⟩
  · rw [← same] at above below odd magnitude
    rw [ofRatio_of_near numerator denominator negative above below odd, magnitude,
      Nat.min_eq_right bound]
  · -- At the lower scale the mantissa is rounded up to one bit more, which is the power of two itself.
    obtain ⟨first, high, -⟩ := scaleOf_spec numerator denominator
    have near := quarter power (by omega)
    have size := ulp_pos (scaleOf num den)
    rw [← next, ulp_succ, power, cast_fractionSize, le_div_iff₀ (by positivity)] at near
    have low : ((2 * fractionSize : Nat) : ℚ) - 1 / 2 ≤ num / den / ulp (scaleOf num den) := by
      rw [cast_two_fractionSize, le_div_iff₀ size]
      nlinarith
    have high : num / den / ulp (scaleOf num den) ≤ ((2 * fractionSize : Nat) : ℚ) + 1 / 2 := by
      rw [cast_two_fractionSize, div_le_iff₀ size]
      nlinarith
    rw [ofRatio_of_near numerator denominator negative low high
      fun odd => absurd odd (by decide)]
    have carried : (scaleOf num den - 1) * fractionSize + 2 * fractionSize = d.magnitudeBits := by
      rw [← magnitude, ← next, power]
      obtain ⟨before, same⟩ : ∃ before, scaleOf num den = before + 1 :=
        ⟨scaleOf num den - 1, by omega⟩
      rw [same]
      simp only [Nat.add_sub_cancel]
      ring
    rw [carried, Nat.min_eq_right bound]

end PeerMesh.Proofs.Rounding
