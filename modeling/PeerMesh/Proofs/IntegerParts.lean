import Mathlib.Algebra.Order.Field.Power
import Mathlib.Tactic.FieldSimp
import Mathlib.Tactic.Linarith
import Mathlib.Tactic.NormNum
import Mathlib.Tactic.Positivity
import Mathlib.Tactic.Ring
import PeerMesh.Proofs.Rounding

/-! The integer parts of doubles. A quotient that is an integer below `2 ^ 53` is rounded to itself, and
a greater one to no less than `2 ^ 53`. So a double that comes from an integer by one rounding has the
integer itself as its part within thirty-two bits, or the end of the range that the integer is beyond. -/

namespace PeerMesh

namespace Double

def magnitude (d : Double) : ℚ := d.mantissa * ulp d.scale

def toRat (d : Double) : ℚ := if d.isNegative then -d.magnitude else d.magnitude

/-- A double tells a natural number as far as an integer of thirty-two bits can. -/
structure Tells (d : Double) (n : Nat) : Prop where
  exact : n < 2147483648 → d.magnitude = n
  large : 2147483648 ≤ n → 2147483648 ≤ d.magnitude

end Double

def Value.nearestInteger (n : Int) : Int32 := Int32.ofInt (max (-2147483648) (min 2147483647 n))

namespace Proofs.IntegerParts
open Double Rounding

variable {num den : Nat} {d : Double}

theorem le_roundDiv {k : Nat} (positive : 0 < den) (le : k * den ≤ num) : k ≤ roundDiv num den := by
  have part : k ≤ num / den := (Nat.le_div_iff_mul_le positive).mpr le
  unfold roundDiv
  dsimp only
  split
  · exact part
  split
  · omega
  · omega

theorem roundDiv_le {k : Nat} (positive : 0 < den) (le : num ≤ k * den) : roundDiv num den ≤ k := by
  have division : num / den * den + num % den = num := Nat.div_add_mod' num den
  have part : num / den ≤ k := Nat.div_le_of_le_mul (by rwa [Nat.mul_comm])
  rcases part.eq_or_lt with same | less
  · have exact : num % den = 0 := by
      rw [same] at division
      omega
    unfold roundDiv
    dsimp only
    rw [exact, if_pos (by omega)]
    exact part
  · unfold roundDiv
    dsimp only
    split
    · exact part
    split
    · exact less
    · omega

theorem le_roundDiv_of_le {k : Nat} {y : ℚ} (positive : 0 < den) (same : (num : ℚ) / den = y)
    (le : (k : ℚ) ≤ y) : k ≤ roundDiv num den := by
  have size : (0 : ℚ) < den := by exact_mod_cast positive
  rw [← same, le_div_iff₀ size] at le
  exact le_roundDiv positive (by exact_mod_cast le)

theorem roundDiv_le_of_le {k : Nat} {y : ℚ} (positive : 0 < den) (same : (num : ℚ) / den = y)
    (le : y ≤ k) : roundDiv num den ≤ k := by
  have size : (0 : ℚ) < den := by exact_mod_cast positive
  rw [← same, div_le_iff₀ size] at le
  exact roundDiv_le positive (by exact_mod_cast le)

/-- What a quotient is rounded to at its scale. -/
private structure Rounds (num den s m : Nat) : Prop where
  scale : 1 ≤ s
  short : m ≤ 2 * fractionSize
  full : s = 1 ∨ fractionSize ≤ m
  below : (num : ℚ) / den < 2 ^ 53 * ulp s
  high : s = 1 ∨ 2 ^ 52 * ulp s ≤ num / den
  least : ∀ j : Nat, j * ulp s ≤ num / den → j ≤ m
  greatest : ∀ j : Nat, num / den ≤ j * ulp s → m ≤ j

private theorem exists_rounds (numerator : 0 < num) (denominator : 0 < den) (negative : Bool) :
    ∃ s m, Rounds num den s m ∧
      ofRatio negative num den =
        ofMagnitude negative (min infinityBits ((s - 1) * fractionSize + m)) := by
  obtain ⟨scale, below, high⟩ := scaleOf_spec numerator denominator
  have size := ulp_pos (scaleOf num den)
  have scaled := div_ulp num den (scaleOf num den)
  have rounded : ∃ n d : Nat, 0 < d ∧ (n : ℚ) / d = num / den / ulp (scaleOf num den) ∧
      ofRatio negative num den = ofMagnitude negative
        (min infinityBits ((scaleOf num den - 1) * fractionSize + roundDiv n d)) := by
    unfold ofRatio
    rw [if_neg (Nat.pos_iff_ne_zero.mp numerator)]
    dsimp only
    split
    next le =>
      rw [if_pos le, if_pos le] at scaled
      exact ⟨_, _, Nat.mul_pos denominator (Nat.pow_pos (by decide)), scaled, rfl⟩
    next lt =>
      rw [if_neg lt, if_neg lt] at scaled
      exact ⟨_, _, denominator, scaled, rfl⟩
  obtain ⟨n, d, positive, quotient, same⟩ := rounded
  have least : ∀ j : Nat, j * ulp (scaleOf num den) ≤ num / den → j ≤ roundDiv n d := fun j le =>
    le_roundDiv_of_le positive quotient ((le_div_iff₀ size).mpr le)
  have greatest : ∀ j : Nat, (num : ℚ) / den ≤ j * ulp (scaleOf num den) → roundDiv n d ≤ j :=
    fun j le => roundDiv_le_of_le positive quotient ((div_le_iff₀ size).mpr le)
  refine ⟨scaleOf num den, roundDiv n d, ⟨scale, ?_, ?_, below, high, least, greatest⟩, same⟩
  · refine greatest _ ?_
    rw [cast_two_fractionSize]
    exact below.le
  · refine high.imp_right fun full => least _ ?_
    rw [cast_fractionSize]
    exact full

theorem magnitudeBits_ofMagnitude {bits : Nat} (negative : Bool) (small : bits ≤ infinityBits) :
    (ofMagnitude negative bits).magnitudeBits = bits := by
  unfold infinityBits at small
  unfold magnitudeBits ofMagnitude
  rw [UInt64.toNat_ofNat']
  split <;> omega

theorem isNegative_ofMagnitude {bits : Nat} (negative : Bool) (small : bits ≤ infinityBits) :
    (ofMagnitude negative bits).isNegative = negative := by
  unfold infinityBits at small
  unfold isNegative ofMagnitude
  rw [UInt64.toNat_ofNat']
  cases negative
  · simp only [Bool.false_eq_true, if_false, decide_eq_false_iff_not]
    omega
  · simp only [if_true, decide_eq_true_eq]
    omega

/-- A mantissa of one bit more is the power of two at the next scale. -/
private theorem magnitude_of_bits {s m : Nat} (scale : 1 ≤ s) (short : m ≤ 2 * fractionSize)
    (full : s = 1 ∨ fractionSize ≤ m) (same : d.magnitudeBits = (s - 1) * fractionSize + m) :
    d.magnitude = m * ulp s := by
  obtain ⟨before, rfl⟩ : ∃ before, s = before + 1 := ⟨s - 1, by omega⟩
  rw [Nat.add_sub_cancel] at same
  unfold magnitude mantissa Double.scale
  rcases short.eq_or_lt with carried | short
  · have bits : d.magnitudeBits = (before + 2) * fractionSize := by rw [same, carried]; ring
    rw [if_neg (by rw [bits]; unfold fractionSize; omega), bits, Nat.mul_mod_left,
      Nat.mul_div_cancel _ (by decide), Nat.max_eq_right (by omega), carried, Nat.add_zero,
      ulp_succ]
    push_cast
    ring
  · by_cases whole : fractionSize ≤ m
    · obtain ⟨rest, rfl⟩ := Nat.exists_eq_add_of_le whole
      have small : rest < fractionSize := by omega
      have bits : d.magnitudeBits = rest + fractionSize * (before + 1) := by rw [same]; ring
      rw [if_neg (by rw [bits]; unfold fractionSize; omega), bits, Nat.add_mul_mod_self_left,
        Nat.mod_eq_of_lt small, Nat.add_mul_div_left _ _ (by decide), Nat.div_eq_of_lt small,
        Nat.zero_add, Nat.max_eq_right (by omega)]
    · obtain rfl : before = 0 := by omega
      rw [Nat.zero_mul, Nat.zero_add] at same
      rw [if_pos (by omega), same, Nat.div_eq_of_lt (by omega)]
      rfl

theorem magnitude_congr {e : Double} (same : d.magnitudeBits = e.magnitudeBits) :
    d.magnitude = e.magnitude := by
  unfold magnitude mantissa Double.scale
  rw [same]

theorem magnitude_nonneg (d : Double) : 0 ≤ d.magnitude :=
  mul_nonneg (Nat.cast_nonneg _) (ulp_pos _).le

theorem magnitude_zero {negative : Bool} : (ofMagnitude negative 0).magnitude = 0 := by
  have bits : (ofMagnitude negative 0).magnitudeBits = (1 - 1) * fractionSize + 0 :=
    magnitudeBits_ofMagnitude negative (Nat.zero_le _)
  rw [magnitude_of_bits le_rfl (Nat.zero_le _) (.inl rfl) bits, Nat.cast_zero, zero_mul]

theorem le_magnitude_of_infinite (infinite : d.magnitudeBits = infinityBits) :
    2 ^ 53 ≤ d.magnitude := by
  have bits : d.magnitudeBits = (2047 - 1) * fractionSize + fractionSize := infinite
  have great : (2 : ℚ) ≤ ulp 2047 := by
    have next : ulp 1076 = 2 := by norm_num [ulp]
    rw [← next]
    exact ulp_mono (by decide)
  rw [magnitude_of_bits (by decide) (by decide) (.inr le_rfl) bits, cast_fractionSize]
  linarith

/-- At a scale of no more than the units, integers are multiples of an ulp. -/
private theorem shifted {s : Nat} (fine : s ≤ 1075) (k : Nat) :
    ((k * 2 ^ (1075 - s) : Nat) : ℚ) * ulp s = k := by
  have power : ulp s = 1 / (2 ^ (1075 - s) : Nat) := by
    rcases fine.eq_or_lt with rfl | lt
    · norm_num [ulp]
    · exact ulp_of_lt lt
  rw [power]
  push_cast
  field_simp

private theorem two_le_ulp {s : Nat} (coarse : ¬s ≤ 1075) : 2 ≤ ulp s := by
  have next : ulp 1076 = 2 := by norm_num [ulp]
  rw [← next]
  exact ulp_mono (by omega)

/-- Up to `2 ^ 53`, what is at least an integer is not rounded below it. -/
theorem le_magnitude_ofRatio {k : Nat} (denominator : 0 < den) (small : k ≤ 2 ^ 53)
    (le : k * den ≤ num) (negative : Bool) : (k : ℚ) ≤ (ofRatio negative num den).magnitude := by
  have size : (0 : ℚ) < den := by exact_mod_cast denominator
  have bound : (k : ℚ) ≤ 2 ^ 53 := by exact_mod_cast small
  rcases Nat.eq_zero_or_pos num with rfl | numerator
  · obtain rfl : k = 0 := by
      rcases Nat.eq_zero_or_pos k with zero | positive
      · exact zero
      · exact absurd (Nat.mul_pos positive denominator) (Nat.not_lt.mpr le)
    rw [Nat.cast_zero]
    exact magnitude_nonneg _
  have quotient : (k : ℚ) ≤ num / den := by
    rw [le_div_iff₀ size]
    exact_mod_cast le
  obtain ⟨s, m, rounds, same⟩ := exists_rounds numerator denominator negative
  rw [same]
  have bits := magnitudeBits_ofMagnitude negative (Nat.min_le_left infinityBits
    ((s - 1) * fractionSize + m))
  rcases Nat.le_total infinityBits ((s - 1) * fractionSize + m) with beyond | within
  · rw [Nat.min_eq_left beyond] at bits ⊢
    exact bound.trans (le_magnitude_of_infinite bits)
  rw [Nat.min_eq_right within] at bits ⊢
  rw [magnitude_of_bits rounds.scale rounds.short rounds.full bits]
  by_cases fine : s ≤ 1075
  · have multiple : k * 2 ^ (1075 - s) ≤ m := rounds.least _ (by rwa [shifted fine])
    calc (k : ℚ) = ((k * 2 ^ (1075 - s) : Nat) : ℚ) * ulp s := (shifted fine k).symm
      _ ≤ m * ulp s := by
        gcongr
        exact (ulp_pos s).le
  · have step := two_le_ulp fine
    have full : fractionSize ≤ m := rounds.full.resolve_left (by omega)
    have full : (2 : ℚ) ^ 52 ≤ m := by
      rw [← cast_fractionSize]
      exact_mod_cast full
    nlinarith

/-- An integer below `2 ^ 53` is rounded to itself. -/
theorem magnitude_ofRatio_of_eq {n : Nat} (denominator : 0 < den) (small : n < 2 ^ 53)
    (same : num = n * den) (negative : Bool) : (ofRatio negative num den).magnitude = n := by
  have size : (0 : ℚ) < den := by exact_mod_cast denominator
  refine le_antisymm ?_ (le_magnitude_ofRatio denominator small.le same.ge negative)
  rcases Nat.eq_zero_or_pos num with zero | numerator
  · have none : ofRatio negative num den = ofMagnitude negative 0 := if_pos zero
    rw [none, magnitude_zero]
    exact Nat.cast_nonneg n
  have quotient : (num : ℚ) / den = n := by
    rw [same]
    push_cast
    field_simp
  have bound : (n : ℚ) < 2 ^ 53 := by exact_mod_cast small
  obtain ⟨s, m, rounds, rounded⟩ := exists_rounds numerator denominator negative
  have fine : s ≤ 1075 := by
    by_contra coarse
    have step := two_le_ulp coarse
    rcases rounds.high with least | high
    · omega
    · rw [quotient] at high
      nlinarith
  have multiple : m ≤ n * 2 ^ (1075 - s) := rounds.greatest _ (by rw [shifted fine, quotient])
  have within : (s - 1) * fractionSize + m ≤ infinityBits := by
    have short := rounds.short
    unfold fractionSize infinityBits at *
    omega
  have bits := magnitudeBits_ofMagnitude negative within
  rw [rounded, Nat.min_eq_right within,
    magnitude_of_bits rounds.scale rounds.short rounds.full bits]
  calc (m : ℚ) * ulp s ≤ ((n * 2 ^ (1075 - s) : Nat) : ℚ) * ulp s := by
        gcongr
        exact (ulp_pos s).le
    _ = n := shifted fine n

theorem ofRatio_cases (negative : Bool) (num den : Nat) :
    ∃ bits ≤ infinityBits, ofRatio negative num den = ofMagnitude negative bits := by
  unfold ofRatio
  split
  · exact ⟨0, Nat.zero_le _, rfl⟩
  · exact ⟨_, Nat.min_le_left .., rfl⟩

theorem isNaN_ofRatio (negative : Bool) (num den : Nat) :
    (ofRatio negative num den).isNaN = false := by
  obtain ⟨bits, small, same⟩ := ofRatio_cases negative num den
  rw [same, isNaN, magnitudeBits_ofMagnitude negative small]
  exact decide_eq_false (Nat.not_lt.mpr small)

theorem isNegative_ofRatio (negative : Bool) (num den : Nat) :
    (ofRatio negative num den).isNegative = negative := by
  obtain ⟨bits, small, same⟩ := ofRatio_cases negative num den
  rw [same, isNegative_ofMagnitude negative small]

theorem magnitude_ofNat {n : Nat} (small : n < 2 ^ 53) (negative : Bool) :
    (Double.ofNat negative n).magnitude = n :=
  magnitude_ofRatio_of_eq Nat.one_pos small (Nat.mul_one n).symm negative

theorem le_magnitude_ofNat {k n : Nat} (small : k ≤ 2 ^ 53) (le : k ≤ n) (negative : Bool) :
    (k : ℚ) ≤ (Double.ofNat negative n).magnitude :=
  le_magnitude_ofRatio Nat.one_pos small (by rwa [Nat.mul_one]) negative

theorem isNegative_ofNat (negative : Bool) (n : Nat) :
    (Double.ofNat negative n).isNegative = negative := isNegative_ofRatio ..

theorem tells_ofRatio {n : Nat} (denominator : 0 < den) (same : num = n * den) (negative : Bool) :
    (ofRatio negative num den).Tells n := by
  constructor
  · intro small
    exact magnitude_ofRatio_of_eq denominator (by omega) same negative
  · intro large
    have le : 2147483648 * den ≤ num := same ▸ Nat.mul_le_mul_right den large
    exact_mod_cast le_magnitude_ofRatio denominator (by decide) le negative

theorem ratio_pos (d : Double) : 0 < d.ratio.2 := by
  unfold ratio
  split
  · exact Nat.one_pos
  · exact Nat.pow_pos (by decide)

theorem ratio_div (d : Double) : (d.ratio.1 : ℚ) / d.ratio.2 = d.magnitude := by
  unfold ratio magnitude
  split
  next le =>
    rw [ulp_of_le le]
    push_cast
    ring
  next lt =>
    rw [ulp_of_lt (Nat.not_le.mp lt)]
    push_cast
    ring

theorem ratio_le_iff (d : Double) (k : Nat) :
    k * d.ratio.2 ≤ d.ratio.1 ↔ (k : ℚ) ≤ d.magnitude := by
  have size : (0 : ℚ) < d.ratio.2 := by exact_mod_cast ratio_pos d
  rw [← ratio_div, le_div_iff₀ size]
  exact_mod_cast Iff.rfl

theorem ratio_eq_iff (d : Double) (k : Nat) :
    d.ratio.1 = k * d.ratio.2 ↔ d.magnitude = k := by
  have size : (d.ratio.2 : ℚ) ≠ 0 := by exact_mod_cast (ratio_pos d).ne'
  rw [← ratio_div, div_eq_iff size]
  exact_mod_cast Iff.rfl

theorem mul_eq (x y : Double) : x.mul y = ofRatio (x.isNegative != y.isNegative)
    (x.ratio.1 * y.ratio.1) (x.ratio.2 * y.ratio.2) := rfl

theorem div_eq (x y : Double) : x.div y = ofRatio (x.isNegative != y.isNegative)
    (x.ratio.1 * y.ratio.2) (x.ratio.2 * y.ratio.1) := rfl

theorem le_magnitude_mul {x y : Double} {k : Nat} (small : k ≤ 2 ^ 53) (first : k ≤ x.magnitude)
    (second : 1 ≤ y.magnitude) : (k : ℚ) ≤ (x.mul y).magnitude := by
  have left : k * x.ratio.2 ≤ x.ratio.1 := (ratio_le_iff x k).mpr first
  have right : 1 * y.ratio.2 ≤ y.ratio.1 := (ratio_le_iff y 1).mpr (by exact_mod_cast second)
  rw [mul_eq]
  refine le_magnitude_ofRatio (Nat.mul_pos (ratio_pos x) (ratio_pos y)) small ?_ _
  calc k * (x.ratio.2 * y.ratio.2) = k * x.ratio.2 * (1 * y.ratio.2) := by ring
    _ ≤ x.ratio.1 * y.ratio.1 := Nat.mul_le_mul left right

/-- A quotient of two integers that is one tells it, also where the first of them is rounded. -/
theorem tells_div {x y : Double} {n k : Nat} (positive : 0 < k) (small : k ≤ 16)
    (first : n * k < 2 ^ 53 → x.magnitude = (n * k : Nat))
    (great : 2 ^ 53 ≤ n * k → 2 ^ 53 ≤ x.magnitude)
    (second : y.magnitude = k) : (x.div y).Tells n := by
  have below : y.ratio.1 = k * y.ratio.2 := (ratio_eq_iff y k).mpr second
  have denominator : 0 < x.ratio.2 * y.ratio.1 := by
    rw [below]
    exact Nat.mul_pos (ratio_pos x) (Nat.mul_pos positive (ratio_pos y))
  rw [div_eq]
  rcases Nat.lt_or_ge (n * k) (2 ^ 53) with exact | rounded
  · have above : x.ratio.1 = n * k * x.ratio.2 := (ratio_eq_iff x _).mpr (first exact)
    refine tells_ofRatio denominator ?_ _
    rw [above, below]
    ring
  · have above : 2 ^ 53 * x.ratio.2 ≤ x.ratio.1 :=
      (ratio_le_iff x _).mpr (by exact_mod_cast great rounded)
    have le : 2147483648 * (x.ratio.2 * y.ratio.1) ≤ x.ratio.1 * y.ratio.2 := by
      calc 2147483648 * (x.ratio.2 * y.ratio.1)
          = 2147483648 * k * x.ratio.2 * y.ratio.2 := by rw [below]; ring
        _ ≤ 2 ^ 53 * x.ratio.2 * y.ratio.2 := by
          gcongr
          omega
        _ ≤ x.ratio.1 * y.ratio.2 := Nat.mul_le_mul_right _ above
    constructor
    · intro less
      have short : n * k ≤ 2147483648 * 16 := Nat.mul_le_mul less.le small
      omega
    · intro _
      exact_mod_cast le_magnitude_ofRatio denominator (by decide) le _

theorem truncate_eq (d : Double) : d.truncate =
    if d.isNegative then -((d.ratio.1 / d.ratio.2 : Nat) : Int) else (d.ratio.1 / d.ratio.2 : Nat) :=
  rfl

private theorem part_of_tells {n : Nat} (tells : d.Tells n) :
    min (d.ratio.1 / d.ratio.2) 2147483648 = min n 2147483648 := by
  rcases Nat.lt_or_ge n 2147483648 with small | large
  · rw [(ratio_eq_iff d n).mpr (tells.exact small), Nat.mul_div_cancel _ (ratio_pos d)]
  · have le : 2147483648 ≤ d.ratio.1 / d.ratio.2 := by
      rw [Nat.le_div_iff_mul_le (ratio_pos d), ratio_le_iff]
      exact_mod_cast tells.large large
    omega

/-- The part of a double within thirty-two bits is the integer that the double tells, or the end of the
range. -/
theorem toInt32_of_tells {n : Nat} (number : d.isNaN = false) (tells : d.Tells n) :
    d.toInt32 = Value.nearestInteger (if d.isNegative then -(n : Int) else n) := by
  unfold toInt32 Value.nearestInteger
  congr 1
  unfold toBounded
  rw [if_neg (by simp [number])]
  cases infinite : d.isInfinite with
  | true =>
    have far : 2147483648 ≤ n := by
      by_contra small
      have magnitude := le_magnitude_of_infinite (eq_of_beq infinite)
      rw [tells.exact (Nat.not_le.mp small)] at magnitude
      have far : 2 ^ 53 ≤ n := by exact_mod_cast magnitude
      omega
    cases d.isNegative
    · simp only [if_true, Bool.false_eq_true, if_false]
      omega
    · simp only [if_true]
      omega
  | false =>
    have part := part_of_tells tells
    rw [truncate_eq]
    cases d.isNegative
    · simp only [Bool.false_eq_true, if_false]
      omega
    · simp only [Bool.false_eq_true, if_false, if_true]
      omega

theorem toInt32_ofRatio {n : Nat} (denominator : 0 < den) (same : num = n * den) (negative : Bool) :
    (ofRatio negative num den).toInt32 =
      Value.nearestInteger (if negative then -(n : Int) else n) := by
  have tells := tells_ofRatio denominator same negative
  rw [toInt32_of_tells (isNaN_ofRatio ..) tells, isNegative_ofRatio]

theorem toInt32_ofInt (n : Int) : (Double.ofInt n).toInt32 = Value.nearestInteger n := by
  have rounded : (Double.ofInt n).toInt32 = Value.nearestInteger _ :=
    toInt32_ofRatio Nat.one_pos (Nat.mul_one n.natAbs).symm _
  rw [rounded]
  congr 1
  by_cases below : n < 0
  · rw [if_pos (by simpa using below)]
    omega
  · rw [if_neg (by simpa using below)]
    omega

/-- The part of a double that is an integer is that integer, within the range. -/
theorem toInt32_of_toRat {n : Int} (finite : d.isFinite = true) (same : d.toRat = n) :
    d.toInt32 = Value.nearestInteger n := by
  have number : d.isNaN = false := by
    simp only [isFinite, isNaN, decide_eq_true_eq, decide_eq_false_iff_not] at finite ⊢
    omega
  have magnitude : d.magnitude = n.natAbs := by
    have positive := magnitude_nonneg d
    unfold toRat at same
    rw [Nat.cast_natAbs, Int.cast_abs, ← same]
    split
    · rw [abs_neg, abs_of_nonneg positive]
    · rw [abs_of_nonneg positive]
  have tells : d.Tells n.natAbs := ⟨fun _ => magnitude, fun large => by
    rw [magnitude]
    exact_mod_cast large⟩
  rw [toInt32_of_tells number tells]
  congr 1
  rw [← Rat.intCast_inj, ← same, toRat, magnitude]
  split
  · rw [Int.cast_neg, Int.cast_natCast]
  · exact Int.cast_natCast _

end Proofs.IntegerParts
end PeerMesh
