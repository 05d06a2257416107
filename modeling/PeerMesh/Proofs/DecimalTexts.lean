import PeerMesh.Double.Text
import PeerMesh.Proofs.Numerals
import PeerMesh.Proofs.ShortestDecimals

/-! Doubles as text. A decimal that is written out is read as the number that it is, and a number in the
interval of a double as that double. So every double that is a number is read from its text. -/

namespace PeerMesh.Proofs.DecimalTexts
open Double Numerals Rounding ShortestDecimals Text

variable {d : Double} {digits : Nat} {exponent : ℤ}

/-- No number in the interval of a double is less than half the least double. -/
private theorem least_of_contains {x : ℚ} (contains : d.interval.Contains x)
    (nonzero : d.isZero = false) : (2 : ℚ) ^ (-1075 : ℤ) ≤ x := by
  have mantissa : (1 : ℚ) ≤ d.mantissa := by exact_mod_cast mantissa_pos nonzero
  have low : (2 : ℚ) ≤ d.interval.low := by
    have ends := (low_interval d).1
    linarith
  have unit : (2 : ℚ) ^ (-1075 : ℤ) / 2 ≤ d.interval.unit := by
    have least : ulp 1 ≤ ulp d.scale := ulp_mono (scale_pos d)
    have first : ulp 1 = 2 * (2 : ℚ) ^ (-1075 : ℤ) := ulp_succ 0
    rw [unit_interval]
    linarith
  refine le_trans ?_ (Contains.weak contains).1
  have power : (0 : ℚ) < 2 ^ (-1075 : ℤ) := by positivity
  nlinarith

/-- The shortcut for the least decimals is not taken in the interval of a double. -/
private theorem not_tiny (contains : d.interval.Contains (digits * 10 ^ exponent))
    (nonzero : d.isZero = false) : ¬exponent + (digits.log2 / 3 + 1 : Nat) < -330 := by
  intro tiny
  have short : digits < 10 ^ (digits.log2 / 3 + 1) := by
    calc digits < 2 ^ (digits.log2 + 1) := Nat.lt_log2_self
      _ ≤ 2 ^ (3 * (digits.log2 / 3 + 1)) := Nat.pow_le_pow_right (by decide) (by omega)
      _ = 8 ^ (digits.log2 / 3 + 1) := Nat.pow_mul ..
      _ ≤ 10 ^ (digits.log2 / 3 + 1) := Nat.pow_le_pow_left (by decide) _
  have short : (digits : ℚ) < 10 ^ ((digits.log2 / 3 + 1 : Nat) : ℤ) := by
    rw [zpow_natCast]
    exact_mod_cast short
  have least : (10 : ℚ) ^ (-331 : ℤ) ≤ 2 ^ (-1075 : ℤ) := zpow_ten_le (by decide) (by decide)
  refine absurd (least_of_contains contains nonzero) (not_le.mpr ?_)
  calc (digits : ℚ) * 10 ^ exponent
      < 10 ^ ((digits.log2 / 3 + 1 : Nat) : ℤ) * 10 ^ exponent := by gcongr
    _ = 10 ^ (((digits.log2 / 3 + 1 : Nat) : ℤ) + exponent) := (zpow_add₀ (by norm_num) _ _).symm
    _ ≤ 10 ^ (-331 : ℤ) := zpow_le_zpow_right₀ (by norm_num) (by omega)
    _ ≤ 2 ^ (-1075 : ℤ) := least

/-- A decimal in the interval of a double is read as that double. -/
theorem ofDecimal_of_contains (contains : d.interval.Contains (digits * 10 ^ exponent))
    (finite : d.isFinite = true) (nonzero : d.isZero = false) (negative : Bool)
    (small : exponent ≤ 310) :
    ofDecimal negative digits exponent = ofMagnitude negative d.magnitudeBits := by
  have spelled : digits ≠ 0 := by
    rintro rfl
    have least := least_of_contains contains nonzero
    have power : (0 : ℚ) < 2 ^ (-1075 : ℤ) := by positivity
    rw [Nat.cast_zero, zero_mul] at least
    exact absurd power (not_lt.mpr least)
  unfold ofDecimal
  rw [if_neg spelled, if_neg (Int.not_lt.mpr small), if_neg (not_tiny contains nonzero)]
  cases exponent with
  | ofNat e =>
    have same : (digits : ℚ) * 10 ^ Int.ofNat e = (digits * Nat.pow 10 e : Nat) / (1 : Nat) := by
      rw [Int.ofNat_eq_natCast, zpow_natCast, Nat.pow_eq]
      push_cast
      ring
    rw [same] at contains
    exact ofRatio_of_contains (Nat.mul_pos (Nat.pos_of_ne_zero spelled) (Nat.pow_pos (by decide)))
      Nat.one_pos finite contains negative
  | negSucc e =>
    have same : (digits : ℚ) * 10 ^ Int.negSucc e = digits / (Nat.pow 10 (e + 1) : Nat) := by
      rw [zpow_negSucc, Nat.pow_eq]
      push_cast
      rfl
    rw [same] at contains
    exact ofRatio_of_contains (Nat.pos_of_ne_zero spelled) (Nat.pow_pos (by decide)) finite contains
      negative

private theorem not_letter {c : Char} (digit : c.isDigit = true) : c.toLower ≠ 'i' ∧ c.toLower ≠ 'n' := by
  have range : 48 ≤ c.toNat ∧ c.toNat ≤ 57 := Char.isDigit_iff_toNat.mp digit
  have all : ∀ n : Fin 10, (Char.ofNat (48 + n.val)).toLower ≠ 'i' ∧
      (Char.ofNat (48 + n.val)).toLower ≠ 'n' := by decide
  have same : Char.ofNat (48 + (c.toNat - 48)) = c := by
    rw [Nat.add_sub_cancel' range.1, Char.ofNat_toNat]
  exact same ▸ all ⟨c.toNat - 48, by omega⟩

private theorem spanDigits_append {digits rest : List Char} (all : ∀ c ∈ digits, c.isDigit = true)
    (ends : ∀ c ∈ rest.head?, c.isDigit = false) : spanDigits (digits ++ rest) = (digits, rest) := by
  rw [spanDigits, List.span_eq_takeWhile_dropWhile, List.takeWhile_append_of_pos all,
    List.dropWhile_append_of_pos all]
  cases rest with
  | nil => simp
  | cons c rest =>
    have stops := ends c rfl
    simp [stops]

/-- What begins with a digit is not the name of a number. -/
private theorem readMagnitude_digit {c : Char} (digit : c.isDigit = true) (negative : Bool)
    (rest : List Char) : readMagnitude negative (c :: rest) =
      let (whole, rest) := spanDigits (c :: rest)
      let (fraction, rest) := match rest with
        | '.' :: after => spanDigits after
        | _ => ([], rest)
      if whole.isEmpty && fraction.isEmpty then none
      else (readExponent rest).map fun exponent =>
        ofDecimal negative (digitsValue (whole ++ fraction)) (exponent - fraction.length) := by
  obtain ⟨i, n⟩ := not_letter digit
  have infinite : ¬((c :: rest).map Char.toLower = "inf".toList ||
      (c :: rest).map Char.toLower = "infinity".toList) = true := by
    simp [i]
  have nan : ¬(c :: rest).map Char.toLower = "nan".toList := by
    simp [n]
  unfold readMagnitude
  exact (if_neg infinite).trans (if_neg nan)

theorem readMagnitude_whole {c : Char} {whole : List Char} (all : ∀ x ∈ c :: whole, x.isDigit = true)
    (negative : Bool) : readMagnitude negative (c :: whole) =
      some (ofDecimal negative (digitsValue (c :: whole)) 0) := by
  have spans : spanDigits (c :: whole) = (c :: whole, []) := by
    rw [← List.append_nil (c :: whole), spanDigits_append all (by simp), List.append_nil]
  rw [readMagnitude_digit (all c List.mem_cons_self), spans]
  simp [readExponent]

theorem readMagnitude_point {c : Char} {whole fraction : List Char}
    (all : ∀ x ∈ c :: whole, x.isDigit = true) (decimals : ∀ x ∈ fraction, x.isDigit = true)
    (negative : Bool) : readMagnitude negative (c :: whole ++ '.' :: fraction) =
      some (ofDecimal negative (digitsValue (c :: whole ++ fraction)) (-fraction.length)) := by
  have first : spanDigits (c :: whole ++ '.' :: fraction) = (c :: whole, '.' :: fraction) :=
    spanDigits_append all (by simp)
  have second : spanDigits fraction = (fraction, []) := by
    rw [← List.append_nil fraction, spanDigits_append decimals (by simp), List.append_nil]
  rw [List.cons_append, readMagnitude_digit (all c List.mem_cons_self), ← List.cons_append, first]
  simp [second, readExponent]

private theorem isDigit_toDigits (n : Nat) : ∀ c ∈ Nat.toDigits 10 n, c.isDigit = true :=
  fun _ member => Nat.isDigit_of_mem_toDigits (by decide) (by decide) member

private theorem isDigit_zeros (count : Nat) : ∀ c ∈ List.replicate count '0', c.isDigit = true :=
  fun _ member => List.eq_of_mem_replicate member ▸ rfl

private theorem digitsValue_zeros (count n : Nat) :
    digitsValue (List.replicate count '0' ++ Nat.toDigits 10 n) = n := by
  rw [digitsValue_eq_ofDigitChars, Nat.ofDigitChars_append, Nat.ofDigitChars_replicate_zero,
    Nat.mul_zero, Nat.ofDigitChars_ten_toDigits]

private theorem digitsValue_shifted (n count : Nat) :
    digitsValue (Nat.toDigits 10 n ++ List.replicate count '0') = n * 10 ^ count := by
  rw [digitsValue_eq_ofDigitChars, Nat.ofDigitChars_append, Nat.ofDigitChars_ten_toDigits,
    Nat.ofDigitChars_replicate_zero, Nat.mul_comm]

/-- A text that begins with a digit and is read as a number of no more than its decimal places. -/
private structure Reads (cs : List Char) (x : ℚ) (negative : Bool) : Prop where
  starts : ∃ c rest, cs = c :: rest ∧ c.isDigit = true
  read : ∃ (digits : Nat) (exponent : ℤ), exponent ≤ 0 ∧ (digits : ℚ) * 10 ^ exponent = x ∧
    readMagnitude negative cs = some (ofDecimal negative digits exponent)

private theorem reads_point {c : Char} {whole fraction : List Char} {n e : Nat}
    (all : ∀ x ∈ c :: whole, x.isDigit = true) (decimals : ∀ x ∈ fraction, x.isDigit = true)
    (value : digitsValue (c :: whole ++ fraction) = n) (places : fraction.length = e + 1)
    (negative : Bool) :
    Reads (c :: whole ++ '.' :: fraction) (Decimal.toRat ⟨n, .negSucc e⟩) negative := by
  refine ⟨⟨c, _, rfl, all c List.mem_cons_self⟩, n, .negSucc e, Int.negSucc_le_zero e, rfl, ?_⟩
  rw [readMagnitude_point all decimals, value, places]
  rfl

private theorem reads_positional (decimal : Decimal) (negative : Bool) :
    Reads (positional decimal).toList decimal.toRat negative := by
  obtain ⟨n, exponent⟩ := decimal
  cases exponent with
  | ofNat e =>
    have text : (positional ⟨n, .ofNat e⟩).toList = Nat.toDigits 10 n ++ List.replicate e '0' :=
      String.toList_ofList
    rw [text]
    obtain ⟨c, more, spelled⟩ := List.exists_cons_of_ne_nil (Nat.toDigits_ne_nil (b := 10) (n := n))
    have all : ∀ x ∈ c :: (more ++ List.replicate e '0'), x.isDigit = true := by
      rw [← List.cons_append, ← spelled, List.forall_mem_append]
      exact ⟨isDigit_toDigits n, isDigit_zeros e⟩
    have value : digitsValue (c :: (more ++ List.replicate e '0')) = n * 10 ^ e := by
      rw [← List.cons_append, ← spelled, digitsValue_shifted]
    rw [spelled, List.cons_append]
    refine ⟨⟨c, _, rfl, all c List.mem_cons_self⟩, n * 10 ^ e, 0, le_rfl, ?_, ?_⟩
    · rw [Decimal.toRat, Int.ofNat_eq_natCast, zpow_natCast]
      push_cast
      ring
    · rw [readMagnitude_whole all, value]
  | negSucc e =>
    unfold positional
    dsimp only
    split
    next short =>
      rw [String.toList_ofList]
      refine @reads_point '0' [] _ n e (by simp) ?_ ?_ ?_ negative
      · rw [List.forall_mem_append]
        exact ⟨isDigit_zeros _, isDigit_toDigits n⟩
      · exact digitsValue_zeros (e + 1 - (Nat.toDigits 10 n).length + 1) n
      · rw [List.length_append, List.length_replicate]
        omega
    next long =>
      rw [String.toList_ofList]
      have whole : (Nat.toDigits 10 n).take ((Nat.toDigits 10 n).length - (e + 1)) ≠ [] := by
        rw [Ne, List.take_eq_nil_iff]
        rintro (none | none)
        · omega
        · exact Nat.toDigits_ne_nil none
      obtain ⟨c, more, spelled⟩ := List.exists_cons_of_ne_nil whole
      rw [spelled]
      refine reads_point ?_ ?_ ?_ ?_ negative
      · rw [← spelled]
        exact fun x member => isDigit_toDigits n x (List.mem_of_mem_take member)
      · exact fun x member => isDigit_toDigits n x (List.mem_of_mem_drop member)
      · rw [← spelled, List.take_append_drop]
        exact digitsValue_zeros 0 n
      · rw [List.length_drop]
        omega

/-- A double is its sign and its magnitude. -/
theorem eq_ofMagnitude (d : Double) : d = ofMagnitude d.isNegative d.magnitudeBits := by
  have bound : d.bits.toNat < 18446744073709551616 := d.bits.toNat_lt
  have same : d.bits.toNat = d.magnitudeBits + if d.isNegative then 9223372036854775808 else 0 := by
    unfold isNegative magnitudeBits
    simp only [decide_eq_true_eq]
    split <;> omega
  have bits : d.bits =
      UInt64.ofNat (d.magnitudeBits + if d.isNegative then 9223372036854775808 else 0) := by
    rw [← same, UInt64.ofNat_toNat]
  exact congrArg Double.mk bits

private theorem ofChars_signed {c : Char} {rest : List Char} {magnitude : Double}
    (digit : c.isDigit = true) (negative : Bool)
    (read : readMagnitude negative (c :: rest) = some magnitude) :
    ofChars ((if negative then "-" else "").toList ++ c :: rest) = .ok magnitude := by
  cases negative with
  | true =>
    have signed : ofChars ((if true then "-" else "").toList ++ c :: rest) =
        ofChars ('-' :: c :: rest) := rfl
    rw [signed, ofChars, if_pos rfl, read]
  | false =>
    have minus : c ≠ '-' := by
      rintro rfl
      cases digit
    have plus : c ≠ '+' := by
      rintro rfl
      cases digit
    have unsigned : ofChars ((if false then "-" else "").toList ++ c :: rest) = ofChars (c :: rest) :=
      rfl
    rw [unsigned, ofChars, if_neg minus, if_neg plus, read]

/-- Every double that is a number is read from its text. -/
theorem ofChars_display (number : d.isNaN = false) : ofChars d.display.toList = .ok d := by
  have same := eq_ofMagnitude d
  unfold display
  rw [if_neg (by simp [number]), String.toList_append]
  by_cases infinite : d.isInfinite = true
  · rw [if_pos infinite]
    rw [eq_of_beq infinite] at same
    generalize d.isNegative = negative at same ⊢
    rw [same]
    cases negative <;> decide
  rw [if_neg infinite]
  by_cases zero : d.isZero = true
  · rw [if_pos zero]
    rw [eq_of_beq zero] at same
    generalize d.isNegative = negative at same ⊢
    rw [same]
    cases negative <;> decide
  rw [if_neg zero]
  have finite : d.isFinite = true := by
    simp only [isNaN, isInfinite, isFinite, decide_eq_true_eq, decide_eq_false_iff_not, beq_iff_eq]
      at number infinite ⊢
    omega
  have nonzero : d.isZero = false := Bool.eq_false_iff.mpr zero
  have contains := contains_shortest .upward nonzero
  obtain ⟨⟨c, rest, text, digit⟩, digits, exponent, small, value, read⟩ :=
    reads_positional (d.shortest .upward) d.isNegative
  rw [← value] at contains
  rw [ofDecimal_of_contains contains finite nonzero d.isNegative (small.trans (by decide)), ← same,
    text] at read
  rw [text]
  exact ofChars_signed digit d.isNegative read

end PeerMesh.Proofs.DecimalTexts
