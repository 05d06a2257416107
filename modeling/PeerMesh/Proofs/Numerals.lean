import Mathlib.Data.List.Induction
import PeerMesh.Text.Integer

/-! Numerals. Digits stand for a number exactly if they are its shortest numeral behind any number of
zeros. -/

namespace PeerMesh.Proofs.Numerals
open Text

theorem digitsValue_eq_ofDigitChars (cs : List Char) : digitsValue cs = Nat.ofDigitChars 10 cs 0 :=
  digitsValue_eq cs

/-- A digit is the shortest numeral of its value. -/
theorem toDigits_digit {c : Char} (digit : c.isDigit = true) :
    c.toNat - 48 < 10 ∧ Nat.toDigits 10 (c.toNat - 48) = [c] := by
  have range : 48 ≤ c.toNat ∧ c.toNat ≤ 57 := Char.isDigit_iff_toNat.mp digit
  have small : c.toNat - 48 < 10 := by omega
  have same : (c.toNat - 48).digitChar = c := by
    rw [← Char.toNat_inj, Nat.toNat_digitChar_of_lt_ten small]
    omega
  exact ⟨small, by rw [Nat.toDigits_of_lt_base small, same]⟩

/-- Digits one by one: zeros are kept as they are, until a digit makes a number of them. -/
private theorem digits_eq {cs : List Char} (digits : ∀ c ∈ cs, c.isDigit = true) (spelled : cs ≠ []) :
    ∃ zeros, cs = List.replicate zeros '0' ++ Nat.toDigits 10 (Nat.ofDigitChars 10 cs 0) := by
  induction cs using List.reverseRecOn with
  | nil => exact absurd rfl spelled
  | append_singleton cs c ih =>
    obtain ⟨small, last⟩ := toDigits_digit (digits c (List.mem_append_right _ List.mem_cons_self))
    have value : Nat.ofDigitChars 10 (cs ++ [c]) 0 = 10 * Nat.ofDigitChars 10 cs 0 + (c.toNat - 48) := by
      rw [Nat.ofDigitChars_append, Nat.ofDigitChars_cons, Nat.ofDigitChars_nil]
      rfl
    rw [value]
    by_cases first : cs = []
    · subst first
      rw [Nat.ofDigitChars_nil, Nat.mul_zero, Nat.zero_add, last]
      exact ⟨0, rfl⟩
    obtain ⟨zeros, before⟩ := ih (fun d member => digits d (List.mem_append_left _ member)) first
    rcases Nat.eq_zero_or_pos (Nat.ofDigitChars 10 cs 0) with zero | positive
    · rw [zero, Nat.toDigits_zero, ← List.replicate_succ'] at before
      rw [zero, Nat.mul_zero, Nat.zero_add, last]
      exact ⟨zeros + 1, congrArg (· ++ [c]) before⟩
    · rw [← Nat.toDigits_append_toDigits (by decide) positive small, last]
      exact ⟨zeros, (congrArg (· ++ [c]) before).trans (List.append_assoc ..)⟩

theorem digits?_eq_some_iff {cs : List Char} {n : Nat} :
    digits? cs = some n ↔ ∃ zeros, cs = List.replicate zeros '0' ++ Nat.toDigits 10 n := by
  unfold digits?
  constructor
  · intro read
    split at read
    · cases read
    next plain =>
      simp only [Bool.or_eq_true, List.isEmpty_iff, Bool.not_eq_true', not_or, Bool.not_eq_false,
        List.all_eq_true] at plain
      cases read
      rw [digitsValue_eq_ofDigitChars]
      exact digits_eq plain.2 plain.1
  · rintro ⟨zeros, rfl⟩
    have digits : (List.replicate zeros '0' ++ Nat.toDigits 10 n).all Char.isDigit = true := by
      rw [List.all_append, Bool.and_eq_true, List.all_eq_true, List.all_eq_true]
      refine ⟨fun c member => ?_, fun c member => ?_⟩
      · rw [List.eq_of_mem_replicate member]
        rfl
      · exact Nat.isDigit_of_mem_toDigits (by decide) (by decide) member
    have spelled : (List.replicate zeros '0' ++ Nat.toDigits 10 n).isEmpty = false := by
      rw [List.isEmpty_eq_false_iff]
      exact List.append_ne_nil_of_right_ne_nil _ Nat.toDigits_ne_nil
    rw [digits, spelled, digitsValue_eq_ofDigitChars, Nat.ofDigitChars_append,
      Nat.ofDigitChars_replicate_zero, Nat.mul_zero, Nat.ofDigitChars_ten_toDigits]
    rfl

/-- A natural number is read from its numeral behind zeros and perhaps a plus sign, if it is not too
great. -/
theorem natural?_eq_some_iff {max n : Nat} {text : String} :
    natural? max text = some n ↔ n ≤ max ∧ ∃ plus : Bool, ∃ zeros,
      text.toList = (if plus then ['+'] else []) ++ (List.replicate zeros '0' ++ Nat.toDigits 10 n) := by
  unfold natural?
  dsimp only
  rw [Option.filter_eq_some_iff, decide_eq_true_iff, and_comm]
  refine and_congr_right fun _ => ?_
  split
  next rest same =>
    -- Digits cannot begin with a sign, so it has to be the one that is passed over.
    have signed : digits? ('+' :: rest) = none := rfl
    rw [digits?_eq_some_iff, same]
    constructor
    · rintro ⟨zeros, rfl⟩
      exact ⟨true, zeros, rfl⟩
    · rintro ⟨plus, zeros, spelled⟩
      cases plus with
      | true => exact ⟨zeros, List.cons.inj spelled |>.2⟩
      | false =>
        have read : digits? ('+' :: rest) = some n := digits?_eq_some_iff.mpr ⟨zeros, spelled⟩
        rw [signed] at read
        cases read
  next cs unsigned =>
    rw [digits?_eq_some_iff]
    constructor
    · rintro ⟨zeros, spelled⟩
      exact ⟨false, zeros, spelled⟩
    · rintro ⟨plus, zeros, spelled⟩
      cases plus with
      | true => exact absurd spelled (unsigned _)
      | false => exact ⟨zeros, spelled⟩

end PeerMesh.Proofs.Numerals
