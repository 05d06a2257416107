/-! Integers written in digits. A decimal within bounds may have a plus sign before its digits, and
a minus sign only where negative numbers are read. Main statement: taking a numeral by halves gives
the number that taking it digit by digit gives. -/

namespace PeerMesh.Text

def hexValue? (c : Char) : Option Nat :=
  if '0' ≤ c && c ≤ '9' then some (c.toNat - 48)
  else if 'a' ≤ c && c ≤ 'f' then some (c.toNat - 87)
  else if 'A' ≤ c && c ≤ 'F' then some (c.toNat - 55)
  else none

/-- The number that digits write in a base, taken digit by digit. -/
def foldDigits (base : Nat) (value : Char → Nat) (digits : List Char) : Nat :=
  digits.foldl (fun n c => base * n + value c) 0

/-- The number that digits write in a base, taken by halves to a depth: a long numeral then needs
few products of great numbers. -/
def halveDigits (base : Nat) (value : Char → Nat) : Nat → List Char → Nat
  | 0, digits => foldDigits base value digits
  | depth + 1, digits =>
    let half := digits.length / 2
    Nat.pow base (digits.length - half) * halveDigits base value depth (digits.take half) +
      halveDigits base value depth (digits.drop half)

/-- The number that digits write in a base; numerals of fewer than sixty-four digits are not
halved. -/
def numeral (base : Nat) (value : Char → Nat) (digits : List Char) : Nat :=
  halveDigits base value (digits.length.log2 - 5) digits

def digitsValue (digits : List Char) : Nat := numeral 10 (fun c => c.toNat - 48) digits

private theorem foldl_digits (base : Nat) (value : Char → Nat) (digits : List Char) (n : Nat) :
    digits.foldl (fun n c => base * n + value c) n =
      Nat.pow base digits.length * n + foldDigits base value digits := by
  induction digits generalizing n with
  | nil => simp [foldDigits]
  | cons c rest ih =>
    have step := ih (base * n + value c)
    have first := ih (base * 0 + value c)
    simp only [foldDigits, List.foldl_cons, List.length_cons] at step first ⊢
    rw [step, first]
    simp only [Nat.pow_eq, Nat.pow_succ, Nat.mul_add, Nat.mul_zero, Nat.zero_add, Nat.mul_assoc,
      Nat.add_assoc]

theorem foldDigits_append (base : Nat) (value : Char → Nat) (high low : List Char) :
    foldDigits base value (high ++ low) =
      Nat.pow base low.length * foldDigits base value high + foldDigits base value low := by
  rw [foldDigits, List.foldl_append, foldl_digits]
  rfl

theorem halveDigits_eq (base : Nat) (value : Char → Nat) (depth : Nat) (digits : List Char) :
    halveDigits base value depth digits = foldDigits base value digits := by
  induction depth generalizing digits with
  | zero => rfl
  | succ depth ih =>
    have halves := foldDigits_append base value (digits.take (digits.length / 2))
      (digits.drop (digits.length / 2))
    rw [List.take_append_drop, List.length_drop] at halves
    rw [halves, halveDigits, ih, ih]

/-- Decimal digits taken one after the other. -/
theorem digitsValue_eq (digits : List Char) :
    digitsValue digits = foldDigits 10 (fun c => c.toNat - 48) digits :=
  halveDigits_eq ..

/-- The number written by one digit or more, and nothing else. -/
def digits? (cs : List Char) : Option Nat :=
  if cs.isEmpty || !cs.all Char.isDigit then none else some (digitsValue cs)

/-- A natural number of at most `max`. -/
def natural? (max : Nat) (s : String) : Option Nat :=
  let digits := match s.toList with
    | '+' :: rest => rest
    | cs => cs
  (digits? digits).filter (· ≤ max)

/-- An integer from `low` to `high`. -/
def integer? (low high : Int) (cs : List Char) : Option Int :=
  let value? : Option Int := match cs with
    | '-' :: rest => (digits? rest).map fun n => -(n : Int)
    | '+' :: rest => (digits? rest).map Int.ofNat
    | rest => (digits? rest).map Int.ofNat
  value?.filter fun n => low ≤ n && n ≤ high

example : natural? 65535 "+0080" = some 80 ∧ natural? 65535 "65536" = none ∧
    natural? 65535 "-0" = none ∧ natural? 65535 "+" = none := by decide +kernel

end PeerMesh.Text
