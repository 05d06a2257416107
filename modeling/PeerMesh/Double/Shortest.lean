import PeerMesh.Double.Basic

/-! The shortest decimal that reads back as a given double. The reals that round to the double form
an interval, whose ends belong to it when the double's mantissa is even. Among the decimals in the
interval those with fewest digits are wanted, and of these the one nearest to the double. On the
decimal grid of each length only the two neighbours of the double have to be tried. -/

namespace PeerMesh

/-- A positive decimal number `digits * 10 ^ exponent`. -/
structure Decimal where
  digits : Nat
  exponent : Int
  deriving DecidableEq, Repr

/-- Which of two equally near decimals is taken. -/
inductive DecimalTie where
  | upward
  | even
  deriving DecidableEq, Repr

namespace Decimal

/-- The same number without trailing zeros; `fuel` bounds their count. -/
def trimZeros : Nat → Nat → Int → Decimal
  | 0, digits, exponent => ⟨digits, exponent⟩
  | fuel + 1, digits, exponent =>
    if digits % 10 = 0 then trimZeros fuel (digits / 10) (exponent + 1) else ⟨digits, exponent⟩

/-- `num / den` multiplied by `10 ^ -exponent`, again as a quotient. -/
def onGrid (num den : Nat) : Int → Nat × Nat
  | .ofNat e => (num, den * Nat.pow 10 e)
  | .negSucc e => (num * Nat.pow 10 (e + 1), den)

/-- The least `place` with `num / den < 10 ^ place`. -/
def place (num den : Nat) : Int :=
  let guess : Int := (((num.log2 : Int) - den.log2 - 1) * 1233).fdiv 4096
  let below (k : Int) : Bool :=
    let (n, d) := onGrid num den k
    n < d
  if below guess then guess else if below (guess + 1) then guess + 1 else guess + 2

end Decimal

namespace Double

/-- The reals that round to a double, as multiples of `num / den`: the double itself, the two ends,
and whether the ends belong. -/
structure Interval where
  num : Nat
  den : Nat
  value : Nat
  low : Nat
  high : Nat
  closed : Bool

/-- The interval of a positive finite double. Below a power of two the neighbours are twice as
dense. -/
def interval (d : Double) : Interval :=
  let m := d.mantissa
  { num := if 1077 ≤ d.scale then Nat.pow 2 (d.scale - 1077) else 1
    den := if 1077 ≤ d.scale then 1 else Nat.pow 2 (1077 - d.scale)
    value := 4 * m
    low := if m = fractionSize && 1 < d.scale then 4 * m - 1 else 4 * m - 2
    high := 4 * m + 2
    closed := m % 2 == 0 }

/-- Whether the multiple `digits` of `10 ^ exponent` lies in the interval. -/
def Interval.holds (i : Interval) (exponent : Int) (digits : Nat) : Bool :=
  let (n, d) := Decimal.onGrid i.num i.den exponent
  if i.closed then i.low * n ≤ digits * d && digits * d ≤ i.high * n
  else i.low * n < digits * d && digits * d < i.high * n

/-- The nearest multiple of `10 ^ exponent` in the interval, if there is one. -/
def Interval.nearest? (i : Interval) (tie : DecimalTie) (exponent : Int) : Option Nat :=
  let (n, d) := Decimal.onGrid i.num i.den exponent
  let below := i.value * n / d
  let rest := i.value * n % d
  let rounded :=
    if 2 * rest < d then below else if d < 2 * rest then below + 1
    else match tie with
      | .upward => below + 1
      | .even => below + below % 2
  let other := if rounded = below then below + 1 else below
  if i.holds exponent rounded then some rounded
  else if i.holds exponent other then some other
  else none

def shortest (tie : DecimalTie) (d : Double) : Decimal :=
  let i := d.interval
  let top := Decimal.place (i.value * i.num) i.den
  let found := (List.range 17).findSome? fun (n : Nat) =>
    let exponent := top - (n + 1 : Nat)
    (i.nearest? tie exponent).map fun digits => Decimal.trimZeros 18 digits exponent
  found.getD ⟨d.mantissa, 0⟩

example : shortest .even ⟨0x3FB999999999999A⟩ = ⟨1, -1⟩ := by decide +kernel
example : shortest .even ⟨0x3FD3333333333334⟩ = ⟨30000000000000004, -17⟩ := by decide +kernel
example : shortest .even ⟨1⟩ = ⟨5, -324⟩ := by decide +kernel
example : shortest .even ⟨0x7FEFFFFFFFFFFFFF⟩ = ⟨17976931348623157, 292⟩ := by decide +kernel
example : shortest .upward ⟨0x4310000000000001⟩ = ⟨11258999068426243, -1⟩ := by decide +kernel
example : shortest .even ⟨0x4310000000000001⟩ = ⟨11258999068426242, -1⟩ := by decide +kernel
example : shortest .even ⟨0x4340000000000000⟩ = ⟨9007199254740992, 0⟩ := by decide +kernel

end Double
end PeerMesh
