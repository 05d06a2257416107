/-! Double-precision numbers as their sixty-four bits, with exact rounding: every operation goes
through a quotient of natural numbers and is rounded once, a half to the even neighbour. Equality
of doubles here is equality of bits; `numEq` is equality of the numbers. -/

namespace PeerMesh

/-- A double-precision number: one sign bit, eleven bits of exponent, fifty-two of fraction. -/
structure Double where
  bits : UInt64
  deriving DecidableEq, Repr

namespace Double

/-- `2 ^ 52`, the weight of the lowest exponent bit. -/
def fractionSize : Nat := 4503599627370496

/-- The bits of infinity: the greatest exponent over an empty fraction. -/
def infinityBits : Nat := 0x7FF0000000000000

def isNegative (d : Double) : Bool := 0x8000000000000000 ≤ d.bits.toNat

/-- The bits without the sign. -/
def magnitudeBits (d : Double) : Nat := d.bits.toNat % 0x8000000000000000

def isNaN (d : Double) : Bool := infinityBits < d.magnitudeBits

def isInfinite (d : Double) : Bool := d.magnitudeBits == infinityBits

def isFinite (d : Double) : Bool := d.magnitudeBits < infinityBits

def isZero (d : Double) : Bool := d.magnitudeBits == 0

def ofMagnitude (negative : Bool) (magnitude : Nat) : Double :=
  ⟨UInt64.ofNat (magnitude + if negative then 0x8000000000000000 else 0)⟩

def zero : Double := ⟨0⟩

def nan : Double := ⟨0x7FF8000000000000⟩

def infinity (negative : Bool) : Double := ofMagnitude negative infinityBits

/-- Equality of the numbers: the zeros are equal, and a NaN equals nothing. -/
def numEq (x y : Double) : Bool :=
  if x.isNaN || y.isNaN then false else x.bits == y.bits || (x.isZero && y.isZero)

/-- The integer `m` of a finite magnitude `m * 2 ^ (scale - 1075)`. -/
def mantissa (d : Double) : Nat :=
  if d.magnitudeBits < fractionSize then d.magnitudeBits
  else fractionSize + d.magnitudeBits % fractionSize

/-- The exponent of a finite magnitude `mantissa * 2 ^ (scale - 1075)`; subnormal numbers share the
scale of the least normal ones. -/
def scale (d : Double) : Nat := max 1 (d.magnitudeBits / fractionSize)

/-- A finite magnitude as a quotient of natural numbers, the lower one positive. -/
def ratio (d : Double) : Nat × Nat :=
  if 1075 ≤ d.scale then (d.mantissa * Nat.pow 2 (d.scale - 1075), 1)
  else (d.mantissa, Nat.pow 2 (1075 - d.scale))

/-- `num / den` rounded to an integer, a half to the even one. -/
def roundDiv (num den : Nat) : Nat :=
  let q := num / den
  let r := num % den
  if 2 * r < den then q else if den < 2 * r then q + 1 else q + q % 2

/-- The scale of the double nearest to `num / den`: the one at which the quotient is rounded to
an integer below `2 ^ 53`, and from `2 ^ 52` on unless it is subnormal. -/
def scaleOf (num den : Nat) : Nat :=
  let guess := (1075 + num.log2 : Nat) - den.log2 - 52
  let fits (s : Nat) : Bool :=
    if 1075 ≤ s then num < den * Nat.pow 2 (s - 1075) * (2 * fractionSize)
    else num * Nat.pow 2 (1075 - s) < den * (2 * fractionSize)
  max 1 (if fits (guess - 1) then guess - 1 else if fits guess then guess else guess + 1)

/-- The double nearest to `num / den`, where `den` is positive. -/
def ofRatio (negative : Bool) (num den : Nat) : Double :=
  if num = 0 then ofMagnitude negative 0
  else
    let s := scaleOf num den
    let m := if 1075 ≤ s then roundDiv num (den * Nat.pow 2 (s - 1075))
      else roundDiv (num * Nat.pow 2 (1075 - s)) den
    ofMagnitude negative (min infinityBits ((s - 1) * fractionSize + m))

/-- The double nearest to a number with digits `digits` and the power `exponent` of ten. Where the
power alone decides, nothing is computed. -/
def ofDecimal (negative : Bool) (digits : Nat) (exponent : Int) : Double :=
  if digits = 0 then ofMagnitude negative 0
  else if 310 < exponent then infinity negative
  else if exponent + (digits.log2 / 3 + 1 : Nat) < -330 then ofMagnitude negative 0
  else match exponent with
    | .ofNat e => ofRatio negative (digits * Nat.pow 10 e) 1
    | .negSucc e => ofRatio negative digits (Nat.pow 10 (e + 1))

def ofNat (negative : Bool) (n : Nat) : Double := ofRatio negative n 1

/-- The double nearest to an integer, without a negative zero. -/
def ofInt (i : Int) : Double := ofNat (i < 0) i.natAbs

def neg (d : Double) : Double := ofMagnitude (!d.isNegative) d.magnitudeBits

/-- The product of two finite doubles. -/
def mul (x y : Double) : Double :=
  let (a, b) := x.ratio
  let (c, d) := y.ratio
  ofRatio (x.isNegative != y.isNegative) (a * c) (b * d)

/-- The quotient of two finite doubles, the second not zero. -/
def div (x y : Double) : Double :=
  let (a, b) := x.ratio
  let (c, d) := y.ratio
  ofRatio (x.isNegative != y.isNegative) (a * d) (b * c)

/-- The integer part of a finite double, toward zero. -/
def truncate (d : Double) : Int :=
  let (a, b) := d.ratio
  if d.isNegative then -((a / b : Nat) : Int) else (a / b : Nat)

/-- The integer part, held within `low` and `high`; a NaN gives zero. -/
def toBounded (low high : Int) (d : Double) : Int :=
  if d.isNaN then 0
  else if d.isInfinite then if d.isNegative then low else high
  else max low (min high d.truncate)

/-- The thirty-two bit integer nearest to the integer part. -/
def toInt32 (d : Double) : Int32 := Int32.ofInt (d.toBounded (-2147483648) 2147483647)

example : ofDecimal false 1 (-1) = ⟨0x3FB999999999999A⟩ := by decide +kernel
example : ofDecimal false 5 (-324) = ⟨1⟩ := by decide +kernel
example : ofDecimal false 24703282292062327 (-340) = ⟨0⟩ := by decide +kernel
example : ofDecimal false 17976931348623157 292 = ⟨0x7FEFFFFFFFFFFFFF⟩ := by decide +kernel
example : ofDecimal true 18 307 = infinity true := by decide +kernel
example : ofNat false 9007199254740993 = ⟨0x4340000000000000⟩ := by decide +kernel
example : (ofInt (-2147483649)).toInt32 = -2147483648 := by decide +kernel

end Double
end PeerMesh
