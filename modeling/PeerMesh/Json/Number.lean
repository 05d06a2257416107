import PeerMesh.Double.Shortest
import PeerMesh.Text.Integer

/-! Numbers of JSON documents. A number without point and exponent that fits in sixty-four bits,
with or without a sign, is an integer; any other is a double. The double is computed from the first
digits, as many as fit in sixty-four bits, by one multiplication or division with a power of ten, so
it need not be the nearest one. Doubles are written by their shortest decimal. -/

namespace PeerMesh.Json

inductive Number where
  /-- An integer from `-2 ^ 63` to `2 ^ 64 - 1`. -/
  | int (value : Int)
  /-- A finite double. -/
  | float (value : Double)
  deriving DecidableEq, Repr

/-- A number as it is spelled. -/
structure Numeral where
  negative : Bool
  whole : List Char
  /-- The digits after the point, if there is one. -/
  fraction : Option (List Char)
  /-- Whether the exponent is negative, and its digits. -/
  exponent : Option (Bool × List Char)
  deriving DecidableEq, Repr

namespace Numeral

/-- The greatest number of sixty-four bits. -/
def maxSignificand : Nat := 18446744073709551615

/-- Takes digits into a significand while it fits; the rest is returned. -/
def gather (significand : Nat) : List Char → Nat × List Char
  | [] => (significand, [])
  | c :: rest =>
    let next := significand * 10 + (c.toNat - 48)
    if maxSignificand < next then (significand, c :: rest) else gather next rest

/-- `significand * 10 ^ exponent`, in steps that stay within the powers of ten of a double. There is
no result where it would be infinite. -/
def scaled : Nat → Double → Int → Option Double
  | 0, f, _ => some f
  | fuel + 1, f, exponent =>
    if exponent.natAbs ≤ 308 then
      let power := Double.ofNat false (Nat.pow 10 exponent.natAbs)
      if 0 ≤ exponent then
        let product := f.mul power
        if product.isInfinite then none else some product
      else some (f.div power)
    else if f.isZero then some f
    else if 0 ≤ exponent then none
    else scaled fuel (f.div (Double.ofNat false (Nat.pow 10 308))) (exponent + 308)

/-- The double of a numeral whose digits give `significand * 10 ^ shift` before its exponent. -/
def toDouble? (n : Numeral) (significand : Nat) (shift : Int) : Option Double :=
  let magnitude := match n.exponent with
    | none => scaled 5 (Double.ofNat false significand) shift
    | some (negative, digits) =>
      let value := Text.digitsValue digits
      if 2147483647 < value then
        if significand ≠ 0 && !negative then none else some Double.zero
      else
        scaled 5 (Double.ofNat false significand)
          (if negative then shift - value else shift + value)
  magnitude.map fun d => if n.negative then d.neg else d

def value? (n : Numeral) : Option Number :=
  let (significand, skipped) := gather 0 n.whole
  match n.fraction, n.exponent, skipped with
  | none, none, [] =>
    if !n.negative then some (.int significand)
    else if significand = 0 || 9223372036854775808 < significand then
      some (.float (Double.ofNat false significand).neg)
    else some (.int (-significand))
  | none, _, _ => (n.toDouble? significand skipped.length).map .float
  | some fraction, _, _ =>
    let (significand, rest) := gather significand fraction
    let taken := fraction.length - rest.length
    (n.toDouble? significand ((skipped.length : Int) - taken)).map .float

/-- Reads digits, of which there must be one. -/
def readDigits (cs : List Char) : Option (List Char × List Char) :=
  let (digits, rest) := cs.span Char.isDigit
  if digits.isEmpty then none else some (digits, rest)

/-- The exponent after the letter: whether it is negative, and its digits. -/
def readExponent : List Char → Option ((Bool × List Char) × List Char)
  | '-' :: rest => (readDigits rest).map fun (digits, rest) => ((true, digits), rest)
  | '+' :: rest => (readDigits rest).map fun (digits, rest) => ((false, digits), rest)
  | rest => (readDigits rest).map fun (digits, rest) => ((false, digits), rest)

def readFraction : List Char → Option (Option (List Char) × List Char)
  | '.' :: rest => (readDigits rest).map fun (digits, rest) => (some digits, rest)
  | rest => some (none, rest)

def readPower : List Char → Option (Option (Bool × List Char) × List Char)
  | 'e' :: rest => (readExponent rest).map fun (exponent, rest) => (some exponent, rest)
  | 'E' :: rest => (readExponent rest).map fun (exponent, rest) => (some exponent, rest)
  | rest => some (none, rest)

/-- Reads a numeral after its sign: digits without a superfluous zero in front, then fraction and
exponent. -/
def readUnsigned (negative : Bool) (cs : List Char) : Option (Numeral × List Char) :=
  (readDigits cs).bind fun (whole, rest) =>
    if whole.length ≠ 1 && whole.head? = some '0' then none
    else (readFraction rest).bind fun (fraction, rest) =>
      (readPower rest).map fun (exponent, rest) => (⟨negative, whole, fraction, exponent⟩, rest)

def read? : List Char → Option (Numeral × List Char)
  | '-' :: rest => readUnsigned true rest
  | cs => readUnsigned false cs

end Numeral

namespace Number

/-- A decimal as JSON spells it: with a point and no exponent if the first digit has an exponent
from -5 to 15, else with one digit before the point and a signed exponent. -/
def layout (d : Decimal) : List Char :=
  let digits := Nat.toDigits 10 d.digits
  let top : Int := d.exponent + digits.length - 1
  if 0 ≤ d.exponent && top ≤ 15 then
    digits ++ List.replicate d.exponent.toNat '0' ++ ['.', '0']
  else if 0 ≤ top && top ≤ 15 then
    digits.take (top.toNat + 1) ++ '.' :: digits.drop (top.toNat + 1)
  else if -5 ≤ top && top < 0 then
    '0' :: '.' :: (List.replicate (-top - 1).toNat '0' ++ digits)
  else
    let mantissa := match digits with
      | first :: second :: rest => first :: '.' :: second :: rest
      | digits => digits
    mantissa ++ 'e' :: (if 0 ≤ top then '+' else '-') :: Nat.toDigits 10 top.natAbs

def floatText (d : Double) : String :=
  (if d.isNegative then "-" else "") ++
    if d.isZero then "0.0" else String.ofList (layout (d.shortest .even))

def text : Number → String
  | .int n => toString n
  | .float d => floatText d

def toDouble : Number → Double
  | .int n => Double.ofInt n
  | .float d => d

end Number
end PeerMesh.Json
