import PeerMesh.Double.Shortest
import PeerMesh.Text.Integer

/-! Doubles as text. A double is displayed by its shortest decimal, written out in full whatever its
size. It is read from an optional sign and digits with at most one point and one exponent, or from
the names of infinity and of NaN. -/

namespace PeerMesh.Double

/-- A decimal written without an exponent: zeros fill the places up to the point. -/
def positional (d : Decimal) : String :=
  let digits := Nat.toDigits 10 d.digits
  match d.exponent with
  | .ofNat e => String.ofList (digits ++ List.replicate e '0')
  | .negSucc e =>
    let places := e + 1
    if digits.length ≤ places then
      String.ofList ('0' :: '.' :: (List.replicate (places - digits.length) '0' ++ digits))
    else
      let whole := digits.length - places
      String.ofList (digits.take whole ++ '.' :: digits.drop whole)

/-- The display form: of two shortest decimals equally near, the greater magnitude. -/
def display (d : Double) : String :=
  if d.isNaN then "NaN"
  else (if d.isNegative then "-" else "") ++
    if d.isInfinite then "inf"
    else if d.isZero then "0"
    else positional (d.shortest .upward)

inductive ReadFault where
  | empty
  | invalid
  deriving DecidableEq, Repr

def ReadFault.message : ReadFault → String
  | .empty => "cannot parse float from empty string"
  | .invalid => "invalid float literal"

/-- The number that the digits of an exponent write. It stops growing once it is past every
exponent that matters. -/
def exponentValue (digits : List Char) : Nat :=
  digits.foldl (fun n c => if n < 0x10000 then 10 * n + (c.toNat - 48) else n) 0

def spanDigits (cs : List Char) : List Char × List Char := cs.span Char.isDigit

/-- What may follow the digits: nothing, or an exponent with at least one digit. -/
def readExponent : List Char → Option Int
  | [] => some 0
  | c :: rest =>
    if c = 'e' || c = 'E' then
      let (negative, digits) := match rest with
        | '-' :: digits => (true, digits)
        | '+' :: digits => (false, digits)
        | digits => (false, digits)
      if digits.isEmpty || !digits.all Char.isDigit then none
      else
        let value : Int := exponentValue digits
        some (if negative then -value else value)
    else none

def readMagnitude (negative : Bool) (cs : List Char) : Option Double :=
  let name := cs.map Char.toLower
  if name = "inf".toList || name = "infinity".toList then some (infinity negative)
  else if name = "nan".toList then some (if negative then nan.neg else nan)
  else
    let (whole, rest) := spanDigits cs
    let (fraction, rest) := match rest with
      | '.' :: after => spanDigits after
      | _ => ([], rest)
    if whole.isEmpty && fraction.isEmpty then none
    else (readExponent rest).map fun exponent =>
      ofDecimal negative (Text.digitsValue (whole ++ fraction)) (exponent - fraction.length)

def ofChars : List Char → Except ReadFault Double
  | [] => .error .empty
  | c :: rest =>
    let read := if c = '-' then readMagnitude true rest
      else if c = '+' then readMagnitude false rest
      else readMagnitude false (c :: rest)
    match read with
    | some d => .ok d
    | none => .error .invalid

end PeerMesh.Double
