import PeerMesh.Address.Basic
import PeerMesh.Text.Hex
import PeerMesh.Text.Integer

/-! How addresses are written. Four decimal numbers with points between them, without leading zeros;
or eight groups of hexadecimal digits with colons between them, of which two colons leave out one
run of zeros and four numbers may stand for the last two. A port follows behind a colon, and eight
groups stand in brackets then. -/

namespace PeerMesh
namespace IpAddress

def dotted (octets : List UInt8) : String :=
  ".".intercalate (octets.map fun octet => toString octet)

/-- Groups without leading zeros. -/
def colonized (groups : List Nat) : String :=
  ":".intercalate (groups.map fun group => String.ofList (Nat.toDigits 16 group))

/-- Where the longest run of zeros starts, the first of several, and how long it is. -/
def zeroRun (groups : List Nat) : Nat × Nat :=
  let runs := (List.range groups.length).map fun start =>
    (start, ((groups.drop start).takeWhile (· = 0)).length)
  runs.foldl (fun best run => if best.2 < run.2 then run else best) (0, 0)

/-- The octets of an address that only carries one of four numbers. -/
def mapped? : List Nat → Option (List UInt8)
  | [0, 0, 0, 0, 0, 0xffff, high, low] => some (Bytes.big 2 high ++ Bytes.big 2 low)
  | _ => none

def display : IpAddress → String
  | .v4 bits => dotted (octets bits)
  | .v6 bits =>
    match mapped? (groups bits) with
    | some octets => "::ffff:" ++ dotted octets
    | none =>
      let (start, length) := zeroRun (groups bits)
      if 1 < length then
        colonized ((groups bits).take start) ++ "::" ++
          colonized ((groups bits).drop (start + length))
      else colonized (groups bits)

/-- The readers give what they have read with the characters after it. -/
def readChar (expected : Char) : List Char → Option (List Char)
  | c :: rest => if c = expected then some rest else none
  | [] => none

def decimalDigit? (c : Char) : Option Nat := if c.isDigit then some (c.toNat - 48) else none

def hexDigit? (c : Char) : Option Nat :=
  if c.toNat < 128 then (Text.Hex.value? c.toNat.toUInt8).map UInt8.toNat else none

def digitsOf (digit? : Char → Option Nat) (cs : List Char) : List Nat :=
  (cs.takeWhile fun c => (digit? c).isSome).filterMap digit?

def readOctet (cs : List Char) : Option (UInt8 × List Char) :=
  let digits := digitsOf decimalDigit? cs
  let value := digits.foldl (fun n d => 10 * n + d) 0
  if digits.isEmpty || 3 < digits.length || (digits.head? = some 0 && 1 < digits.length) ||
      255 < value then none
  else some (UInt8.ofNat value, cs.drop digits.length)

def readDotted (cs : List Char) : Option (List UInt8 × List Char) := do
  let (a, cs) ← readOctet cs
  let (b, cs) ← readOctet (← readChar '.' cs)
  let (c, cs) ← readOctet (← readChar '.' cs)
  let (d, cs) ← readOctet (← readChar '.' cs)
  pure ([a, b, c, d], cs)

def readGroup (cs : List Char) : Option (Nat × List Char) :=
  let digits := digitsOf hexDigit? cs
  if digits.isEmpty || 4 < digits.length then none
  else some (digits.foldl (fun n d => 16 * n + d) 0, cs.drop digits.length)

/-- Groups, as many as there are but no more than a count, and whether four numbers ended them. Each
but the first stands behind a colon. -/
def readGroups : Nat → Bool → List Char → List Nat × Bool × List Char
  | 0, _, cs => ([], false, cs)
  | count + 1, first, cs =>
    let next := if first then some cs else readChar ':' cs
    match if 0 < count then next.bind readDotted else none with
    | some (octets, rest) =>
      ([Bytes.ofBig (octets.take 2), Bytes.ofBig (octets.drop 2)], true, rest)
    | none =>
      match next.bind readGroup with
      | none => ([], false, cs)
      | some (group, rest) =>
        let (more, ended, rest) := readGroups count false rest
        (group :: more, ended, rest)

/-- Eight groups, or fewer with two colons in place of at least one group of zeros. Four numbers do
not stand before the two colons. -/
def readColonized (cs : List Char) : Option (IpAddress × List Char) :=
  let (head, ended, rest) := readGroups 8 true cs
  if head.length = 8 then some (ofGroups head, rest)
  else if ended then none
  else do
    let rest ← readChar ':' (← readChar ':' rest)
    let (tail, _, rest) := readGroups (7 - head.length) true rest
    let zeros := List.replicate (8 - head.length - tail.length) 0
    pure (ofGroups (head ++ zeros ++ tail), rest)

def whole {α : Type} : Option (α × List Char) → Option α
  | some (value, []) => some value
  | _ => none

def ofText? (text : String) : Option IpAddress :=
  (whole ((readDotted text.toList).map fun (octets, rest) => (ofOctets octets, rest))).or
    (whole (readColonized text.toList))

end IpAddress

namespace SocketAddress

open IpAddress

def display (address : SocketAddress) : String :=
  match address.ip with
  | .v4 _ => address.ip.display ++ ":" ++ toString address.port
  | .v6 _ => "[" ++ address.ip.display ++ "]:" ++ toString address.port

/-- A number in decimal digits, with any leading zeros, that a word of so many bits holds. -/
def readNumber (bits : Nat) (cs : List Char) : Option (Nat × List Char) :=
  let digits := digitsOf decimalDigit? cs
  let value := digits.foldl (fun n d => 10 * n + d) 0
  if digits.isEmpty || Nat.pow 2 bits ≤ value then none else some (value, cs.drop digits.length)

def readPort (cs : List Char) : Option (UInt16 × List Char) := do
  let (port, rest) ← readNumber 16 (← readChar ':' cs)
  pure (UInt16.ofNat port, rest)

def readPlain (cs : List Char) : Option (SocketAddress × List Char) := do
  let (octets, rest) ← readDotted cs
  let (port, rest) ← readPort rest
  pure (⟨ofOctets octets, port⟩, rest)

/-- The number of an interface behind a percent sign, which changes nothing here. -/
def skipScope (cs : List Char) : List Char :=
  (do let (_, rest) ← readNumber 32 (← readChar '%' cs); pure rest : Option (List Char)).getD cs

def readBracketed (cs : List Char) : Option (SocketAddress × List Char) := do
  let (ip, rest) ← readColonized (← readChar '[' cs)
  let (port, rest) ← readPort (← readChar ']' (skipScope rest))
  pure (⟨ip, port⟩, rest)

def ofText? (text : String) : Option SocketAddress :=
  (whole (readPlain text.toList)).or (whole (readBracketed text.toList))

example : (ofText? "[2001:DB8:0:0:1::1]:07").map display = some "[2001:db8::1:0:0:1]:7" := by
  decide +kernel

example : (ofText? "01.2.3.4:5").isNone ∧ (ofText? "[::ffff:1.2.3.4]:80").isSome := by
  decide +kernel

end SocketAddress
end PeerMesh
