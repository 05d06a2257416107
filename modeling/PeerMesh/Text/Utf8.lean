/-! Reading bytes as UTF-8. Bytes that are no text are described by the place of the first fault:
where the longest readable part ends, and how many bytes the broken sequence there takes, if the
bytes did not simply end inside it. -/

namespace PeerMesh.Text

inductive Utf8Fault where
  /-- The `width` bytes at `index` begin no character. -/
  | invalid (width index : Nat)
  /-- The bytes end inside the character that starts at `index`. -/
  | incomplete (index : Nat)
  deriving DecidableEq, Repr

def Utf8Fault.message : Utf8Fault → String
  | .invalid width index => s!"invalid utf-8 sequence of {width} bytes from index {index}"
  | .incomplete index => s!"incomplete utf-8 byte sequence from index {index}"

namespace Utf8

/-- What the first byte of a character promises: how many bytes follow it, and the range of the
first of them. -/
def lead (b : UInt8) : Option (Nat × UInt8 × UInt8) :=
  if b < 0x80 then some (0, 0x80, 0xBF)
  else if 0xC2 ≤ b && b ≤ 0xDF then some (1, 0x80, 0xBF)
  else if b == 0xE0 then some (2, 0xA0, 0xBF)
  else if b == 0xED then some (2, 0x80, 0x9F)
  else if 0xE1 ≤ b && b ≤ 0xEF then some (2, 0x80, 0xBF)
  else if b == 0xF0 then some (3, 0x90, 0xBF)
  else if 0xF1 ≤ b && b ≤ 0xF3 then some (3, 0x80, 0xBF)
  else if b == 0xF4 then some (3, 0x80, 0x8F)
  else none

/-- How a character's remaining bytes go on. -/
inductive Tail where
  | complete (rest : List UInt8)
  /-- The byte after `read` good ones does not belong to the character. -/
  | broken (read : Nat)
  | cut

/-- Reads `count` continuation bytes, the first of them from `low` to `high`. -/
def tail : Nat → UInt8 → UInt8 → Nat → List UInt8 → Tail
  | 0, _, _, _, bytes => .complete bytes
  | _ + 1, _, _, _, [] => .cut
  | count + 1, low, high, read, b :: rest =>
    if low ≤ b && b ≤ high then tail count 0x80 0xBF (read + 1) rest else .broken read

/-- The first fault at or after `index`, reading at most `fuel` characters. -/
def faultFrom : Nat → Nat → List UInt8 → Option Utf8Fault
  | 0, _, _ => none
  | _ + 1, _, [] => none
  | fuel + 1, index, b :: rest =>
    match lead b with
    | none => some (.invalid 1 index)
    | some (count, low, high) =>
      match tail count low high 0 rest with
      | .complete after => faultFrom fuel (index + 1 + count) after
      | .broken read => some (.invalid (read + 1) index)
      | .cut => some (.incomplete index)

def fault (bytes : ByteArray) : Utf8Fault :=
  (faultFrom (bytes.size + 1) 0 bytes.data.toList).getD (.incomplete bytes.size)

def decode? (bytes : ByteArray) : Option String := String.fromUTF8? bytes

def decode (bytes : ByteArray) : Except Utf8Fault String :=
  match decode? bytes with
  | some text => .ok text
  | none => .error (fault bytes)

theorem decode?_toByteArray (s : String) : decode? s.toByteArray = some s := by
  simp only [decode?, String.fromUTF8?, dif_pos s.isValidUTF8]
  rfl

theorem eq_toByteArray_of_decode? {bytes : ByteArray} {s : String} (read : decode? bytes = some s) :
    bytes = s.toByteArray := by
  simp only [decode?, String.fromUTF8?] at read
  split at read
  · simp only [Option.some.injEq] at read
    subst read
    rfl
  · cases read

end Utf8
end PeerMesh.Text
