import PeerMesh.Text.Quoted

/-! Bytes written as pairs of hexadecimal digits, high half first. Written digits are small; both
cases are read. An odd number of digits is reported before any digit is looked at. -/

namespace PeerMesh.Text

inductive HexFault where
  | oddLength
  /-- The byte at `index` of the digits is none. -/
  | badDigit (byte : UInt8) (index : Nat)
  deriving DecidableEq, Repr

/-- A byte that is no digit is shown as the character of that number. -/
def HexFault.message : HexFault → String
  | .oddLength => "Odd number of digits"
  | .badDigit byte index =>
    "Invalid character " ++ Quoted.character (Char.ofNat byte.toNat) ++ s!" at position {index}"

namespace Hex

def digit (n : UInt8) : Char :=
  if n < 10 then Char.ofNat (n.toNat + 48) else Char.ofNat (n.toNat + 87)

def encodeList (bytes : List UInt8) : List Char :=
  bytes.flatMap fun b => [digit (b / 16), digit (b % 16)]

/-- Writes the bytes from `index` on behind a text. -/
def encodeFrom (bytes : ByteArray) (index : Nat) (text : String) : String :=
  if inside : index < bytes.size then
    let b := bytes[index]
    encodeFrom bytes (index + 1) ((text.push (digit (b / 16))).push (digit (b % 16)))
  else text
termination_by bytes.size - index

def encode (bytes : ByteArray) : String := encodeFrom bytes 0 ""

def value? (b : UInt8) : Option UInt8 :=
  if 48 ≤ b && b ≤ 57 then some (b - 48)
  else if 97 ≤ b && b ≤ 102 then some (b - 87)
  else if 65 ≤ b && b ≤ 70 then some (b - 55)
  else none

/-- Reads pairs of digits, of which the first stands at `index`. -/
def decodePairs (index : Nat) : List UInt8 → Except HexFault (List UInt8)
  | high :: low :: rest =>
    match value? high, value? low with
    | none, _ => .error (.badDigit high index)
    | some _, none => .error (.badDigit low (index + 1))
    | some h, some l => (decodePairs (index + 2) rest).map fun bytes => (h * 16 + l) :: bytes
  | _ => .ok []

def decodeList (digits : List UInt8) : Except HexFault (List UInt8) :=
  if digits.length % 2 = 1 then .error .oddLength else decodePairs 0 digits

/-- Reads the pairs of digits from `index` on, after the bytes that have been read. -/
def decodeFrom (digits : ByteArray) (index : Nat) (bytes : ByteArray) :
    Except HexFault ByteArray :=
  if inside : index + 1 < digits.size then
    let high := digits[index]
    let low := digits[index + 1]
    match value? high, value? low with
    | none, _ => .error (.badDigit high index)
    | some _, none => .error (.badDigit low (index + 1))
    | some h, some l => decodeFrom digits (index + 2) (bytes.push (h * 16 + l))
  else .ok bytes
termination_by digits.size - index

def decode (s : String) : Except HexFault ByteArray :=
  let digits := s.toByteArray
  if digits.size % 2 = 1 then .error .oddLength
  else decodeFrom digits 0 ByteArray.empty

theorem toList_encodeFrom (bytes : ByteArray) (index : Nat) (text : String) :
    (encodeFrom bytes index text).toList =
      text.toList ++ encodeList (bytes.data.toList.drop index) := by
  fun_induction encodeFrom bytes index text with
  | case1 index text inside b ih =>
    have step : bytes.data.toList.drop index = b :: bytes.data.toList.drop (index + 1) :=
      List.drop_eq_getElem_cons (by simpa using inside)
    rw [ih, step]
    simp [encodeList]
  | case2 index text outside =>
    have none : bytes.data.toList.drop index = [] :=
      List.drop_eq_nil_of_le (by simpa using outside)
    simp [none, encodeList]

/-- What is written are the digits of the bytes. -/
theorem toList_encode (bytes : ByteArray) :
    (encode bytes).toList = encodeList bytes.data.toList := by
  simp [encode, toList_encodeFrom]

private theorem drop_pair (digits : ByteArray) (index : Nat) (inside : index + 1 < digits.size) :
    digits.data.toList.drop index =
      digits[index] :: digits[index + 1] :: digits.data.toList.drop (index + 2) := by
  have size : digits.data.toList.length = digits.size := by simp
  rw [List.drop_eq_getElem_cons (by omega), List.drop_eq_getElem_cons (by omega)]
  rfl

theorem decodeFrom_eq (digits : ByteArray) (index : Nat) (bytes : ByteArray) :
    decodeFrom digits index bytes = (decodePairs index (digits.data.toList.drop index)).map
      fun more => ⟨bytes.data ++ more.toArray⟩ := by
  fun_induction decodeFrom digits index bytes with
  | case1 index bytes inside high noHigh =>
    rw [drop_pair digits index inside]
    simp only [decodePairs]
    rw [noHigh]
    rfl
  | case2 index bytes inside high low h noLow isHigh =>
    rw [drop_pair digits index inside]
    simp only [decodePairs]
    rw [isHigh, noLow]
    rfl
  | case3 index bytes inside high low h l isLow isHigh ih =>
    rw [drop_pair digits index inside, ih]
    simp only [decodePairs]
    rw [isHigh, isLow]
    cases decodePairs (index + 2) (digits.data.toList.drop (index + 2)) with
    | error fault => rfl
    | ok more => simp [Except.map]
  | case4 index bytes outside =>
    have size : (digits.data.toList.drop index).length ≤ 1 := by
      simp only [List.length_drop, Array.length_toList, ByteArray.size_data]
      omega
    match digits.data.toList.drop index, size with
    | [], _ => simp [decodePairs, Except.map]
    | [_], _ => simp [decodePairs, Except.map]

/-- Reading takes the digits by pairs. -/
theorem decode_eq (s : String) :
    decode s = (decodeList s.toByteArray.data.toList).map fun bytes => ⟨bytes.toArray⟩ := by
  simp only [decode, decodeList, Array.length_toList, ByteArray.size_data]
  split
  · rfl
  · rw [decodeFrom_eq]
    simp

theorem value?_high (b : UInt8) : value? (digit (b / 16)).toNat.toUInt8 = some (b / 16) := by
  have all : ∀ n : Fin 256, value? (digit (UInt8.ofFin n / 16)).toNat.toUInt8 =
      some (UInt8.ofFin n / 16) := by decide +kernel
  exact all b.toFin

theorem value?_low (b : UInt8) : value? (digit (b % 16)).toNat.toUInt8 = some (b % 16) := by
  have all : ∀ n : Fin 256, value? (digit (UInt8.ofFin n % 16)).toNat.toUInt8 =
      some (UInt8.ofFin n % 16) := by decide +kernel
  exact all b.toFin

end Hex
end PeerMesh.Text
