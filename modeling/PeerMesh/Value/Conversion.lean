import PeerMesh.Value.Fault

/-! Conversion between value types, and the text and bytes of values. Numbers and truth values
convert into each other and into text; text converts into every type that can read it; anything
becomes an impulsion, and an impulsion becomes the default of any type. -/

namespace PeerMesh.Value

/-- The text that shows a value: data in hexadecimal digits, an impulsion as nothing. -/
def display : Value → String
  | .integer i => toString i.toInt
  | .double d => d.display
  | .string s => s
  | .bool b => if b then "true" else "false"
  | .impulsion => ""
  | .data bytes => Text.Hex.encode bytes

/-- Reads an integer from text: digits within the range, or else any number, whose integer part is
held within the range. -/
def integerOfText (cs : List Char) : Except Double.ReadFault Int32 :=
  match Text.integer? (-2147483648) 2147483647 cs with
  | some i => .ok (Int32.ofInt i)
  | none => (Double.ofChars cs).map Double.toInt32

def boolOfText (text : String) : Except ConversionFault Bool :=
  if text = "true" || text = "1" then .ok true
  else if text = "false" || text = "0" then .ok false
  else .error (.notBoolean text)

/-- The value that a text stands for, as a value of another type. -/
def ofText (s : String) : ValueType → Except ConversionFault Value
  | .string => .ok (.string s)
  | .impulsion => .ok .impulsion
  | .data => .ok (.data s.toByteArray)
  | .integer =>
    match integerOfText (Text.trim s.toList) with
    | .ok i => .ok (.integer i)
    | .error fault => .error (.notNumber fault)
  | .double =>
    match Double.ofChars (Text.trim s.toList) with
    | .ok d => .ok (.double d)
    | .error fault => .error (.notNumber fault)
  | .bool => (boolOfText (Text.lowerAscii (Text.trimmed s))).map .bool

def convertOrFault : Value → ValueType → Except ConversionFault Value
  | _, .impulsion => .ok .impulsion
  | .impulsion, target => .ok (default target)
  | .string s, target => ofText s target
  | .data bytes, .data => .ok (.data bytes)
  | .data bytes, .string =>
    match Text.Utf8.decode bytes with
    | .ok s => .ok (.string s)
    | .error fault => .error (.notText fault)
  | .data _, _ => .error .dataConvertsToDataOnly
  | value, .string => .ok (.string value.display)
  | _, .data => .error .onlyTextConvertsToData
  | .integer i, .integer => .ok (.integer i)
  | .integer i, .double => .ok (.double (Double.ofInt i.toInt))
  | .integer i, .bool => .ok (.bool (i != 0))
  | .double d, .integer => .ok (.integer d.toInt32)
  | .double d, .double => .ok (.double d)
  | .double d, .bool => .ok (.bool !(d.numEq Double.zero))
  | .bool b, .integer => .ok (.integer (if b then 1 else 0))
  | .bool b, .double => .ok (.double (Double.ofInt (if b then 1 else 0)))
  | .bool b, .bool => .ok (.bool b)

def convertTo (value : Value) (target : ValueType) : Except ModelFault Value :=
  match value.convertOrFault target with
  | .ok converted => .ok converted
  | .error fault => .error (.conversion value.type target fault)

/-- The bytes of a value in a data message. Numbers stand with their lowest byte first. -/
def toWire : Value → Bytes
  | .integer i => Bytes.ofList (Bytes.little 4 i.toUInt32.toNat)
  | .double d => Bytes.ofList (Bytes.little 8 d.bits.toNat)
  | .string s => s.toByteArray
  | .bool b => Bytes.ofList [if b then 1 else 0]
  | .impulsion => ByteArray.empty
  | .data bytes => bytes

def ofWire (type : ValueType) (bytes : Bytes) : Except ModelFault Value :=
  match type with
  | .integer =>
    if bytes.size = 4 then
      .ok (.integer (UInt32.ofNat (Bytes.ofLittle bytes.toBytes)).toInt32)
    else .error (.invalidValue type (.expectedBytes 4))
  | .double =>
    if bytes.size = 8 then .ok (.double ⟨UInt64.ofNat (Bytes.ofLittle bytes.toBytes)⟩)
    else .error (.invalidValue type (.expectedBytes 8))
  | .string =>
    match Text.Utf8.decode? bytes with
    | some s => .ok (.string s)
    | none => .error (.invalidValue type .notUtf8)
  | .bool =>
    match bytes.toBytes with
    | [b] => .ok (.bool (b != 0))
    | _ => .error (.invalidValue type (.expectedBytes 1))
  | .impulsion => .ok .impulsion
  | .data => .ok (.data bytes)

/-- Reads the value of a command line: data in hexadecimal digits, all else as text converts. -/
def parse (type : ValueType) (text : String) : Except ModelFault Value :=
  match type with
  | .data =>
    match Text.Hex.decode (Text.trimmed text) with
    | .ok bytes => .ok (.data bytes)
    | .error fault => .error (.invalidValue type (.notHex fault))
  | _ => (Value.string text).convertTo type

/-- The JSON form of a value. An impulsion has none. -/
def toJson : Value → Option Json
  | .integer i => some (.number (.int i.toInt))
  | .double d => some (Json.ofDouble d)
  | .string s => some (.string s)
  | .bool b => some (.bool b)
  | .impulsion => none
  | .data bytes => some (.string (Text.Hex.encode bytes))

/-- The integer of a JSON number: the lowest thirty-two bits of one that fits in sixty-four bits
with a sign, else the nearest integer of the range. -/
def integerOfNumber : Json.Number → Int32
  | .int n => if n < 9223372036854775808 then Int32.ofInt n else (Double.ofInt n).toInt32
  | .float d => d.toInt32

/-- Reads a value of a type from its JSON form. -/
def ofJson (type : ValueType) (json : Json) : Except ModelFault Value :=
  match type, json with
  | type, .null => .ok (default type)
  | .impulsion, _ => .ok .impulsion
  | .integer, .number n => .ok (.integer (integerOfNumber n))
  | .double, .number n => .ok (.double n.toDouble)
  | .bool, .bool b => .ok (.bool b)
  | .bool, .number n => .ok (.bool !(n.toDouble.numEq Double.zero))
  | .string, .string s => .ok (.string s)
  | .data, .string s => parse .data s
  | type, .string s => (Value.string s).convertTo type
  | .string, other => .ok (.string other.compact)
  | type, other => .error (.invalidValue type (.unexpectedJson other.compact))

end PeerMesh.Value
