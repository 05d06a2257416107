import PeerMesh.Bytes
import PeerMesh.Double.Basic
import PeerMesh.Text.Blank

/-! The typed values that agents hold and exchange. Each type has a numeric tag, which stands for it
in data messages, and a name, which stands for it in documents. -/

namespace PeerMesh

inductive ValueType where
  | integer
  | double
  | string
  | bool
  | impulsion
  | data
  deriving DecidableEq, Repr

namespace ValueType

def all : List ValueType := [.integer, .double, .string, .bool, .impulsion, .data]

def tag : ValueType → Nat
  | .integer => 1
  | .double => 2
  | .string => 3
  | .bool => 4
  | .impulsion => 5
  | .data => 6

def ofTag? (tag : Nat) : Option ValueType := all.find? fun t => t.tag == tag

def name : ValueType → String
  | .integer => "INTEGER"
  | .double => "DOUBLE"
  | .string => "STRING"
  | .bool => "BOOL"
  | .impulsion => "IMPULSION"
  | .data => "DATA"

def ofName? (s : String) : Option ValueType := all.find? fun t => t.name == s

/-- The type with this name in letters of any case. Two types have a second name. -/
def ofText? (s : String) : Option ValueType :=
  let name := Text.upperAscii s
  if name = "INT" then some .integer
  else if name = "BOOLEAN" then some .bool
  else ofName? name

def isNumeric : ValueType → Bool
  | .integer | .double | .bool => true
  | .string | .impulsion | .data => false

/-- Whether an output of type `output` may feed an input of type `input`. -/
def accepts (input output : ValueType) : Bool :=
  input == output || match input with
    | .impulsion => true
    | .integer | .double | .bool => output.isNumeric || output == .string
    | .string => output.isNumeric
    | .data => false

theorem ofTag?_tag (t : ValueType) : ofTag? t.tag = some t := by cases t <;> rfl

theorem ofName?_name (t : ValueType) : ofName? t.name = some t := by cases t <;> rfl

end ValueType

inductive Value where
  | integer (value : Int32)
  | double (value : Double)
  | string (value : String)
  | bool (value : Bool)
  /-- A signal that carries nothing. -/
  | impulsion
  | data (value : Bytes)
  deriving DecidableEq

namespace Value

def type : Value → ValueType
  | .integer _ => .integer
  | .double _ => .double
  | .string _ => .string
  | .bool _ => .bool
  | .impulsion => .impulsion
  | .data _ => .data

def default : ValueType → Value
  | .integer => .integer 0
  | .double => .double Double.zero
  | .string => .string ""
  | .bool => .bool false
  | .impulsion => .impulsion
  | .data => .data ByteArray.empty

@[simp] theorem type_default (t : ValueType) : (default t).type = t := by cases t <;> rfl

/-- Equality of what values mean: doubles are compared as numbers. -/
def same : Value → Value → Bool
  | .double x, .double y => x.numEq y
  | x, y => x == y

/-- The bytes that a text or binary value takes; the other values count as nothing. -/
def size : Value → Nat
  | .string s => s.utf8ByteSize
  | .data bytes => bytes.size
  | _ => 0

end Value
end PeerMesh
