import PeerMesh.Value.Basic
import PeerMesh.Double.Text
import PeerMesh.Files
import PeerMesh.Json.Value
import PeerMesh.Text.Hex
import PeerMesh.Text.Utf8

/-! Why a value, a definition or a mapping is refused, and the message that says so. -/

namespace PeerMesh

/-- The tables of a definition. -/
inductive SlotKind where
  | input
  | output
  | parameter
  deriving DecidableEq, Repr

namespace SlotKind

def all : List SlotKind := [.input, .output, .parameter]

def name : SlotKind → String
  | .input => "input"
  | .output => "output"
  | .parameter => "parameter"

end SlotKind

inductive ConversionFault where
  | dataConvertsToDataOnly
  | onlyTextConvertsToData
  | notText (fault : Text.Utf8Fault)
  | notNumber (fault : Double.ReadFault)
  /-- The text, trimmed and in small letters, names no truth value. -/
  | notBoolean (text : String)
  deriving DecidableEq

def ConversionFault.message : ConversionFault → String
  | .dataConvertsToDataOnly => "data only converts to data"
  | .onlyTextConvertsToData => "only string or data convert to data"
  | .notText fault => fault.message
  | .notNumber fault => fault.message
  | .notBoolean text => s!"'{text}' is not a boolean"

/-- Why bytes, digits or a JSON value give no value of a type. -/
inductive ValueFault where
  | expectedBytes (count : Nat)
  | notUtf8
  | notHex (fault : Text.HexFault)
  /-- The compact text of the JSON value. -/
  | unexpectedJson (text : String)
  deriving DecidableEq

def ValueFault.message : ValueFault → String
  | .expectedBytes count => if count = 1 then "expected 1 byte" else s!"expected {count} bytes"
  | .notUtf8 => "not UTF-8"
  | .notHex fault => fault.message
  | .unexpectedJson text => s!"unexpected JSON value {text}"

inductive MessageFault where
  | frameCount (count : Nat)
  | nameNotUtf8
  deriving DecidableEq, Repr

def MessageFault.message : MessageFault → String
  | .frameCount count => s!"expected 3 frames, got {count}"
  | .nameNotUtf8 => "output name is not UTF-8"

inductive ModelFault where
  | unknownSlot (kind : SlotKind) (name : String)
  | nameClash (name : String) (existing : SlotKind)
  | conversion (source target : ValueType) (fault : ConversionFault)
  | invalidValue (type : ValueType) (fault : ValueFault)
  | invalidMessage (fault : MessageFault)
  | unknownType (name : String)
  | unknownElement (id : UInt64)
  | ambiguousElement (id : UInt64)
  | valueTooLarge (name : String) (size : Nat)
  | emptyName
  /-- A document that is no JSON of the expected form. -/
  | json
  | file (fault : FileFault)
  deriving DecidableEq

def ModelFault.message : ModelFault → String
  | .unknownSlot kind name => s!"no {kind.name} named '{name}'"
  | .nameClash name existing => s!"'{name}' already exists as {existing.name}"
  | .conversion source target fault =>
    s!"cannot convert {source.name} to {target.name}: {fault.message}"
  | .invalidValue type fault => s!"invalid value for '{type.name}': {fault.message}"
  | .invalidMessage fault => s!"invalid value for '': {fault.message}"
  | .unknownType name => s!"unknown type name '{name}'"
  | .unknownElement id => s!"mapping element {id} not found"
  | .ambiguousElement id => s!"several mapping elements share id {id}"
  | .valueTooLarge name size => s!"value of '{name}' is {size} bytes, above the frame limit"
  | .emptyName => "empty name"
  | .json => "invalid JSON"
  | .file fault => s!"io error: {fault.message}"

end PeerMesh
