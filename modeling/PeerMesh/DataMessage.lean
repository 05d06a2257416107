import PeerMesh.Value.Conversion

/-! Data messages: one published value of an output, as three frames with the output's name, the tag
of the value's type in decimal digits, and the bytes of the value. -/

namespace PeerMesh

structure DataMessage where
  name : String
  value : Value
  deriving DecidableEq

namespace DataMessage

def toFrames (m : DataMessage) : List Bytes :=
  [m.name.toByteArray, (toString m.value.type.tag).toByteArray, m.value.toWire]

def tagType (frame : Bytes) : Except ModelFault ValueType :=
  let text := (Text.Utf8.decode? frame).getD ""
  match (Text.natural? 255 text).bind ValueType.ofTag? with
  | some type => .ok type
  | none => .error (.unknownType text)

def ofFrames : List Bytes → Except ModelFault DataMessage
  | [name, tag, bytes] =>
    match Text.Utf8.decode? name with
    | none => .error (.invalidMessage .nameNotUtf8)
    | some name =>
      match tagType tag with
      | .error fault => .error fault
      | .ok type => (Value.ofWire type bytes).map fun value => ⟨name, value⟩
  | frames => .error (.invalidMessage (.frameCount frames.length))

end DataMessage
end PeerMesh
