import PeerMesh.Agent.Basic
import PeerMesh.DataMessage
import PeerMesh.View.Basic

/-! Views of values, definitions, mappings and agents. -/

namespace PeerMesh

/-- Of longer texts and data only the length is shown. -/
def View.longest : Nat := 100000

/-- A double is shown by its bits, since its text does not tell all of them apart. -/
instance : View Value := ⟨fun value =>
  let long (bytes : Nat) (key : String) (shown : String) : String × Json :=
    if View.longest < bytes then ("len", view bytes) else (key, view shown)
  let more := match value with
    | .integer i => [("v", .number (.int i.toInt))]
    | .double d =>
      let bits := Text.Hex.encode (Bytes.ofList (Bytes.big 8 d.bits.toNat))
      [("bits", view (if d.isNaN then "nan" else bits)), ("v", view d.display)]
    | .string s => [long s.utf8ByteSize "v" s]
    | .bool b => [("v", view b)]
    | .impulsion => []
    | .data b => [long b.size "hex" (Text.Hex.encode b)]
  .object (("t", view value.type.name) :: more)⟩

instance : View Slot := ⟨fun s => .object
  [("name", view s.name), ("type", view s.type.name), ("value", view s.value),
    ("muted", view s.muted)]⟩

instance : View Definition := ⟨fun d => .object
  [("name", view d.name), ("description", view d.description), ("version", view d.version),
    ("inputs", view d.inputs.values), ("outputs", view d.outputs.values),
    ("parameters", view d.parameters.values)]⟩

instance : View Element := ⟨fun e => view [e.input, e.agent, e.output]⟩

instance : View Mapping := ⟨fun m => .object
  [("name", view m.name), ("description", view m.description), ("version", view m.version),
    ("elements", view m.elements)]⟩

/-- Numbers of elements are shown in digits, since they may be too great for a JSON number. -/
instance : View UInt64 := ⟨fun id => view (toString id)⟩

instance : View DataMessage := ⟨fun m => .object [("name", view m.name), ("value", view m.value)]⟩

instance : View Agent := ⟨fun a => .object
  [("agent_name", view a.name), ("definition", view a.definition), ("mapping", view a.mapping),
    ("muted", view a.muted), ("frozen", view a.frozen), ("can_be_frozen", view a.canBeFrozen),
    ("state", view a.state), ("log_file_path", view a.logFilePath),
    ("definition_path", view a.definitionPath), ("mapping_path", view a.mappingPath),
    ("definition_dirty", view a.definitionDirty), ("mapping_dirty", view a.mappingDirty),
    ("mapping_replaced", view a.mappingReplaced)]⟩

/-- A value in all its forms; a double that is no number has no bytes to show. -/
def Value.overview (value : Value) : List (String × Json) :=
  let bytes := view (Text.Hex.encode value.toWire)
  let wire := match value with
    | .double d => if d.isNaN then view "nan" else bytes
    | _ => bytes
  [("value", view value), ("display", view value.display), ("wire", wire)]

/-- Changes what the members of a view tell of an agent. -/
def Agent.update (a : Agent) (j : Json) : Agent :=
  { a with
    muted := j.flag "muted" a.muted
    frozen := j.flag "frozen" a.frozen
    canBeFrozen := j.flag "can_be_frozen" a.canBeFrozen
    definitionDirty := j.flag "definition_dirty" a.definitionDirty
    mappingDirty := j.flag "mapping_dirty" a.mappingDirty
    mappingReplaced := j.flag "mapping_replaced" a.mappingReplaced
    state := (j.text? "state").getD a.state
    logFilePath := (j.text? "log_file_path").or a.logFilePath
    definitionPath := (j.text? "definition_path").or a.definitionPath
    mappingPath := (j.text? "mapping_path").or a.mappingPath }

namespace Json

def valueType (j : Json) : ValueType := (ValueType.ofText? j.text).getD .integer

def slotKind (j : Json) : SlotKind :=
  (SlotKind.all.find? fun kind => kind.name == j.text).getD .input

def value (j : Json) : Value :=
  match (j.get "t").text with
  | "INTEGER" => .integer (Int32.ofInt (j.get "v").toInt)
  | "DOUBLE" =>
    let bits := (Text.Hex.decode (j.get "bits").text).toOption.getD ByteArray.empty
    .double ⟨UInt64.ofNat (Bytes.ofBig (Bytes.toBytes bits))⟩
  | "STRING" => .string (j.get "v").text
  | "BOOL" => .bool (j.get "v").isTrue
  | "DATA" => .data (Text.Hex.decode (j.get "hex").text |>.toOption.getD ByteArray.empty)
  | _ => .impulsion

def value? (j : Json) (key : String) : Option Value :=
  match j.get key with
  | .null => none
  | given => some given.value

def elementId (j : Json) : UInt64 := UInt64.ofNat (j.text.toNat?.getD 0)

def message (j : Json) : DataMessage := ⟨(j.get "name").text, (j.get "value").value⟩

end Json
end PeerMesh
