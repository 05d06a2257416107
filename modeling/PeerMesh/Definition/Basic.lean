import PeerMesh.Limits
import PeerMesh.Name
import PeerMesh.Table
import PeerMesh.Value.Conversion

/-! Definitions: the inputs, outputs and parameters an agent declares, each a named slot for values
of one type. A name belongs to one slot of a definition only, whatever its kind. -/

namespace PeerMesh

structure Slot where
  name : String
  type : ValueType
  value : Value
  /-- Of use for outputs only: a muted output is not published. -/
  muted : Bool
  deriving DecidableEq

namespace Slot

/-- A slot that holds the default value of its type. -/
def new (name : String) (type : ValueType) : Slot := ⟨name, type, .default type, false⟩

def withValue (slot : Slot) (value : Value) : Except ModelFault Slot :=
  (value.convertTo slot.type).map fun converted => { slot with value := converted }

/-- Equality that compares doubles as numbers. -/
def same (a b : Slot) : Bool :=
  a.name == b.name && a.type == b.type && a.value.same b.value && a.muted == b.muted

end Slot

structure Definition where
  name : String
  description : String
  version : String
  inputs : Table Slot
  outputs : Table Slot
  parameters : Table Slot
  deriving DecidableEq

namespace Definition

def new (name : String) : Definition := ⟨name, "", "", Table.empty, Table.empty, Table.empty⟩

def table (d : Definition) : SlotKind → Table Slot
  | .input => d.inputs
  | .output => d.outputs
  | .parameter => d.parameters

def setTable (d : Definition) (kind : SlotKind) (table : Table Slot) : Definition :=
  match kind with
  | .input => { d with inputs := table }
  | .output => { d with outputs := table }
  | .parameter => { d with parameters := table }

def get? (d : Definition) (kind : SlotKind) (name : String) : Option Slot :=
  (d.table kind).get? name

def input? (d : Definition) (name : String) : Option Slot := d.get? .input name

def output? (d : Definition) (name : String) : Option Slot := d.get? .output name

def kindOf? (d : Definition) (name : String) : Option SlotKind :=
  SlotKind.all.find? fun kind => (d.table kind).contains name

/-- Adds a slot under the sanitized name. -/
def create (d : Definition) (kind : SlotKind) (name : String) (type : ValueType)
    (value : Option Value) : Except ModelFault (Definition × Slot) :=
  let name := Name.sanitize name
  if name.isEmpty then .error .emptyName
  else match d.kindOf? name with
    | some existing => .error (.nameClash name existing)
    | none =>
      let slot := match value with
        | some value => (Slot.new name type).withValue value
        | none => .ok (Slot.new name type)
      slot.map fun slot => (d.setTable kind ((d.table kind).insert name slot), slot)

/-- Removes the slot with exactly this name. -/
def remove (d : Definition) (kind : SlotKind) (name : String) :
    Except ModelFault (Definition × Slot) :=
  match d.get? kind name with
  | some slot => .ok (d.setTable kind ((d.table kind).erase name), slot)
  | none => .error (.unknownSlot kind name)

/-- Stores a value converted to the slot's type, and returns it. Values too long for one message are
refused. -/
def write (d : Definition) (kind : SlotKind) (name : String) (value : Value) :
    Except ModelFault (Definition × Value) :=
  match d.get? kind name with
  | none => .error (.unknownSlot kind name)
  | some slot =>
    match value.convertTo slot.type with
    | .error fault => .error fault
    | .ok converted =>
      if Limits.value < converted.size then .error (.valueTooLarge name converted.size)
      else
        let table := (d.table kind).insert name { slot with value := converted }
        .ok (d.setTable kind table, converted)

def setOutputMuted? (d : Definition) (name : String) (muted : Bool) : Option Definition :=
  (d.output? name).map fun slot =>
    { d with outputs := d.outputs.insert name { slot with muted := muted } }

def sameTable (a b : Table Slot) : Bool :=
  a.keys == b.keys && (a.values.zip b.values).all fun (x, y) => x.same y

/-- Equality that compares doubles as numbers. -/
def same (a b : Definition) : Bool :=
  a.name == b.name && a.description == b.description && a.version == b.version &&
    sameTable a.inputs b.inputs && sameTable a.outputs b.outputs &&
    sameTable a.parameters b.parameters

end Definition
end PeerMesh
