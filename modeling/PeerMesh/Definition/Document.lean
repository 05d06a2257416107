import PeerMesh.Definition.Basic
import PeerMesh.Json.Document

/-! Definition documents: a definition as JSON text. The document lists the slots of each kind with
their names, types and values; what is muted is not written. -/

namespace PeerMesh

structure SlotEntry where
  name : String
  type : ValueType
  value : Option Json

/-- A definition as its document gives it, before names and values are checked. -/
structure DefinitionDocument where
  name : String
  description : String
  version : String
  inputs : List SlotEntry
  outputs : List SlotEntry
  parameters : List SlotEntry

namespace SlotEntry
open Json (Document)

/-- How deep the value of an entry may be nested, which stands inside the document, the definition,
the list and the entry. -/
def valueDepth : Nat := Document.maxDepth - 4

def readType? (document : Document) : Option ValueType :=
  match document.choice? with
  | some (name, .null) => ValueType.ofName? name
  | _ => none

/-- An entry without a value, or with null for it, has none. -/
def readValue? : Document → Option (Option Json)
  | .null => some none
  | document => (document.toValue? valueDepth).map some

def ofDocument? (document : Document) : Option SlotEntry := do
  let [some name, some type, value] ← document.fields? ["name", "type", "value"] 2 | none
  some {
    name := ← name.text?
    type := ← readType? type
    value := ← Document.orDefault none readValue? value }

def toJson (entry : SlotEntry) : Json :=
  .object ([("name", .string entry.name), ("type", .string entry.type.name)] ++
    (entry.value.map fun value => ("value", value)).toList)

def ofSlot (slot : Slot) : SlotEntry := ⟨slot.name, slot.type, slot.value.toJson⟩

end SlotEntry

namespace DefinitionDocument
open Json (Document)

def readEntries : Option Document → Option (List SlotEntry) :=
  Document.orDefault [] (Document.list? SlotEntry.ofDocument?)

def ofDocument? (document : Document) : Option DefinitionDocument := do
  let [some body] ← document.fields? ["definition"] 1 | none
  let [some name, description, version, inputs, outputs, parameters] ←
    body.fields? ["name", "description", "version", "inputs", "outputs", "parameters"] 1 | none
  some {
    name := ← name.text?
    description := ← Document.textOrEmpty description
    version := ← Document.textOrEmpty version
    inputs := ← readEntries inputs
    outputs := ← readEntries outputs
    parameters := ← readEntries parameters }

def ofText? (text : String) : Option DefinitionDocument := (Document.ofText? text).bind ofDocument?

def entries (document : DefinitionDocument) : SlotKind → List SlotEntry
  | .input => document.inputs
  | .output => document.outputs
  | .parameter => document.parameters

def toJson (document : DefinitionDocument) : Json :=
  .object [("definition", .object [
    ("name", .string document.name),
    ("description", .string document.description),
    ("version", .string document.version),
    ("inputs", .array (document.inputs.map SlotEntry.toJson)),
    ("outputs", .array (document.outputs.map SlotEntry.toJson)),
    ("parameters", .array (document.parameters.map SlotEntry.toJson))])]

end DefinitionDocument

namespace Definition

def toDocument (d : Definition) : DefinitionDocument where
  name := d.name
  description := d.description
  version := d.version
  inputs := d.inputs.values.map SlotEntry.ofSlot
  outputs := d.outputs.values.map SlotEntry.ofSlot
  parameters := d.parameters.values.map SlotEntry.ofSlot

/-- Adds the slot of an entry; its value is read before its name is looked at. -/
def addEntry (d : Definition) (kind : SlotKind) (entry : SlotEntry) :
    Except ModelFault Definition :=
  match entry.value.mapM (Value.ofJson entry.type) with
  | .error fault => .error fault
  | .ok value => (d.create kind entry.name entry.type value).map (·.1)

def addEntries (kind : SlotKind) (entries : List SlotEntry) (d : Definition) :
    Except ModelFault Definition :=
  entries.foldlM (fun d entry => d.addEntry kind entry) d

/-- The definition a document describes: its slots are added one by one, inputs first, then outputs
and parameters. -/
def ofDocument (document : DefinitionDocument) : Except ModelFault Definition :=
  let start := { new (Name.sanitize document.name) with
    description := document.description
    version := document.version }
  SlotKind.all.foldlM (fun d kind => addEntries kind (document.entries kind) d) start

def toText (d : Definition) : String := d.toDocument.toJson.pretty

def ofText (text : String) : Except ModelFault Definition :=
  match DefinitionDocument.ofText? text with
  | some document => ofDocument document
  | none => .error .json

end Definition
end PeerMesh
