import PeerMesh.Json.Document
import PeerMesh.Mapping.Basic

/-! Mapping documents: a mapping as JSON text. -/

namespace PeerMesh

/-- A mapping as its document gives it, before the names of its elements are checked. -/
structure MappingDocument where
  name : String
  description : String
  version : String
  elements : List Element

namespace MappingDocument
open Json (Document)

def readElement? (document : Document) : Option Element := do
  let [some input, some agent, some output] ←
    document.fields? ["input_name", "agent_name", "output_name"] 3 | none
  some ⟨← input.text?, ← agent.text?, ← output.text?⟩

def ofDocument? (document : Document) : Option MappingDocument := do
  let [some body] ← document.fields? ["mapping"] 1 | none
  let [name, description, version, elements] ←
    body.fields? ["name", "description", "version", "mapping_out"] 0 | none
  some {
    name := ← Document.textOrEmpty name
    description := ← Document.textOrEmpty description
    version := ← Document.textOrEmpty version
    elements := ← Document.orDefault [] (Document.list? readElement?) elements }

def ofText? (text : String) : Option MappingDocument := (Document.ofText? text).bind ofDocument?

def elementJson (e : Element) : Json :=
  .object [("input_name", .string e.input), ("agent_name", .string e.agent),
    ("output_name", .string e.output)]

def toJson (document : MappingDocument) : Json :=
  .object [("mapping", .object [
    ("name", .string document.name),
    ("description", .string document.description),
    ("version", .string document.version),
    ("mapping_out", .array (document.elements.map elementJson))])]

end MappingDocument

namespace Mapping

def toDocument (m : Mapping) : MappingDocument := ⟨m.name, m.description, m.version, m.elements⟩

/-- The mapping a document describes; its elements are added one by one. -/
def ofDocument (document : MappingDocument) : Except ModelFault Mapping :=
  document.elements.foldlM
    (fun m e => (m.add e.input e.agent e.output).map (·.1))
    { new document.name with description := document.description, version := document.version }

def toText (m : Mapping) : String := m.toDocument.toJson.pretty

def ofText (text : String) : Except ModelFault Mapping :=
  match MappingDocument.ofText? text with
  | some document => ofDocument document
  | none => .error .json

end Mapping
end PeerMesh
