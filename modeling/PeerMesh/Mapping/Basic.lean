import PeerMesh.Name
import PeerMesh.Value.Fault

/-! Mappings: which outputs of other agents feed which inputs of this one. A mapping is a set of
elements, listed by input, then agent, then output. An element also has a number derived from its
three names, by which it can be found again; different elements may share a number. -/

namespace PeerMesh

/-- The local input `input` takes the output `output` of the agents named `agent`. -/
structure Element where
  input : String
  agent : String
  output : String
  deriving DecidableEq, Repr

namespace Element

/-- In place of an agent's name, this stands for every agent. -/
def anyAgent : String := "*"

def sanitizeAgent (agent : String) : String :=
  if agent = anyAgent then agent else Name.sanitize agent

def ofNames (input agent output : String) : Element :=
  ⟨Name.sanitize input, sanitizeAgent agent, Name.sanitize output⟩

/-- The number of a key: each byte is added to thirty-three times the number so far, modulo
`2 ^ 64`. -/
def hash (bytes : List UInt8) : UInt64 :=
  bytes.foldl (fun h b => h * 33 + b.toUInt64) 5381

def id (e : Element) : UInt64 :=
  hash (e.input ++ "." ++ e.agent ++ "." ++ e.output).toByteArray.data.toList

/-- Whether the element takes outputs from an agent of this name. -/
def targets (e : Element) (agent : String) : Bool := e.agent = anyAgent || e.agent = agent

/-- By input, then agent, then output. -/
def before (a b : Element) : Bool :=
  a.input < b.input || a.input = b.input &&
    (a.agent < b.agent || a.agent = b.agent && a.output < b.output)

end Element

structure Mapping where
  name : String
  description : String
  version : String
  elements : List Element
  deriving DecidableEq, Repr

namespace Mapping

def new (name : String) : Mapping := ⟨name, "", "", []⟩

def isEmpty (m : Mapping) : Bool := m.elements.isEmpty

def size (m : Mapping) : Nat := m.elements.length

def get? (m : Mapping) (id : UInt64) : Option Element := m.elements.find? fun e => e.id == id

/-- Puts an element in its place among ordered ones, unless it is there. -/
def place (e : Element) : List Element → List Element
  | [] => [e]
  | f :: rest =>
    if e.before f then e :: f :: rest else if e = f then f :: rest else f :: place e rest

/-- Adds the element of three names, none of which may be blank, and returns its number. -/
def add (m : Mapping) (input agent output : String) : Except ModelFault (Mapping × UInt64) :=
  if Text.isBlankText input || Text.isBlankText agent || Text.isBlankText output then
    .error .emptyName
  else
    let e := Element.ofNames input agent output
    .ok ({ m with elements := place e m.elements }, e.id)

def drop (m : Mapping) (e : Element) : Mapping :=
  { m with elements := m.elements.filter (· ≠ e) }

def remove (m : Mapping) (input agent output : String) : Except ModelFault (Mapping × Element) :=
  let e := Element.ofNames input agent output
  if e ∈ m.elements then .ok (m.drop e, e) else .error (.unknownElement e.id)

def removeById (m : Mapping) (id : UInt64) : Except ModelFault (Mapping × Element) :=
  match m.elements.filter fun e => e.id == id with
  | [] => .error (.unknownElement id)
  | [e] => .ok (m.drop e, e)
  | _ => .error (.ambiguousElement id)

def clear (m : Mapping) : Mapping := { m with elements := [] }

def elementsFor (m : Mapping) (agent output : String) : List Element :=
  m.elements.filter fun e => e.output = output && e.targets agent

end Mapping
end PeerMesh
