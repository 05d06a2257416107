import PeerMesh.Agent.Basic
import PeerMesh.DataMessage

/-! What becomes of a value that a peer has published: it is written to every input that the mapping
feeds from that output of that peer. A frozen agent takes nothing. -/

namespace PeerMesh

structure InputUpdate where
  input : String
  value : Value
  deriving DecidableEq

structure Delivery where
  agent : Agent
  updates : List InputUpdate
  faults : List ModelFault

namespace Delivery

/-- Writes a value to the input of one mapping element. An input that does not exist is passed over,
one that cannot take the value is reported. -/
def write (value : Value) (d : Delivery) (e : Element) : Delivery :=
  if (d.agent.definition.input? e.input).isNone then d
  else match d.agent.definition.write .input e.input value with
    | .ok (definition, stored) =>
      { d with
        agent := { d.agent with definition := definition }
        updates := d.updates ++ [⟨e.input, stored⟩] }
    | .error fault => { d with faults := d.faults ++ [fault] }

end Delivery

def Agent.deliver (a : Agent) (peerName : String) (m : DataMessage) : Delivery :=
  if a.frozen then ⟨a, [], []⟩
  else (a.mapping.elementsFor peerName m.name).foldl (Delivery.write m.value) ⟨a, [], []⟩

end PeerMesh
