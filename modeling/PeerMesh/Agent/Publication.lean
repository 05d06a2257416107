import PeerMesh.Agent.Basic
import PeerMesh.DataMessage

/-! What an agent publishes. An output's value goes out unless the agent is frozen or muted, or the
output is muted. -/

namespace PeerMesh

/-- What holds a value back. -/
inductive Gate where
  | agentMuted
  | outputMuted
  | frozen
  deriving DecidableEq, Repr

def Gate.message : Gate → String
  | .agentMuted => "AgentMuted"
  | .outputMuted => "OutputMuted"
  | .frozen => "Frozen"

def Slot.message (s : Slot) : DataMessage := ⟨s.name, s.value⟩

namespace Agent

/-- The message with an output's current value, or the gate that holds it back. -/
def prepare (a : Agent) (output : String) : Except ModelFault (Except Gate DataMessage) :=
  match a.definition.output? output with
  | none => .error (.unknownSlot .output output)
  | some slot =>
    .ok (if a.frozen then .error .frozen
      else if a.muted then .error .agentMuted
      else if slot.muted then .error .outputMuted
      else .ok slot.message)

/-- The values of all outputs that no gate holds back. -/
def openOutputs (a : Agent) : List DataMessage :=
  if a.muted || a.frozen then []
  else (a.definition.outputs.values.filter fun slot => !slot.muted).map Slot.message

def values (a : Agent) (kind : SlotKind) : List DataMessage :=
  (a.definition.table kind).values.map Slot.message

end Agent
end PeerMesh
