import PeerMesh.Presence
import PeerMesh.Value.Fault

/-! Why an agent refuses what its host asks. -/

namespace PeerMesh

inductive AgentFault where
  | alreadyRunning
  | notRunning
  | publisher (fault : FileFault)
  | presence (fault : Presence.Fault)
  /-- An earlier run took the node down with it. -/
  | presenceLost
  | cannotBeFrozen
  | reservedChannel (group : String)
  | noAnswer
  | model (fault : ModelFault)
  deriving DecidableEq

def AgentFault.message : AgentFault → String
  | .alreadyRunning => "agent is already running"
  | .notRunning => "agent is not running"
  | .publisher fault => s!"publisher setup failed: {fault.message}"
  | .presence fault => s!"presence setup failed: {fault.message}"
  | .presenceLost => "reactor thread failed: presence was lost by a previous run"
  | .cannotBeFrozen => "agent cannot be frozen"
  | .reservedChannel group => s!"channel '{group}' is reserved"
  | .noAnswer => "no answer from the reactor"
  | .model fault => fault.message

end PeerMesh
