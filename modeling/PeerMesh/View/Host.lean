import PeerMesh.Host.Basic
import PeerMesh.View.Command
import PeerMesh.View.Fault
import PeerMesh.View.Reactor

/-! What a host does and asks, read from views, and what it is shown. -/

namespace PeerMesh
namespace Json

def edit? (j : Json) : Option Edit :=
  let kind := (j.get "kind").slotKind
  let name := (j.get "name").text
  let text := (j.get "text").text
  let input := (j.get "input").text
  let agent := (j.get "agent").text
  let output := (j.get "output").text
  match (j.get "do").text with
  | "create" => some (.create kind name (j.get "type").valueType (j.value? "value"))
  | "remove" => some (.remove kind name)
  | "write" => some (.write kind name (j.get "value").value)
  | "load_definition" => some (.load .definition text none)
  | "load_mapping" => some (.load .mapping text none)
  | "map" => some (.addElement input agent output)
  | "unmap" => some (.removeElement input agent output)
  | "unmap_id" => some (.removeElementById (j.get "id").elementId)
  | "clear_mapping" => some .clearMapping
  | "mute" => some (.mute true)
  | "unmute" => some (.mute false)
  | "mute_output" => some (.muteOutput name true)
  | "unmute_output" => some (.muteOutput name false)
  | "freeze" => some (.freeze true)
  | "unfreeze" => some (.freeze false)
  | "set_can_be_frozen" => some (.permitFreezing (j.get "flag").isTrue)
  | "set_state" => some (.setState (j.get "state").text)
  | _ => none

def control? (j : Json) : Option Control :=
  let group := (j.get "group").text
  match (j.get "do").text with
  | "terminate" => some .terminate
  | "notice" => some (.notice (j.get "cmd").command)
  | "bus_join" => some (.busJoin group)
  | "bus_leave" => some (.busLeave group)
  | "bus_shout" => some (.busShout group (j.get "frames").frames)
  | "bus_shout_str" => some (.busShout group [(j.get "text").bytes])
  | "bus_whisper" => some (.busWhisper (j.get "peer").text (j.get "frames").frames)
  | _ => none

end Json

/-- The answer to what a host wants to know of a running reactor. -/
def Reactor.answer? (r : Reactor) (question : Json) : Option Json :=
  let peer := (question.get "peer").text
  match (question.get "do").text with
  | "peers" => some (view r.peers)
  | "peer_definition" => some (view (r.peerDefinition? peer))
  | "peer_mapping" => some (view (r.peerMapping? peer))
  | "peer_filters" => some (view (r.peerFilters? peer))
  | _ => none

namespace Host

/-- What a host is told of its agent's state. -/
def answer? (h : Host) (question : Json) : Option Json :=
  let kind := (question.get "kind").slotKind
  let name := (question.get "name").text
  match (question.get "do").text with
  | "is_running" => some (view h.isRunning)
  | "name" => some (view h.agent.name)
  | "node_id" => some (view h.nodeId)
  | "read" => some (view (h.agent.read? kind name))
  | "definition" => some (view h.agent.definition)
  | "export_definition" => some (view h.agent.definition.toText)
  | "mapping" => some (view h.agent.mapping)
  | "export_mapping" => some (view h.agent.mapping.toText)
  | "is_muted" => some (view h.agent.muted)
  | "is_frozen" => some (view h.agent.frozen)
  | "state" => some (view h.agent.state)
  | _ => none

def edited (h : Host) : Edit → Json
  | .addElement input agent output => view (elementId input agent output)
  | .mute _ => view h.agent.muted
  | .setState _ => view h.agent.state
  | _ => view true

end Host
end PeerMesh
