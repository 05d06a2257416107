import PeerMesh.Reactor.Basic
import PeerMesh.View.Log
import PeerMesh.View.Model
import PeerMesh.View.Presence

/-! Views of what a reactor brings about. -/

namespace PeerMesh

instance : View HostEvent := ⟨fun e => .array (match e with
  | .updated kind name value =>
    let keyword := match kind with
      | .input => "InputUpdated"
      | .output => "OutputUpdated"
      | .parameter => "ParameterUpdated"
    [view keyword, view name, view value]
  | .muteChanged muted => [view "MuteChanged", view muted]
  | .outputMuteChanged output muted => [view "OutputMuteChanged", view output, view muted]
  | .freezeChanged frozen => [view "FreezeChanged", view frozen]
  | .forcedStop peer => [view "ForcedStop", view peer]
  | .peerEntered peer name => [view "PeerEntered", view peer, view name]
  | .peerExited peer name => [view "PeerExited", view peer, view name]
  | .busJoined peer name group => [view "BusJoined", view peer, view name, view group]
  | .busLeft peer name group => [view "BusLeft", view peer, view name, view group]
  | .busShout peer name group frames =>
    [view "BusShout", view peer, view name, view group, view frames]
  | .busWhisper peer name frames => [view "BusWhisper", view peer, view name, view frames]
  | .stopped => [view "Stopped"])⟩

instance : View StopReason := ⟨fun reason => match reason with
  | .requested => view "Requested"
  | .forced peer => view ["ForcedStop", peer]
  | .expired => view "Expired"
  | .presenceLost => view "PresenceLost"⟩

end PeerMesh
