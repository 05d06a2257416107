import PeerMesh.Bytes
import PeerMesh.Value.Fault

/-! What the host of an agent is told. -/

namespace PeerMesh

inductive HostEvent where
  /-- A slot has taken a value. -/
  | updated (kind : SlotKind) (name : String) (value : Value)
  | muteChanged (muted : Bool)
  | outputMuteChanged (output : String) (muted : Bool)
  | freezeChanged (frozen : Bool)
  /-- A peer has stopped the agent. -/
  | forcedStop (peer : String)
  | peerEntered (peer name : String)
  | peerExited (peer name : String)
  | busJoined (peer name group : String)
  | busLeft (peer name group : String)
  | busShout (peer name group : String) (frames : List Bytes)
  | busWhisper (peer name : String) (frames : List Bytes)
  | stopped
  deriving DecidableEq

end PeerMesh
