import PeerMesh.Bytes
import PeerMesh.Table

/-! Presence: what an agent asks of its node in the mesh, and what the node tells it of the others.
A node has a name and headers, which it announces, and joins groups. It whispers to one other node
and shouts to all members of a group. -/

namespace PeerMesh.Presence

inductive Event where
  | enter (peer name address : String) (headers : Table String)
  | exit (peer name : String)
  | join (peer name group : String)
  | leave (peer name group : String)
  | whisper (peer name : String) (frames : List Bytes)
  | shout (peer name group : String) (frames : List Bytes)
  deriving DecidableEq

def Event.peer : Event → String
  | .enter peer .. | .exit peer _ | .join peer .. | .leave peer .. | .whisper peer .. |
    .shout peer .. => peer

inductive Request where
  | setName (name : String)
  | setHeader (key value : String)
  | start
  | join (group : String)
  | leave (group : String)
  | whisper (peer : String) (frames : List Bytes)
  | shout (group : String) (frames : List Bytes)
  | stop
  deriving DecidableEq

inductive Fault where
  | notStarted
  | alreadyStarted
  | unknownPeer (id : String)
  /-- The node cannot listen, for the given reason. -/
  | bind (reason : String)
  | send (reason : String)
  deriving DecidableEq, Repr

def Fault.message : Fault → String
  | .notStarted => "presence not started"
  | .alreadyStarted => "presence already started"
  | .unknownPeer id => s!"unknown peer {id}"
  | .bind reason => s!"bind failed: {reason}"
  | .send reason => s!"send failed: {reason}"

end PeerMesh.Presence
