import PeerMesh.Bytes
import PeerMesh.Table
import PeerMesh.Text.Hex

/-! Presence lines: what the nodes of a mesh send each other, one JSON object on each line. -/

namespace PeerMesh

structure Hello where
  nodeId : String
  name : String
  /-- Where the node accepts connections. -/
  listenAddress : Option String
  protocol : Option String
  version : Option String
  headers : Table String
  groups : List String
  deriving DecidableEq

structure NodeAddress where
  nodeId : String
  address : String
  deriving DecidableEq, Repr

inductive LineKind where
  | hello (hello : Hello)
  | join (group : String)
  | leave (group : String)
  | whisper
  | shout (group : String)
  | peerList (peers : List NodeAddress)
  | heartbeat
  | disconnect
  deriving DecidableEq

/-- What a line carries: a text, or frames in hexadecimal digits. -/
inductive Payload where
  | text (text : String)
  | frames (frames : List String)
  deriving DecidableEq, Repr

namespace Payload

def ofFrames (frames : List Bytes) : Payload := .frames (frames.map Text.Hex.encode)

/-- The frames of a payload; a text is one frame. -/
def toFrames? : Payload → Option (List Bytes)
  | .text s => some [s.toByteArray]
  | .frames digits => digits.mapM fun frame => (Text.Hex.decode frame).toOption

end Payload

structure Line where
  /-- The id of the node that sends the line. -/
  sender : String
  kind : LineKind
  payload : Option Payload
  deriving DecidableEq

/-- The frames of a line; one without a payload, or whose digits cannot be read, has none. -/
def Line.frames? (l : Line) : Option (List Bytes) := l.payload.bind Payload.toFrames?

end PeerMesh
