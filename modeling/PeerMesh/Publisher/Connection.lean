import PeerMesh.DataMessage
import PeerMesh.Multipart.Stream
import PeerMesh.Publisher.Control

/-! A publisher's connection to one subscriber. Published messages wait in a queue. When the
connection takes a message, it sends it if its filters at that moment have the message's name. -/

namespace PeerMesh

structure Publisher.Connection where
  filters : NameSet
  reader : Multipart.Reader
  /-- What has been published and not yet been taken, oldest first. -/
  queue : List DataMessage
  ended : Bool
  deriving DecidableEq

namespace Publisher.Connection

def capacity : Nat := 1024

def new : Connection := ⟨Table.empty, .start, [], false⟩

/-- What is read that is no message ends the connection; a message that is no change of the filters
is passed over. -/
def handle (c : Connection) : Multipart.Received → Connection
  | .parts parts =>
    if c.ended then c
    else match FilterChange.ofFrames? parts with
      | some change => { c with filters := change.apply c.filters }
      | none => c
  | .fault _ | .closed => { c with ended := true }

def receive (c : Connection) (chunk : Bytes) : Connection :=
  let (reader, received) := c.reader.feed chunk
  received.foldl handle { c with reader := reader }

/-- Published messages join the queue. Of too many, the oldest are lost. -/
def enqueue (c : Connection) (messages : List DataMessage) : Connection :=
  let all := c.queue ++ messages
  { c with queue := all.drop (all.length - capacity) }

/-- Takes the oldest message, and the bytes that go out for it. A message that does not fit into a
frame ends the connection. -/
def takeOne (c : Connection) : Connection × Bytes :=
  match c.queue with
  | [] => (c, ByteArray.empty)
  | message :: rest =>
    let next := { c with queue := rest }
    if c.filters.contains message.name then
      match Multipart.send message.toFrames with
      | .ok bytes => (next, bytes)
      | .error _ => ({ next with queue := [], ended := true }, ByteArray.empty)
    else (next, ByteArray.empty)

def takeAll (c : Connection) : Connection × Bytes :=
  c.queue.foldl
    (fun (c, sent) _ =>
      let (next, bytes) := c.takeOne
      (next, sent ++ bytes))
    (c, ByteArray.empty)

end Publisher.Connection
end PeerMesh
