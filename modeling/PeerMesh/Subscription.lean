import PeerMesh.DataMessage
import PeerMesh.Multipart.Stream
import PeerMesh.Publisher.Address
import PeerMesh.Publisher.Control

/-! Subscriptions: the sockets by which an agent receives what its peers publish. A socket takes
changes of its filters from a queue and passes on those that make a difference. Whenever it has
connected, it tells the publisher all its filters anew. -/

namespace PeerMesh

structure Subscription where
  peerId : String
  endpoint : Endpoint
  /-- The changes that the socket has not yet taken, oldest first. -/
  queue : List FilterChange
  filters : NameSet
  /-- Reads from the publisher, as long as it is connected. -/
  reader : Option Multipart.Reader
  deriving DecidableEq

namespace Subscription

def new (peerId : String) (endpoint : Endpoint) : Subscription :=
  ⟨peerId, endpoint, [], Table.empty, none⟩

def change (s : Subscription) (change : FilterChange) : Subscription :=
  { s with queue := s.queue ++ [change] }

/-- Takes the oldest change. While the socket is connected, a change that makes a difference is told
to the publisher. -/
def takeOne (s : Subscription) : Subscription × List (List Bytes) :=
  match s.queue with
  | [] => (s, [])
  | change :: rest =>
    let told := if s.reader.isSome && change.affects s.filters then [change.toFrames] else []
    ({ s with queue := rest, filters := change.apply s.filters }, told)

def takeAll (s : Subscription) : Subscription × List (List Bytes) :=
  s.queue.foldl
    (fun (s, told) _ =>
      let (next, more) := s.takeOne
      (next, told ++ more))
    (s, [])

/-- What a publisher is told first. -/
def replay (s : Subscription) : List (List Bytes) :=
  s.filters.toList.map fun output => (FilterChange.subscribe output).toFrames

def connect (s : Subscription) : Subscription × List (List Bytes) :=
  ({ s with reader := some .start }, s.replay)

def disconnect (s : Subscription) : Subscription := { s with reader := none }

/-- What is read that is no multipart message ends the connection; a multipart message that is no
data message is passed over. -/
def handle (s : Subscription) : Multipart.Received → Subscription × List DataMessage
  | .parts parts =>
    if s.reader.isSome then (s, (DataMessage.ofFrames parts).toOption.toList) else (s, [])
  | .fault _ | .closed => (s.disconnect, [])

def receive (s : Subscription) (chunk : Bytes) : Subscription × List DataMessage :=
  match s.reader with
  | none => (s, [])
  | some reader =>
    let (reader, received) := reader.feed chunk
    received.foldl
      (fun (s, messages) item =>
        let (next, more) := s.handle item
        (next, messages ++ more))
      ({ s with reader := some reader }, [])

end Subscription
end PeerMesh
