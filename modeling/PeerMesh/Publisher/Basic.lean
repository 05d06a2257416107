import PeerMesh.Publisher.Address
import PeerMesh.Publisher.Connection

/-! Publishers. Whatever is published is queued for every subscriber that is connected; each
connection picks out what its subscriber filters for. -/

namespace PeerMesh

structure Publisher where
  address : PublisherAddress
  /-- The open connections by the subscribers' names. -/
  connections : Table Publisher.Connection
  deriving DecidableEq

namespace Publisher

def new (address : PublisherAddress) : Publisher := ⟨address, Table.empty⟩

def connect (p : Publisher) (subscriber : String) : Publisher :=
  { p with connections := p.connections.insert subscriber .new }

def close (p : Publisher) (subscriber : String) : Publisher :=
  { p with connections := p.connections.erase subscriber }

/-- Keeps a connection as long as it has not ended. -/
def keep (p : Publisher) (subscriber : String) (c : Connection) : Publisher :=
  if c.ended then p.close subscriber
  else { p with connections := p.connections.insert subscriber c }

def receive (p : Publisher) (subscriber : String) (chunk : Bytes) : Publisher :=
  match p.connections.get? subscriber with
  | some c => p.keep subscriber (c.receive chunk)
  | none => p

/-- Publishes messages, and counts the connections that they are queued for. -/
def publish (p : Publisher) (messages : List DataMessage) : Publisher × Nat :=
  ({ p with connections := p.connections.mapValues fun _ c => c.enqueue messages },
    p.connections.size)

def deliver (p : Publisher) (subscriber : String) : Publisher × Bytes :=
  match p.connections.get? subscriber with
  | some c =>
    let (next, bytes) := c.takeAll
    (p.keep subscriber next, bytes)
  | none => (p, ByteArray.empty)

def deliverAll (p : Publisher) : Publisher × List (String × Bytes) :=
  p.connections.keys.foldl
    (fun (p, sent) subscriber =>
      let (next, bytes) := p.deliver subscriber
      (next, sent ++ [(subscriber, bytes)]))
    (p, [])

/-- Whether it takes subscribers at an endpoint of its host. -/
def listensAt (p : Publisher) : Endpoint → Bool
  | .tcp address => address.endsWith s!":{p.address.port}"
  | .ipc path => p.address.ipcPath = some path

end Publisher
end PeerMesh
