import PeerMesh.Host.Basic
import PeerMesh.Hub
import PeerMesh.Publisher.Basic
import PeerMesh.Subscription

/-! Meshes: agents in one process, with their nodes on one hub and with the connections from their
subscriptions to their publishers. A mesh has a clock of its own; nothing takes time but waiting. -/

namespace PeerMesh

/-- An agent in a mesh, with all that links it to the others. -/
structure Station where
  host : Host
  /-- What the node has reported and the reactor has not yet taken, oldest first. -/
  inbox : List Presence.Event
  publisher : Option Publisher
  /-- By the ids of the peers. -/
  subscriptions : Table Subscription
  /-- When the reactor is to announce what has changed. -/
  announcesAt : Nat
  expiresAt : Option Nat
  /-- What the host has been told and has not yet looked at. -/
  told : List HostEvent
  deriving DecidableEq

structure Mesh where
  hub : Hub
  /-- By the ids of their nodes. -/
  stations : Table Station
  files : Files
  /-- The time in milliseconds. -/
  now : Nat
  /-- The next port that nobody has. -/
  freePort : Nat
  deriving DecidableEq

namespace Mesh

def empty (files : Files) : Mesh := ⟨Hub.empty, Table.empty, files, 0, 49152⟩

def add (m : Mesh) (id name : String) (config : Config) : Mesh :=
  let station : Station := ⟨Host.new name config id, [], none, Table.empty, 0, none, []⟩
  { m with
    hub := m.hub.add id Hub.loopback
    stations := m.stations.insert id station }

def station? (m : Mesh) (id : String) : Option Station := m.stations.get? id

def host? (m : Mesh) (id : String) : Option Host := (m.station? id).map (·.host)

def modify (m : Mesh) (id : String) (change : Station → Station) : Mesh :=
  { m with stations := m.stations.modify id change }

def surroundings (m : Mesh) (id : String) : Surroundings where
  refusal? asked := match m.hub.request id asked with
    | .ok _ => none
    | .error fault => some fault
  saveFault? := m.files.writeFault?
  now := m.now

/-- The station whose publisher takes subscribers at an endpoint. -/
def publisherAt? (m : Mesh) (endpoint : Endpoint) : Option String :=
  (m.stations.entries.find? fun (_, station) =>
    station.publisher.any (·.listensAt endpoint)).map (·.1)

def modifyPublisher (m : Mesh) (id : String) (change : Publisher → Publisher) : Mesh :=
  m.modify id fun station => { station with publisher := station.publisher.map change }

def modifySubscription (m : Mesh) (id peer : String) (change : Subscription → Subscription) :
    Mesh :=
  m.modify id fun station =>
    { station with subscriptions := station.subscriptions.modify peer change }

def post (m : Mesh) (postings : List Posting) : Mesh :=
  postings.foldl
    (fun m posting => m.modify posting.receiver fun station =>
      { station with inbox := station.inbox ++ [posting.event] })
    m

/-- Closes a station's connection to the publisher at an endpoint. -/
def hangUp (m : Mesh) (id : String) (endpoint : Endpoint) : Mesh :=
  match m.publisherAt? endpoint with
  | some publisher => m.modifyPublisher publisher fun p => p.close id
  | none => m

def bring (id : String) (m : Mesh) : Effect → Mesh
  | .request asked =>
    match m.hub.request id asked with
    | .ok step => ({ m with hub := step.hub } : Mesh).post step.postings
    | .error _ => m
  | .notify event => m.modify id fun station => { station with told := station.told ++ [event] }
  | .publish message => m.modifyPublisher id fun p => (p.publish [message]).1
  | .connect peer endpoint => m.modify id fun station =>
      { station with subscriptions := station.subscriptions.insert peer (.new peer endpoint) }
  | .filter peer change => m.modifySubscription id peer (·.change change)
  | .disconnect peer =>
    match (m.station? id).bind fun station => station.subscriptions.get? peer with
    | none => m
    | some subscription =>
      (m.hangUp id subscription.endpoint).modify id fun station =>
        { station with subscriptions := station.subscriptions.erase peer }
  | .save path text => { m with files := (Effect.save path text).saved m.files }
  | .log _ | .interrupt => m

/-- Those that were connected to a publisher that is gone lose their connections. -/
def cutOff (m : Mesh) (endpoints : List Endpoint) : Mesh :=
  { m with stations := m.stations.mapValues fun _ station =>
      { station with subscriptions := station.subscriptions.mapValues fun _ subscription =>
          if endpoints.contains subscription.endpoint then subscription.disconnect
          else subscription } }

/-- A station that no longer runs has neither publisher nor subscriptions. -/
def retire (m : Mesh) (id : String) : Mesh :=
  match m.station? id with
  | none => m
  | some station =>
    if station.host.isRunning then m
    else
      let lost := (m.stations.values.flatMap fun other =>
        other.subscriptions.values.map (·.endpoint)).filter fun endpoint =>
          station.publisher.any (·.listensAt endpoint)
      (m.modify id fun station =>
        { station with inbox := [], publisher := none, subscriptions := Table.empty }).cutOff lost

def act (m : Mesh) (id : String) (step : HostStep) : Mesh :=
  let changed := m.modify id fun station => { station with host := step.host }
  (step.effects.foldl (bring id) changed).retire id

def react (m : Mesh) (id : String) (stimulus : Stimulus) : Mesh :=
  match m.host? id with
  | some host => m.act id (host.react (m.surroundings id) stimulus)
  | none => m

def ports (m : Mesh) : List Nat :=
  m.stations.values.filterMap fun station => station.publisher.map (·.address.port)

/-- Starts a station. Its node is refused nothing but the start itself. -/
def start (m : Mesh) (id temporary : String) (process : ProcessIdentity) :
    Mesh × Except AgentFault Unit :=
  match m.host? id with
  | none => (m, .error .notRunning)
  | some host =>
    let surroundings := { m.surroundings id with
      refusal? := fun asked => if asked = .start then (m.surroundings id).refusal? asked else none }
    let address := host.publisherAddress m.files temporary m.freePort m.ports.contains
    let (effects, started) := host.start surroundings temporary Hub.loopback process address
    match started with
    | .error fault => (m.act id ⟨host, effects⟩, .error fault)
    | .ok running =>
      let settings := host.config.reactorSettings temporary
      let opened := m.modify id fun station => { station with
        publisher := address.toOption.map Publisher.new
        announcesAt := m.now + settings.broadcastInterval
        expiresAt := settings.expiry.map (m.now + ·) }
      (({ opened with freePort := m.freePort + 1 } : Mesh).act id ⟨running, effects⟩, .ok ())

end Mesh
end PeerMesh
