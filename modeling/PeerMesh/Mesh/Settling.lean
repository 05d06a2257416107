import PeerMesh.Mesh.Basic

/-! How a mesh comes to rest, and how it waits. All that is on its way arrives before any time goes
by; then the clock goes on to the next time at which a reactor has something to do. -/

namespace PeerMesh.Mesh

/-- The reactor of a station takes the oldest event that its node has reported. -/
def takeEvent (m : Mesh) (id : String) : Mesh :=
  match m.station? id with
  | none => m
  | some station =>
    match station.inbox with
    | [] => m
    | event :: rest => (m.modify id fun s => { s with inbox := rest }).react id (.presence event)

/-- One subscription of a station connects, if it is not connected and can be, and tells the
publisher what has changed of its filters. -/
def tend (m : Mesh) (id peer : String) (subscription : Subscription) : Mesh :=
  match m.publisherAt? subscription.endpoint with
  | none => m.modifySubscription id peer fun s => s.takeAll.1
  | some publisher =>
    let fresh := subscription.reader.isNone
    let (connected, replayed) :=
      if fresh then subscription.connect else (subscription, [])
    let (next, told) := connected.takeAll
    (m.modifySubscription id peer fun _ => next).modifyPublisher publisher fun p =>
      (if fresh then p.connect id else p).receive id (Multipart.sendAll (replayed ++ told))

def tendAll (m : Mesh) (id : String) : Mesh :=
  match m.station? id with
  | none => m
  | some station =>
    station.subscriptions.entries.foldl
      (fun m (peer, subscription) => m.tend id peer subscription) m

/-- Bytes from a publisher arrive at a subscriber's reactor. -/
def arrive (publisher : String) (m : Mesh) (sent : String × Bytes) : Mesh :=
  match (m.station? sent.1).bind fun station => station.subscriptions.get? publisher with
  | none => m
  | some subscription =>
    let (next, messages) := subscription.receive sent.2
    messages.foldl (fun m message => m.react sent.1 (.published publisher message))
      (m.modifySubscription sent.1 publisher fun _ => next)

def deliver (m : Mesh) (id : String) : Mesh :=
  match (m.station? id).bind (·.publisher) with
  | none => m
  | some publisher =>
    let (next, sent) := publisher.deliverAll
    sent.foldl (arrive id) (m.modifyPublisher id fun _ => next)

/-- Every station takes one event, and sees to its connections. -/
def round (m : Mesh) : Mesh :=
  m.stations.keys.foldl (fun m id => ((m.takeEvent id).tendAll id).deliver id) m

def isQuiet (m : Mesh) : Bool :=
  m.stations.values.all fun station =>
    station.inbox.isEmpty &&
      station.publisher.all (fun p => p.connections.values.all fun c => c.queue.isEmpty) &&
      station.subscriptions.values.all fun s =>
        s.queue.isEmpty && (s.reader.isSome || (m.publisherAt? s.endpoint).isNone)

/-- Goes on for as many rounds as are needed, up to a count. -/
def settleFor : Nat → Mesh → Mesh
  | 0, m => m
  | count + 1, m => if m.isQuiet then m else settleFor count m.round

def settle (m : Mesh) : Mesh := settleFor 100000 m

def Station.nextTime? (s : Station) : Option Nat :=
  s.host.reactor?.bind fun reactor =>
    ([some s.announcesAt, s.expiresAt, reactor.nextOutputsRequest?].filterMap id).min?

def nextTime? (m : Mesh) : Option Nat := (m.stations.values.filterMap Station.nextTime?).min?

def Station.due (s : Station) (now : Nat) : List Stimulus :=
  if s.expiresAt.any (· ≤ now) then [.expired]
  else (if s.announcesAt ≤ now then [.definitionTimer, .mappingTimer] else []) ++ [.outputsTimer]

def wake (m : Mesh) (id : String) : Mesh :=
  match m.station? id with
  | none => m
  | some station =>
    match station.host.reactor? with
    | none => m
    | some reactor =>
      let next := if station.announcesAt ≤ m.now then
          m.modify id fun s =>
            { s with announcesAt := m.now + reactor.settings.broadcastInterval }
        else m
      (Station.due station m.now).foldl (fun m stimulus => m.react id stimulus) next

/-- The clock goes on to a time, and every reactor does what is due by then. -/
def wakeAt (m : Mesh) (time : Nat) : Mesh :=
  m.stations.keys.foldl wake { m with now := max m.now time }

/-- Lets time go by until a condition holds or a deadline has come, and tells whether it holds. The
clock goes on at most as many times as the count says. -/
def waitFor : Nat → Nat → (Mesh → Bool) → Mesh → Mesh × Bool
  | 0, _, holds, m => (m, holds m)
  | count + 1, deadline, holds, m =>
    if holds m then (m, true)
    else match m.nextTime? with
      | none => ({ m with now := deadline }, false)
      | some time =>
        if time ≤ deadline then waitFor count deadline holds (m.wakeAt time).settle
        else ({ m with now := deadline }, false)

/-- Waits so many milliseconds at most. -/
def wait (m : Mesh) (time : Nat) (holds : Mesh → Bool) : Mesh × Bool :=
  waitFor (2 * time + 2) (m.now + time) holds m.settle

/-- Whether a reactor has changes to announce or a peer to ask for its outputs. -/
def Station.isBusy (s : Station) : Bool :=
  s.host.reactor?.any fun reactor =>
    reactor.agent.definitionDirty || reactor.agent.mappingDirty ||
      reactor.nextOutputsRequest?.isSome

/-- Lets time go by, for a second at most, until what has been done has had its whole effect. -/
def rest (m : Mesh) : Mesh := (m.wait 1000 fun m => !m.stations.values.any Station.isBusy).1

end PeerMesh.Mesh
