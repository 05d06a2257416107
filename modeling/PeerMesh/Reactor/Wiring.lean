import PeerMesh.Reactor.Basic

/-! How a reactor keeps its subscriptions in line with the mapping, and asks for the current values
of what it has come to subscribe to. -/

namespace PeerMesh.Reactor

/-- Brings the filters of one subscriber in line. If it then filters for something new, or its
filters have been rebuilt, the peer is to be asked for its outputs after a while. -/
def resolve (s : Surroundings) (peer : String) (r : Reactor) : Reaction :=
  match r.subscribers.get? peer with
  | none => r.idle
  | some subscriber =>
    let (resolved, delta) :=
      subscriber.resolve r.agent.definition r.agent.mapping r.settings.filterPolicy
    let rewired := !delta.added.isEmpty || (delta.reset && !resolved.filters.isEmpty)
    let armed :=
      if rewired then resolved.armOutputsRequest (s.now + r.settings.outputsRequestDelay)
      else resolved
    let name := r.peerName peer
    let log (action output : String) : Effect :=
      r.mappingLog .debug action (some name) (some output) none
    ⟨{ r with subscribers := r.subscribers.insert peer armed },
      delta.changes.map (.filter peer) ++ delta.added.map (log "filter_added") ++
        delta.removed.map (log "filter_removed")⟩

/-- The subscriber's next resolution drops whatever it does not want. -/
def markReset (peer : String) (r : Reactor) : Reactor :=
  { r with subscribers := r.subscribers.modify peer Subscriber.markReset }

/-- Where a peer's publisher is reached: by its local path from the same host, if it has one. -/
def endpointOf? (r : Reactor) (peer : Peer) : Option Endpoint :=
  peer.publisherPort?.map fun port =>
    match peer.ipcPath? with
    | some path =>
      if peer.address = r.hostAddress then .ipc path else .tcp s!"{peer.address}:{port}"
    | none => .tcp s!"{peer.address}:{port}"

def publisherOf? (r : Reactor) (id : String) : Option (Peer × Endpoint) :=
  (r.directory.get? id).bind fun peer => (r.endpointOf? peer).map fun endpoint => (peer, endpoint)

/-- Makes the subscriber of a peer, unless there is one or the peer has no publisher. -/
def ensureSubscriber (id : String) (r : Reactor) : Reaction :=
  if r.subscribers.contains id then r.idle
  else match r.publisherOf? id with
    | none => r.idle
    | some (peer, endpoint) =>
      ⟨{ r with subscribers := r.subscribers.insert id (Subscriber.new id peer.name) },
        [r.networkLog "subscriber" .info "subscriber_created" (some endpoint.display)
            (some s!"peer={peer.name}"),
          .connect id endpoint]⟩

/-- Drops the subscriber of a peer with all its filters. -/
def dropSubscriber (id : String) (r : Reactor) : Reaction :=
  match r.subscribers.get? id with
  | none => r.idle
  | some subscriber =>
    ⟨{ r with subscribers := r.subscribers.erase id },
      subscriber.clearFilters.2.map (.filter id) ++ [.disconnect id]⟩

def requestOutputs (s : Surroundings) (id : String) (r : Reactor) : Reaction :=
  match r.subscribers.get? id with
  | none => r.idle
  | some subscriber =>
    let (next, due) := subscriber.takeDueRequest s.now
    ⟨{ r with subscribers := r.subscribers.insert id next },
      if due then r.whisper s id (.order .requestOutputs) else []⟩

/-- Asks every peer for its outputs that it is time to ask. -/
def requestDueOutputs (s : Surroundings) (r : Reactor) : Reaction :=
  r.forEach r.subscribers.keys (requestOutputs s)

/-- When the next peer is to be asked for its outputs. -/
def nextOutputsRequest? (r : Reactor) : Option Nat :=
  (r.subscribers.values.filterMap (·.outputsRequestAt)).min?

end PeerMesh.Reactor
