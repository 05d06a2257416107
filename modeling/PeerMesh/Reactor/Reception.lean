import PeerMesh.Reactor.Execution

/-! How a reactor takes in what its node reports, what its peers publish, and what its host asks of
it. -/

namespace PeerMesh

inductive Control where
  | terminate
  /-- Tell the peers something about this agent. -/
  | notice (command : Command)
  | busJoin (group : String)
  | busLeave (group : String)
  | busShout (group : String) (frames : List Bytes)
  /-- To a peer by its id or name. -/
  | busWhisper (peer : String) (frames : List Bytes)
  deriving DecidableEq

namespace Reactor

def handleEnter (peer name address : String) (headers : Table String) (r : Reactor) : Reaction :=
  let (directory, outcome) := r.directory.enter peer name address headers
  let next := { r with directory := directory }
  match outcome with
  | .new =>
    next.tell [r.networkLog "directory" .info "peer_enter" (some address)
        (some s!"name={name} id={peer}"),
      .notify (.peerEntered peer name)]
  | .reconnected count =>
    next.tell [r.networkLog "directory" .warn "peer_reenter" (some address)
      (some s!"name={name} id={peer} reconnections={count}")]

/-- A peer that is gone for good takes its subscriber with it. -/
def handleExit (peer name : String) (r : Reactor) : Reaction :=
  let (directory, outcome) := r.directory.exit peer
  let next := { r with directory := directory }
  match outcome with
  | .unknown => next.idle
  | .decremented count =>
    next.tell [r.networkLog "directory" .warn "peer_exit_stale" none
      (some s!"name={name} id={peer} reconnections={count}")]
  | .removed gone =>
    (next.dropSubscriber peer).andThen fun r =>
      r.tell [r.networkLog "directory" .info "peer_exit" (some gone.address)
          (some s!"name={gone.name} id={peer}"),
        .notify (.peerExited peer gone.name)]

/-- A peer that comes into the private channel is welcomed; of other groups the host is told. -/
def handleJoin (s : Surroundings) (peer name group : String) (r : Reactor) : Reaction :=
  let (directory, flipped) := r.directory.group peer group true
  let next := { r with directory := directory }
  if group = privateChannel then if flipped then next.welcome s peer else next.idle
  else next.tell [.notify (.busJoined peer name group)]

def handleLeave (peer name group : String) (r : Reactor) : Reaction :=
  let next := { r with directory := (r.directory.group peer group false).1 }
  if group = privateChannel then next.idle else next.tell [.notify (.busLeft peer name group)]

def unreadable (r : Reactor) (name : String) (fault : CommandFault) : Reaction :=
  r.tell [r.commandLog .error name "?" false (some fault.message)]

def handleWhisper (s : Surroundings) (peer : String) (frames : List Bytes) (r : Reactor) :
    Reaction :=
  match Command.ofFrames frames with
  | .ok command => r.handleCommand s peer command
  | .error fault => r.unreadable (r.peerName peer) fault

/-- In the private channel only notices are shouted; shouts to other groups are for the host. -/
def handleShout (s : Surroundings) (peer name group : String) (frames : List Bytes) (r : Reactor) :
    Reaction :=
  if group ≠ privateChannel then r.tell [.notify (.busShout peer name group frames)]
  else match Command.ofFrames frames with
    | .error fault => r.unreadable name fault
    | .ok command =>
      if command.isNotice then r.handleCommand s peer command
      else r.tell [r.commandLog .warn name command.keyword false
        (some "only state notices are accepted as shouts")]

def handlePresence (s : Surroundings) (r : Reactor) : Presence.Event → Reaction
  | .enter peer name address headers => r.handleEnter peer name address headers
  | .exit peer name => r.handleExit peer name
  | .join peer name group => r.handleJoin s peer name group
  | .leave peer name group => r.handleLeave peer name group
  | .whisper peer _ frames => r.handleWhisper s peer frames
  | .shout peer name group frames => r.handleShout s peer name group frames

/-- A value published by a peer that is subscribed to. -/
def handlePublished (peer : String) (m : DataMessage) (r : Reactor) : Reaction :=
  match r.subscribers.get? peer with
  | none => r.idle
  | some subscriber => r.deliver subscriber.peerName m

def busLog (r : Reactor) (action target detail : String) : Effect :=
  r.networkLog "bus" .warn action (some target) (some detail)

/-- Asks something of the node for the host; a refusal is only logged. -/
def busRequest (s : Surroundings) (request : Presence.Request) (action group : String)
    (r : Reactor) : Reaction :=
  r.tell (.request request ::
    match s.refusal? request with
    | none => []
    | some fault => [r.busLog action group fault.message])

def handleControl (s : Surroundings) (r : Reactor) : Control → Reaction
  | .terminate => (r.requestStop .requested).idle
  | .notice command => r.tell (r.shoutNotice s command)
  | .busJoin group => r.busRequest s (.join group) "bus_join_failed" group
  | .busLeave group => r.busRequest s (.leave group) "bus_leave_failed" group
  | .busShout group frames => r.busRequest s (.shout group frames) "bus_shout_failed" group
  | .busWhisper peer frames =>
    match r.directory.find? peer with
    | some found => r.tell (r.whisper s found.id (.bus frames))
    | none => r.tell [r.busLog "bus_whisper_failed" peer "unknown peer"]

def subscriberOf? (r : Reactor) (peer : String) : Option Subscriber :=
  (r.directory.find? peer).bind fun found => r.subscribers.get? found.id

def peers (r : Reactor) : List Peer := r.directory.peers.values

def peerDefinition? (r : Reactor) (peer : String) : Option Definition :=
  (r.subscriberOf? peer).bind (·.definition)

def peerMapping? (r : Reactor) (peer : String) : Option Mapping :=
  (r.subscriberOf? peer).bind (·.mapping)

def peerFilters? (r : Reactor) (peer : String) : Option NameSet :=
  (r.subscriberOf? peer).map (·.filters)

end Reactor
end PeerMesh
