import PeerMesh.CommandLine.Launch
import PeerMesh.Node.Request

/-! A run of the program: an agent on a node that talks to others line by line. What the agent's
host is told is printed, up to what ends the run. -/

namespace PeerMesh.CommandLine

structure Session where
  name : String
  host : Host
  node : Node
  files : Files
  /-- What the host has been told, oldest first. -/
  told : List HostEvent
  /-- The lines that wait to go out, each with its connection. -/
  outgoing : List (Nat × Line)

namespace Session

/-- No other port can be had once the node runs. -/
def noPort : Except String Nat := .error "the node is running"

def perform (s : Session) : NodeEffect → Session
  | .send connection line => { s with outgoing := s.outgoing ++ [(connection, line)] }
  | .event _ | .close _ | .dial _ => s

def ask (port : Except String Nat) (s : Session) (asked : Presence.Request) : Session :=
  match s.node.request port asked with
  | .ok step => step.effects.foldl perform { s with node := step.node }
  | .error _ => s

def bring (port : Except String Nat) (s : Session) : Effect → Session
  | .request asked => s.ask port asked
  | .notify event => { s with told := s.told ++ [event] }
  | .save path text =>
    match s.files.write path text.toByteArray with
    | .ok files => { s with files := files }
    | .error _ => s
  | _ => s

def surroundings (s : Session) : Surroundings where
  refusal? asked := match s.node.request noPort asked with
    | .ok _ => none
    | .error fault => some fault
  saveFault? := s.files.writeFault?
  now := 0

def react (s : Session) (stimulus : Stimulus) : Session :=
  let step := s.host.react s.surroundings stimulus
  step.effects.foldl (bring noPort) { s with host := step.host }

/-- The reactor hears of what the node has done. -/
def follow (s : Session) (step : NodeStep) : Session :=
  step.effects.foldl
    (fun s effect => match effect with
      | .event event => s.react (.presence event)
      | effect => s.perform effect)
    { s with node := step.node }

/-- Starts an agent that is ready, with its node at the given port. An agent that expires at once
does so. -/
def start (launch : Launch) (files : Files) (nodeId temporary : String) (process : ProcessIdentity)
    (publisher : Except FileFault PublisherAddress) (port : Except String Nat) :
    Except String Session :=
  let session : Session := ⟨launch.name, launch.host, .new nodeId launch.node, files, [], []⟩
  let refusal? (asked : Presence.Request) : Option Presence.Fault :=
    match asked, port with
    | .start, .error reason => some (.bind reason)
    | _, _ => none
  let (effects, started) := launch.host.start ⟨refusal?, files.writeFault?, 0⟩ temporary
    session.node.hostAddress process publisher
  match started with
  | .error fault => .error (failure s!"Failed to start agent '{launch.name}': {fault.message}")
  | .ok host =>
    let running := effects.foldl (bring port) { session with host := host }
    .ok (if host.config.expiry = some 0 then running.react .expired else running)

def accept (s : Session) (connection : Nat) (remote : IpAddress) : Session :=
  s.follow (s.node.accepted connection remote)

def receive (s : Session) (connection : Nat) (line : String) : Session :=
  s.follow (s.node.receive connection line)

def hangUp (s : Session) (connection : Nat) : Session := s.follow (s.node.closed connection)

/-- What is printed when the host is told something. -/
def lineOf? : HostEvent → Option String
  | .updated .input name value => some s!"{indent}input {name} = {value.display}"
  | .peerEntered _ name => some s!"{indent}peer entered: {name}"
  | .peerExited _ name => some s!"{indent}peer exited: {name}"
  | .forcedStop peer => some s!"🛑 Stopped by peer {peer}"
  | _ => none

def ends : HostEvent → Bool
  | .forcedStop _ | .stopped => true
  | _ => false

def isOver (s : Session) : Bool := s.told.any ends

/-- What the events up to the end of the run print. -/
def report : List HostEvent → List String
  | [] => []
  | event :: rest => (lineOf? event).toList ++ if ends event then [] else report rest

def greeting (s : Session) : String :=
  s!"🟢 {s.name} is running ({s.host.nodeId}). Press Ctrl+C to shut down..."

def farewell (s : Session) : String := s!"🛑 {s.name} shutting down gracefully."

end Session

/-- How a run ends before there is a running agent. -/
structure Ending where
  code : Nat
  complaint : String
  deriving DecidableEq, Repr

/-- What is printed at first, and what it leads to. -/
structure Opening where
  printed : List String
  outcome : Except Ending Session

/-- The port of the agent's node, unless the publisher has it. -/
def nodePort (settings : NodeSettings) (publisher : Except FileFault PublisherAddress) :
    Except String Nat :=
  match publisher with
  | .ok address =>
    if settings.port ≠ 0 ∧ address.port = settings.port then
      .error FileFault.addressInUse.message
    else .ok settings.port
  | .error fault => .error fault.message

/-- Begins a run with the given arguments. A publisher without a port of its own gets the given one.
-/
def openRun (arguments : List String) (files : Files) (nodeId temporary : String)
    (process : ProcessIdentity) (free : Nat) : Opening :=
  match invocation arguments with
  | .error fault => ⟨[], .error ⟨2, fault.message⟩⟩
  | .ok .help => ⟨helpLines, .error ⟨0, ""⟩⟩
  | .ok .version => ⟨[versionLine], .error ⟨0, ""⟩⟩
  | .ok (.run a) =>
    let preparation := prepare a files nodeId
    let session := do
      let launch ← preparation.launch
      let publisher := launch.host.publisherAddress files temporary free fun _ => false
      let port := nodePort launch.node publisher
      Session.start launch files nodeId temporary process publisher port
    ⟨preparation.printed, session.mapError fun message => ⟨1, message⟩⟩

end PeerMesh.CommandLine
