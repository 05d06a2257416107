import PeerMesh.Host.Edit
import PeerMesh.Reactor.Lifecycle

/-! A host's handle of its agent. The host edits the agent's state, starts and stops its reactor,
and asks things of the running reactor, which takes them from a queue one at a time. -/

namespace PeerMesh

inductive Activity where
  | idle (agent : Agent)
  | running (reactor : Reactor)
  /-- The last run took the agent's node down with it. -/
  | lost (agent : Agent)
  deriving DecidableEq

structure Host where
  config : Config
  nodeId : String
  activity : Activity
  /-- What the running reactor has yet to take, oldest first. -/
  queue : List Control
  deriving DecidableEq

structure HostStep where
  host : Host
  effects : List Effect

namespace Host

/-- An idle agent; its name is sanitized. -/
def new (name : String) (config : Config) (nodeId : String) : Host where
  config := config
  nodeId := nodeId
  activity := .idle { Agent.new (Name.sanitize name) with canBeFrozen := config.canBeFrozen }
  queue := []

def agent (h : Host) : Agent :=
  match h.activity with
  | .idle agent | .lost agent => agent
  | .running reactor => reactor.agent

def setAgent (h : Host) (agent : Agent) : Host :=
  { h with activity := match h.activity with
      | .idle _ => .idle agent
      | .lost _ => .lost agent
      | .running reactor => .running (reactor.setAgent agent) }

def reactor? (h : Host) : Option Reactor :=
  match h.activity with
  | .running reactor => some reactor
  | _ => none

def isRunning (h : Host) : Bool := h.reactor?.isSome

/-- A reactor is only there while the agent is running. -/
def reactor (h : Host) : Except AgentFault Reactor :=
  match h.reactor? with
  | some reactor => .ok reactor
  | none => .error .notRunning

/-- Goes on with a reactor, which ends once it has a reason to stop. -/
def settle (h : Host) (reaction : Reaction) : HostStep :=
  let reactor := reaction.reactor
  if reactor.stopReason.isSome then
    ⟨{ h with activity := .idle reactor.agent, queue := [] }, reaction.effects ++ reactor.teardown⟩
  else ⟨{ h with activity := .running reactor }, reaction.effects⟩

def react (s : Surroundings) (h : Host) (stimulus : Stimulus) : HostStep :=
  match h.reactor? with
  | some reactor => h.settle (reactor.react s stimulus)
  | none => ⟨h, []⟩

def takeOne (s : Surroundings) (h : Host) : HostStep :=
  match h.queue with
  | [] => ⟨h, []⟩
  | control :: rest => { h with queue := rest }.react s (.control control)

def takeAll (s : Surroundings) (h : Host) : HostStep :=
  h.queue.foldl
    (fun step _ =>
      let next := step.host.takeOne s
      ⟨next.host, step.effects ++ next.effects⟩)
    ⟨h, []⟩

/-- Where the agent publishes, given the ports that are in use. If the configuration names no port,
one that is free is given. -/
def publisherAddress (h : Host) (files : Files) (temporary : String) (free : Nat)
    (inUse : Nat → Bool) : Except FileFault PublisherAddress :=
  let settings := h.config.reactorSettings temporary
  let path := settings.ipcDirectory.map (PublisherAddress.localPath · h.nodeId)
  let port := h.config.publisherPort
  if port = 0 then .ok (.offered files free path)
  else if inUse port then .error .addressInUse
  else .ok (.offered files port path)

/-- The time that is left on the clock when an agent starts, in milliseconds. The clock counts
seconds in sixty-three bits, and is taken to have run for a day. -/
def clockEnd : Nat := (9223372036854775807 - 86400) * 1000

/-- Lets the reactor take all that a step has put into its queue. -/
def settled (s : Surroundings) (step : HostStep) : HostStep :=
  let more := step.host.takeAll s
  ⟨more.host, step.effects ++ more.effects⟩

/-- Starts the agent. An expiry that the clock cannot hold brings the reactor down at once, and its
node with it. -/
def start (s : Surroundings) (h : Host) (temporary hostAddress : String) (process : ProcessIdentity)
    (publisher : Except FileFault PublisherAddress) : List Effect × Except AgentFault Host :=
  match h.activity with
  | .running _ => ([], .error .alreadyRunning)
  | .lost _ => ([], .error .presenceLost)
  | .idle agent =>
    let settings := h.config.reactorSettings temporary
    let (effects, started) :=
      Reactor.setup s agent settings h.nodeId hostAddress process publisher
    (effects, started.map fun reactor =>
      let beyond := settings.expiry.any (clockEnd < ·)
      { h with activity := if beyond then .lost agent else .running reactor, queue := [] })

def ask (h : Host) (control : Control) : Except AgentFault Host :=
  if h.isRunning then .ok { h with queue := h.queue ++ [control] } else .error .notRunning

/-- A request about a group; the private channel is not the host's. -/
def askGroup (h : Host) (group : String) (control : Control) : Except AgentFault Host :=
  if group = privateChannel then .error (.reservedChannel group) else h.ask control

def busJoin (h : Host) (group : String) : Except AgentFault Host :=
  h.askGroup group (.busJoin group)

def busLeave (h : Host) (group : String) : Except AgentFault Host :=
  h.askGroup group (.busLeave group)

def busShout (h : Host) (group : String) (frames : List Bytes) : Except AgentFault Host :=
  h.askGroup group (.busShout group frames)

def busWhisper (h : Host) (peer : String) (frames : List Bytes) : Except AgentFault Host :=
  h.ask (.busWhisper peer frames)

/-- Puts a request of any kind into the queue, if the host may ask for it. -/
def request (h : Host) : Control → Except AgentFault Host
  | .busJoin group => h.busJoin group
  | .busLeave group => h.busLeave group
  | .busShout group frames => h.busShout group frames
  | .busWhisper peer frames => h.busWhisper peer frames
  | control => h.ask control

/-- Asks the reactor to stop, if it is running, and waits for that. -/
def stop (s : Surroundings) (h : Host) : HostStep :=
  match h.ask .terminate with
  | .ok asked => asked.takeAll s
  | .error _ => ⟨h, []⟩

/-- Edits the agent's state. While the agent is running, an output's value goes out and the notice
to the peers is put into the queue. -/
def edit (h : Host) (e : Edit) : Except AgentFault HostStep :=
  (e.apply h.agent).map fun edited =>
    let told := edited.told.map Effect.notify
    let next := h.setAgent edited.agent
    if h.isRunning then
      ⟨{ next with queue := h.queue ++ (edited.notice.map Control.notice).toList },
        (edited.published.map Effect.publish).toList ++ told⟩
    else ⟨next, told⟩

def elementId (input agent output : String) : UInt64 := (Element.ofNames input agent output).id

def loadFile (h : Host) (files : Files) (document : Document) (path : String) :
    Except AgentFault HostStep :=
  match files.readText path with
  | .error fault => .error (.model (.file fault))
  | .ok text => h.edit (.load document text (some path))

end Host
end PeerMesh
