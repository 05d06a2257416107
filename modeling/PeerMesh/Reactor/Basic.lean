import PeerMesh.Agent.Fault
import PeerMesh.Agent.Publication
import PeerMesh.Command.Frames
import PeerMesh.Config
import PeerMesh.Directory
import PeerMesh.HostEvent
import PeerMesh.Publisher.Address
import PeerMesh.Subscriber.Resolution

/-! The reactor of a running agent: the state it works on, and what it brings about. A step changes
the state and yields effects in the order in which they come about. What the surroundings answer to
a request is given to the step beforehand. -/

namespace PeerMesh

inductive StopReason where
  | requested
  | forced (peer : String)
  | expired
  | presenceLost
  deriving DecidableEq, Repr

def StopReason.display : StopReason → String
  | .requested => "Requested"
  | .forced peer => "ForcedStop \x7b by: " ++ Text.Quoted.text peer ++ " \x7d"
  | .expired => "Expired"
  | .presenceLost => "PresenceLost"

inductive Effect where
  | request (request : Presence.Request)
  | log (entry : Log.Entry)
  | notify (event : HostEvent)
  | publish (message : DataMessage)
  /-- Open a subscription to a peer's publisher. -/
  | connect (peer : String) (endpoint : Endpoint)
  | filter (peer : String) (change : FilterChange)
  | disconnect (peer : String)
  | save (path text : String)
  /-- Interrupt the process. -/
  | interrupt
  deriving DecidableEq

def Effect.request? : Effect → Option Presence.Request
  | .request asked => some asked
  | _ => none

def Effect.entry? : Effect → Option Log.Entry
  | .log entry => some entry
  | _ => none

def Effect.event? : Effect → Option HostEvent
  | .notify event => some event
  | _ => none

/-- The files after an effect; what cannot be written is lost. -/
def Effect.saved (files : Files) : Effect → Files
  | .save path text => (files.write path text.toByteArray).toOption.getD files
  | _ => files

/-- What the surroundings of a reactor answer while it takes a step. -/
structure Surroundings where
  /-- Whether the node refuses a request. -/
  refusal? : Presence.Request → Option Presence.Fault
  /-- Whether a file cannot be written. -/
  saveFault? : String → Option FileFault
  /-- The time in milliseconds. -/
  now : Nat

structure Reactor where
  agent : Agent
  settings : ReactorSettings
  /-- The address under which the others see this host. -/
  hostAddress : String
  directory : Directory
  /-- By the peers' ids. -/
  subscribers : Table Subscriber
  stopReason : Option StopReason
  deriving DecidableEq

structure Reaction where
  reactor : Reactor
  effects : List Effect
  deriving DecidableEq

/-- Goes on from where a reaction has come to. -/
def Reaction.andThen (reaction : Reaction) (next : Reactor → Reaction) : Reaction :=
  let more := next reaction.reactor
  ⟨more.reactor, reaction.effects ++ more.effects⟩

namespace Reactor

/-- Brings effects about, and changes nothing. -/
def tell (r : Reactor) (effects : List Effect) : Reaction := ⟨r, effects⟩

def idle (r : Reactor) : Reaction := r.tell []

/-- Takes the same step for each of a list. -/
def forEach {α : Type} (items : List α) (step : α → Reactor → Reaction) (r : Reactor) : Reaction :=
  items.foldl (fun reaction item => reaction.andThen (step item)) r.idle

def setAgent (r : Reactor) (agent : Agent) : Reactor := { r with agent := agent }

def quiet (r : Reactor) : Bool := !r.settings.allowConsole

def networkLog (r : Reactor) (component : String) (level : Log.Level) (action : String)
    (address detail : Option String) : Effect :=
  .log ⟨level, component, none, r.quiet, .network action address detail⟩

def mappingLog (r : Reactor) (level : Log.Level) (action : String)
    (peer output detail : Option String) : Effect :=
  .log ⟨level, "resolver", some r.agent.name, r.quiet, .mapping action peer output detail⟩

def commandLog (r : Reactor) (level : Log.Level) (peer keyword : String) (accepted : Bool)
    (detail : Option String) : Effect :=
  .log ⟨level, "commands", some r.agent.name, r.quiet, .command peer keyword accepted detail⟩

/-- The first reason to stop counts. -/
def requestStop (r : Reactor) (reason : StopReason) : Reactor :=
  { r with stopReason := r.stopReason.or (some reason) }

def peerName (r : Reactor) (id : String) : String :=
  match r.directory.get? id with
  | some peer => peer.name
  | none => id

/-- Sends a command; a refusal is only logged. -/
def send (r : Reactor) (s : Surroundings) (request : Presence.Request) (action target : String)
    (command : Command) : List Effect :=
  .request request ::
    match s.refusal? request with
    | none => []
    | some fault =>
      [r.networkLog "runtime" .warn action (some target)
        (some s!"{command.keyword}: {fault.message}")]

def whisper (r : Reactor) (s : Surroundings) (peer : String) (command : Command) : List Effect :=
  r.send s (.whisper peer command.toFrames) "whisper_failed" peer command

/-- Whispers to every peer in the private channel. -/
def whisperJoined (r : Reactor) (s : Surroundings) (command : Command) : List Effect :=
  r.directory.joinedIds.flatMap fun peer => r.whisper s peer command

/-- Tells the private channel something about this agent. -/
def shoutNotice (r : Reactor) (s : Surroundings) (command : Command) : List Effect :=
  r.send s (.shout privateChannel command.toFrames) "shout_failed" privateChannel command

end Reactor
end PeerMesh
