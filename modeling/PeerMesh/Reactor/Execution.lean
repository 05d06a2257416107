import PeerMesh.Agent.Delivery
import PeerMesh.Reactor.Announcement

/-! How a reactor carries out the commands of its peers. Each command is logged with what came of
it: accepted, with a remark if there is something to say, or refused for a reason. -/

namespace PeerMesh

/-- The documents of an agent that can be kept in files. -/
inductive Document where
  | definition
  | mapping
  deriving DecidableEq, Repr

def Document.name : Document → String
  | .definition => "definition"
  | .mapping => "mapping"

inductive Refusal where
  | cannotBeFrozen
  | model (fault : ModelFault)
  | noSubscriber
  | noPublisher
  | unknownPeer
  | noPath (document : Document)
  | save (path : String) (fault : FileFault)
  deriving DecidableEq

def Refusal.message : Refusal → String
  | .cannotBeFrozen => "agent cannot be frozen"
  | .model fault => fault.message
  | .noSubscriber => "no subscriber for peer"
  | .noPublisher => "peer has no publisher"
  | .unknownPeer => "unknown peer"
  | .noPath document => s!"no {document.name} path set"
  | .save path fault => s!"{path}: {fault.message}"

inductive Remark where
  | outputs (count : Nat)
  | values (count : Nat)
  | saved (path : String)
  | held (gate : Gate)
  deriving DecidableEq, Repr

def Remark.message : Remark → String
  | .outputs count => s!"{count} outputs"
  | .values count => s!"{count} values"
  | .saved path => path
  | .held .agentMuted => "not published: agent muted"
  | .held .outputMuted => "not published: output muted"
  | .held .frozen => "not published: agent frozen"

abbrev Outcome := Except Refusal (Option Remark)

structure Execution where
  reaction : Reaction
  outcome : Outcome

namespace Execution

def accepted (reaction : Reaction) : Execution := ⟨reaction, .ok none⟩

def remarked (reaction : Reaction) (remark : Remark) : Execution := ⟨reaction, .ok (some remark)⟩

/-- A refusal that leaves everything as it was. -/
def refused (r : Reactor) (refusal : Refusal) : Execution := ⟨r.idle, .error refusal⟩

end Execution

/-- A peer after a notice about itself. -/
def Peer.note (p : Peer) : Command → Peer
  | .flag .muted on => { p with muted := on }
  | .flag .frozen on => { p with frozen := on }
  | .state text => { p with state := some text }
  | .topic .outputMuted output => { p with mutedOutputs := p.mutedOutputs.add output }
  | .topic .outputUnmuted output => { p with mutedOutputs := p.mutedOutputs.erase output }
  | .topic .logFilePath path => { p with logFilePath := some path }
  | .topic .definitionFilePath path => { p with definitionPath := some path }
  | .topic .mappingFilePath path => { p with mappingPath := some path }
  | _ => p

namespace Agent

/-- A definition loaded from outside keeps the agent's name. -/
def loadDefinition (a : Agent) (text : String) : Except ModelFault Agent :=
  (Definition.ofText text).map fun d => a.replaceDefinition { d with name := a.name }

def loadMapping (a : Agent) (text : String) : Except ModelFault Agent :=
  (Mapping.ofText text).map a.replaceMapping

def clearMapping (a : Agent) : Agent := a.replaceMapping a.mapping.clear

def addElement (a : Agent) (input agent output : String) : Except ModelFault (Agent × UInt64) :=
  (a.mapping.add input agent output).map fun (mapping, id) =>
    ({ a with mapping := mapping, mappingDirty := true }, id)

def removeElement (a : Agent) (input agent output : String) : Except ModelFault Agent :=
  (a.mapping.remove input agent output).map fun (mapping, _) =>
    { a with mapping := mapping, mappingDirty := true }

def setOutputMuted (a : Agent) (output : String) (muted : Bool) : Except ModelFault Agent :=
  match a.definition.setOutputMuted? output muted with
  | some definition => .ok { a with definition := definition }
  | none => .error (.unknownSlot .output output)

def muteNotice (output : String) (muted : Bool) : Command :=
  .topic (if muted then .outputMuted else .outputUnmuted) output

def setPath (a : Agent) (path : String) : Topic → Agent
  | .logFilePath => { a with logFilePath := some path }
  | .definitionFilePath => { a with definitionPath := some path }
  | .mappingFilePath => { a with mappingPath := some path }
  | _ => a

def pathOf? (a : Agent) : Document → Option String
  | .definition => a.definitionPath
  | .mapping => a.mappingPath

def textOf (a : Agent) : Document → String
  | .definition => a.definition.toText
  | .mapping => a.mapping.toText

def setText (a : Agent) (kind : SlotKind) (name text : String) :
    Except ModelFault (Agent × Value) :=
  match a.definition.get? kind name with
  | none => .error (.unknownSlot kind name)
  | some slot =>
    match Value.parse slot.type text with
    | .error fault => .error fault
    | .ok value =>
      (a.definition.write kind name value).map fun (definition, stored) =>
        ({ a with definition := definition }, stored)

end Agent

namespace Reactor

/-- Writes a message of a peer to the inputs it feeds. -/
def deliver (peerName : String) (m : DataMessage) (r : Reactor) : Reaction :=
  let d := r.agent.deliver peerName m
  ⟨r.setAgent d.agent,
    (d.faults.map fun fault =>
      r.mappingLog .warn "input_write_failed" (some peerName) (some m.name) (some fault.message)) ++
    d.updates.map fun u => .notify (.updated .input u.input u.value)⟩

/-- Freezes or unfreezes the agent, if it permits that. -/
def freeze (s : Surroundings) (frozen : Bool) (r : Reactor) : Execution :=
  if !r.agent.canBeFrozen then .refused r .cannotBeFrozen
  else if r.agent.frozen = frozen then .accepted r.idle
  else
    let next := r.setAgent { r.agent with frozen := frozen }
    .accepted (next.tell
      (.notify (.freezeChanged frozen) :: next.shoutNotice s (.flag .frozen frozen)))

def mute (s : Surroundings) (muted : Bool) (r : Reactor) : Execution :=
  if r.agent.muted = muted then .accepted r.idle
  else
    let next := r.setAgent { r.agent with muted := muted }
    .accepted (next.tell
      (.notify (.muteChanged muted) :: next.shoutNotice s (.flag .muted muted)))

def muteOutput (s : Surroundings) (output : String) (muted : Bool) (r : Reactor) : Execution :=
  match r.agent.setOutputMuted output muted with
  | .error fault => .refused r (.model fault)
  | .ok agent =>
    let next := r.setAgent agent
    .accepted (next.tell (.notify (.outputMuteChanged output muted) ::
      next.shoutNotice s (Agent.muteNotice output muted)))

/-- Takes a path and tells the peers. -/
def setPath (s : Surroundings) (topic : Topic) (path : String) (r : Reactor) : Execution :=
  let next := r.setAgent (r.agent.setPath path topic)
  .accepted (next.tell (next.shoutNotice s (.topic topic path)))

def save (s : Surroundings) (document : Document) (r : Reactor) : Execution :=
  match r.agent.pathOf? document with
  | none => .refused r (.noPath document)
  | some path =>
    match s.saveFault? path with
    | some fault => .refused r (.save path fault)
    | none => .remarked (r.tell [.save path (r.agent.textOf document)]) (.saved path)

/-- Writes a slot for a peer. The value of an output is published unless a gate holds it back. -/
def set (kind : SlotKind) (name text : String) (r : Reactor) : Execution :=
  match r.agent.setText kind name text with
  | .error fault => .refused r (.model fault)
  | .ok (agent, stored) =>
    let next := r.setAgent agent
    let told : Effect := .notify (.updated kind name stored)
    match kind with
    | .output =>
      match agent.prepare name with
      | .error fault => ⟨next.idle, .error (.model fault)⟩
      | .ok (.ok message) => .accepted (next.tell [told, .publish message])
      | .ok (.error gate) => .remarked (next.tell [told]) (.held gate)
    | _ => .accepted (next.tell [told])

def change (r : Reactor) : Except ModelFault Agent → Execution
  | .ok agent => .accepted (r.setAgent agent).idle
  | .error fault => .refused r (.model fault)

def executeOrder (s : Surroundings) (peer name : String) (r : Reactor) : Order → Execution
  | .stop => .accepted (r.requestStop (.forced name)).idle
  | .clearMapping => .accepted (r.setAgent r.agent.clearMapping).idle
  | .freeze => r.freeze s true
  | .unfreeze => r.freeze s false
  | .muteAll => r.mute s true
  | .unmuteAll => r.mute s false
  | .requestOutputs =>
    let outputs := r.agent.openOutputs
    .remarked (r.tell (r.whisper s peer (.listing .outputs outputs))) (.outputs outputs.length)
  | .getCurrentInputs =>
    .accepted (r.tell (r.whisper s peer (.listing .currentInputs (r.agent.values .input))))
  | .getCurrentParameters =>
    .accepted (r.tell (r.whisper s peer (.listing .currentParameters (r.agent.values .parameter))))
  | .saveDefinition => r.save s .definition
  | .saveMapping => r.save s .mapping

/-- Keeps what a peer tells of itself. -/
def executeNotice (peer : String) (r : Reactor) (notice : Command) : Execution :=
  if (r.directory.get? peer).isSome then
    .accepted { r with directory := r.directory.modify peer fun p => p.note notice }.idle
  else .refused r .unknownPeer

/-- Takes in a document of a peer and brings the filters for that peer in line. -/
def executeExternal (s : Surroundings) (peer : String) (r : Reactor)
    (apply : Subscriber → Except ModelFault Subscriber) : Execution :=
  let ensured := r.ensureSubscriber peer
  match ensured.reactor.subscribers.get? peer with
  | none => .refused r .noPublisher
  | some subscriber =>
    match apply subscriber with
    | .error fault => ⟨ensured, .error (.model fault)⟩
    | .ok next =>
      .accepted (ensured.andThen fun r =>
        { r with subscribers := r.subscribers.insert peer next }.resolve s peer)

/-- Delivers those of a peer's outputs that are subscribed to. -/
def executeOutputs (peer name : String) (r : Reactor) (values : List DataMessage) : Execution :=
  match r.subscribers.get? peer with
  | none => .refused r .noSubscriber
  | some subscriber =>
    .accepted (r.forEach (values.filter fun m => subscriber.filters.contains m.name) (deliver name))

/-- Carries out a command of the peer with this id and name. -/
def execute (s : Surroundings) (peer name : String) (r : Reactor) : Command → Execution
  | .order order => r.executeOrder s peer name order
  | .topic .mute output => r.muteOutput s output true
  | .topic .unmute output => r.muteOutput s output false
  | .topic .setLogPath path => r.setPath s .logFilePath path
  | .topic .setDefinitionPath path => r.setPath s .definitionFilePath path
  | .topic .setMappingPath path => r.setPath s .mappingFilePath path
  | .set kind slot text => r.set kind slot text
  | .map input agent output => r.change ((r.agent.addElement input agent output).map (·.1))
  | .unmap input agent output => r.change (r.agent.removeElement input agent output)
  | .listing .outputs values => r.executeOutputs peer name values
  | .listing _ values => .remarked r.idle (.values values.length)
  | .enclosure .externalDefinition text => r.executeExternal s peer (·.applyDefinition text)
  | .enclosure .externalMapping text => r.executeExternal s peer (·.applyMapping text)
  | .enclosure .loadDefinition text => r.change (r.agent.loadDefinition text)
  | .enclosure .loadMapping text => r.change (r.agent.loadMapping text)
  | .bus frames => .accepted (r.tell [.notify (.busWhisper peer name frames)])
  | notice => r.executeNotice peer notice

/-- Carries out a command and logs what came of it. -/
def handleCommand (s : Surroundings) (peer : String) (command : Command) (r : Reactor) : Reaction :=
  let name := r.peerName peer
  let execution := r.execute s peer name command
  let log := match execution.outcome with
    | .ok remark => r.commandLog .debug name command.keyword true (remark.map Remark.message)
    | .error refusal => r.commandLog .warn name command.keyword false (some refusal.message)
  execution.reaction.andThen fun r => r.tell [log]

end Reactor
end PeerMesh
