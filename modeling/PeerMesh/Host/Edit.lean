import PeerMesh.Reactor.Execution

/-! What a host does to the state of its agent. The agent's node need not run for that; if it does,
the peers are told by notices, and by timers that find the definition or the mapping changed. -/

namespace PeerMesh

inductive Edit where
  | create (kind : SlotKind) (name : String) (type : ValueType) (value : Option Value)
  | remove (kind : SlotKind) (name : String)
  | write (kind : SlotKind) (name : String) (value : Value)
  /-- Replace a document by a text, read from the path if there is one. -/
  | load (document : Document) (text : String) (path : Option String)
  | addElement (input agent output : String)
  | removeElement (input agent output : String)
  | removeElementById (id : UInt64)
  | clearMapping
  | mute (muted : Bool)
  | muteOutput (output : String) (muted : Bool)
  | freeze (frozen : Bool)
  | permitFreezing (permitted : Bool)
  | setState (state : String)
  deriving DecidableEq

structure Edited where
  agent : Agent
  told : List HostEvent
  /-- The output's value that goes out, if the agent is running. -/
  published : Option DataMessage
  /-- What the peers are told, if the agent is running. -/
  notice : Option Command

namespace Edited

/-- A change of which nobody is told at once. -/
def silent (agent : Agent) : Edited := ⟨agent, [], none, none⟩

/-- A change of which the host is told by an event and the peers by a notice. -/
def announced (agent : Agent) (event : HostEvent) (notice : Command) : Edited :=
  ⟨agent, [event], none, some notice⟩

end Edited

namespace Agent

def create (a : Agent) (kind : SlotKind) (name : String) (type : ValueType) (value : Option Value) :
    Except ModelFault Agent :=
  (a.definition.create kind name type value).map fun (definition, _) =>
    { a with definition := definition, definitionDirty := true }

def remove (a : Agent) (kind : SlotKind) (name : String) : Except ModelFault Agent :=
  (a.definition.remove kind name).map fun (definition, _) =>
    { a with definition := definition, definitionDirty := true }

def removeElementById (a : Agent) (id : UInt64) : Except ModelFault Agent :=
  (a.mapping.removeById id).map fun (mapping, _) =>
    { a with mapping := mapping, mappingDirty := true }

/-- Replaces a document, and remembers where it came from. -/
def load (a : Agent) (text : String) (path : Option String) : Document → Except ModelFault Agent
  | .definition => (a.loadDefinition text).map fun a =>
      { a with definitionPath := path.or a.definitionPath }
  | .mapping => (a.loadMapping text).map fun a => { a with mappingPath := path.or a.mappingPath }

/-- Writes a value; that of an output goes out unless a gate holds it back. -/
def write (a : Agent) (kind : SlotKind) (name : String) (value : Value) :
    Except ModelFault Edited :=
  match a.definition.write kind name value with
  | .error fault => .error fault
  | .ok (definition, stored) =>
    let next := { a with definition := definition }
    let published := match kind with
      | .output =>
        match next.prepare name with
        | .ok (.ok message) => some message
        | _ => none
      | _ => none
    .ok ⟨next, [.updated kind name stored], published, none⟩

/-- Freezing needs the permission, unfreezing does not. -/
def freeze (a : Agent) (frozen : Bool) : Except AgentFault Edited :=
  if frozen && !a.canBeFrozen then .error .cannotBeFrozen
  else if a.frozen = frozen then .ok (.silent a)
  else .ok (.announced { a with frozen := frozen } (.freezeChanged frozen) (.flag .frozen frozen))

def mute (a : Agent) (muted : Bool) : Edited :=
  if a.muted = muted then .silent a
  else .announced { a with muted := muted } (.muteChanged muted) (.flag .muted muted)

def read? (a : Agent) (kind : SlotKind) (name : String) : Option Value :=
  (a.definition.get? kind name).map (·.value)

def readAs (a : Agent) (kind : SlotKind) (name : String) (type : ValueType) :
    Except ModelFault Value :=
  match a.definition.get? kind name with
  | none => .error (.unknownSlot kind name)
  | some slot => slot.value.convertTo type

end Agent

def AgentFault.lift {α : Type} : Except ModelFault α → Except AgentFault α
  | .ok a => .ok a
  | .error fault => .error (.model fault)

/-- Carries out an edit, or refuses it without any change. -/
def Edit.apply (a : Agent) : Edit → Except AgentFault Edited
  | .create kind name type value =>
    (AgentFault.lift (a.create kind name type value)).map .silent
  | .remove kind name => (AgentFault.lift (a.remove kind name)).map .silent
  | .write kind name value => AgentFault.lift (a.write kind name value)
  | .load document text path => (AgentFault.lift (a.load text path document)).map .silent
  | .addElement input agent output =>
    (AgentFault.lift (a.addElement input agent output)).map fun (a, _) => .silent a
  | .removeElement input agent output =>
    (AgentFault.lift (a.removeElement input agent output)).map .silent
  | .removeElementById id => (AgentFault.lift (a.removeElementById id)).map .silent
  | .clearMapping => .ok (.silent a.clearMapping)
  | .mute muted => .ok (a.mute muted)
  | .muteOutput output muted =>
    (AgentFault.lift (a.setOutputMuted output muted)).map fun a =>
      .announced a (.outputMuteChanged output muted) (Agent.muteNotice output muted)
  | .freeze frozen => a.freeze frozen
  | .permitFreezing permitted => .ok (.silent { a with canBeFrozen := permitted })
  | .setState state => .ok ⟨{ a with state := state }, [], none, some (.state state)⟩

end PeerMesh
