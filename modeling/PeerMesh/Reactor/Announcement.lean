import PeerMesh.Reactor.Wiring

/-! What a reactor tells its peers of its own: everything at once to a peer that comes into the
private channel, and later the definition and the mapping whenever a timer finds them changed. -/

namespace PeerMesh

/-- The commands that bring a peer up to date. -/
def Agent.catchUp (a : Agent) : List Command :=
  [.enclosure .externalDefinition a.definition.toText, .enclosure .externalMapping a.mapping.toText,
    .flag .muted a.muted, .flag .frozen a.frozen] ++
  (if a.state.isEmpty then [] else [.state a.state]) ++
  ((a.definition.outputs.values.filter (·.muted)).map fun slot => .topic .outputMuted slot.name) ++
  (a.logFilePath.map (Command.topic .logFilePath)).toList ++
  (a.definitionPath.map (Command.topic .definitionFilePath)).toList ++
  (a.mappingPath.map (Command.topic .mappingFilePath)).toList

namespace Reactor

/-- Brings a peer up to date and subscribes to it. -/
def welcome (s : Surroundings) (peer : String) (r : Reactor) : Reaction :=
  (r.tell (r.agent.catchUp.flatMap (r.whisper s peer))).andThen (ensureSubscriber peer)

/-- Announces the definition if it has changed. What resolves may thereby have changed too, so the
mapping is due as well. -/
def announceDefinition (s : Surroundings) (r : Reactor) : Reaction :=
  if r.agent.definitionDirty then
    let next := r.setAgent { r.agent.clearDefinitionDirty with mappingDirty := true }
    next.tell
      (next.whisperJoined s (.enclosure .externalDefinition next.agent.definition.toText))
  else r.idle

/-- Announces the mapping if it has changed, and brings all filters in line. -/
def announceMapping (s : Surroundings) (r : Reactor) : Reaction :=
  if r.agent.mappingDirty then
    let replaced := r.agent.mappingReplaced
    let next := r.setAgent r.agent.clearMappingDirty
    (next.tell
        (next.whisperJoined s (.enclosure .externalMapping next.agent.mapping.toText))).andThen
      fun next => next.forEach next.subscribers.keys fun peer r =>
        (if replaced then markReset peer r else r).resolve s peer
  else r.idle

end Reactor
end PeerMesh
