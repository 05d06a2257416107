import PeerMesh.Proofs.Models
import PeerMesh.Proofs.Resolution

/-! What a peer is told when it comes into the private channel brings its view up to date. Of the two
documents it keeps the mapping and what a document leaves of the definition, and of the notices that
follow, one after the other, everything else that its directory has a place for. -/

namespace PeerMesh

/-- What a peer is told when it comes, beside the two documents. -/
def Agent.catchUpNotices (a : Agent) : List Command :=
  [.flag .muted a.muted, .flag .frozen a.frozen] ++
  (if a.state.isEmpty then [] else [.state a.state]) ++
  ((a.definition.outputs.values.filter (·.muted)).map fun slot => .topic .outputMuted slot.name) ++
  (a.logFilePath.map (Command.topic .logFilePath)).toList ++
  (a.definitionPath.map (Command.topic .definitionFilePath)).toList ++
  (a.mappingPath.map (Command.topic .mappingFilePath)).toList

/-- An entry of a peer that has told nothing of itself so far. -/
structure Peer.Untold (p : Peer) : Prop where
  state : p.state = none
  mutedOutputs : p.mutedOutputs = Table.empty
  logFilePath : p.logFilePath = none
  definitionPath : p.definitionPath = none
  mappingPath : p.mappingPath = none

/-- An entry that shows an agent as it is. -/
structure Peer.Shows (p : Peer) (a : Agent) : Prop where
  muted : p.muted = a.muted
  frozen : p.frozen = a.frozen
  state : p.state = if a.state.isEmpty then none else some a.state
  mutedOutputs : ∀ output, Table.contains p.mutedOutputs output = true ↔
    ∃ slot, a.definition.output? output = some slot ∧ slot.muted = true
  logFilePath : p.logFilePath = a.logFilePath
  definitionPath : p.definitionPath = a.definitionPath
  mappingPath : p.mappingPath = a.mappingPath

/-- The paths that are set have something to read in them. -/
def Agent.PathsSpelled (a : Agent) : Prop :=
  ∀ path ∈ a.logFilePath.toList ++ a.definitionPath.toList ++ a.mappingPath.toList,
    ∃ c ∈ path.toList, Text.isBlank c = false

/-- A reactor after whispers of a peer, each taken in surroundings of its own, if every one is a
command that is accepted. -/
def Reactor.acceptAll? (peer : String) : Reactor → List (Surroundings × List Bytes) → Option Reactor
  | r, [] => some r
  | r, (s, frames) :: rest =>
    match Command.ofFrames frames with
    | .error _ => none
    | .ok command =>
      match (r.execute s peer (r.peerName peer) command).outcome with
      | .error _ => none
      | .ok _ => (r.handleWhisper s peer frames).reactor.acceptAll? peer rest

namespace Proofs.CatchUp
open CommandCodec HostRuns ReactorMoves Resolution

def whispered (peer : String) (effects : List Effect) : List (List Bytes) :=
  effects.filterMap fun
    | .request (.whisper other frames) => if other = peer then some frames else none
    | _ => none

variable {s : Surroundings} {r : Reactor} {peer : String} {p : Peer}

theorem catchUp_eq (a : Agent) :
    a.catchUp = .enclosure .externalDefinition a.definition.toText ::
      .enclosure .externalMapping a.mapping.toText :: a.catchUpNotices := by
  simp only [Agent.catchUp, Agent.catchUpNotices, List.cons_append, List.nil_append]

theorem isNotice_of_mem_catchUp {a : Agent} {command : Command}
    (listed : command ∈ a.catchUpNotices) : command.isNotice = true := by
  simp only [Agent.catchUpNotices, List.mem_append, Option.mem_toList, Option.map_eq_some_iff,
    List.mem_map, List.mem_cons, List.not_mem_nil, or_false] at listed
  rcases listed with (((((rfl | rfl) | state) | ⟨_, -, rfl⟩) | ⟨_, -, rfl⟩) | ⟨_, -, rfl⟩) | ⟨_, -, rfl⟩
  · rfl
  · rfl
  · split at state
    · cases state
    · cases List.mem_singleton.mp state
      rfl
  · rfl
  · rfl
  · rfl
  · rfl

theorem whispered_append (one two : List Effect) :
    whispered peer (one ++ two) = whispered peer one ++ whispered peer two :=
  List.filterMap_append

theorem whispered_whisper (s : Surroundings) (r : Reactor) (peer : String)
    (command : Command) : whispered peer (r.whisper s peer command) = [command.toFrames] := by
  unfold Reactor.whisper Reactor.send whispered
  rw [List.filterMap_cons]
  simp only [if_true]
  split <;> rfl

theorem whispered_welcome (s : Surroundings) (r : Reactor) (peer : String) :
    whispered peer (r.welcome s peer).effects = r.agent.catchUp.map Command.toFrames := by
  have told (commands : List Command) : whispered peer (commands.flatMap (r.whisper s peer)) =
      commands.map Command.toFrames := by
    induction commands with
    | nil => rfl
    | cons command commands ih =>
      rw [List.flatMap_cons, whispered_append, whispered_whisper, ih]
      rfl
  have connected (r : Reactor) : whispered peer (r.ensureSubscriber peer).effects = [] := by
    rcases ensureSubscriber_cases peer r with ⟨-, same⟩ | ⟨known, endpoint, entry, -, -, same⟩
    · rw [same]
      rfl
    · rw [same]
      rfl
  rw [Reactor.welcome, Reaction.andThen, whispered_append, connected, List.append_nil]
  exact told _

theorem acceptAll?_cons {frames : List Bytes} {command : Command}
    (read : Command.ofFrames frames = .ok command) {remark : Option Remark}
    (accepted : (r.execute s peer (r.peerName peer) command).outcome = .ok remark)
    (rest : List (Surroundings × List Bytes)) :
    r.acceptAll? peer ((s, frames) :: rest) =
      (r.execute s peer (r.peerName peer) command).reaction.reactor.acceptAll? peer rest := by
  have handled : (r.handleWhisper s peer frames).reactor =
      (r.execute s peer (r.peerName peer) command).reaction.reactor := by
    rw [Reactor.handleWhisper]
    simp only [read]
    rfl
  rw [Reactor.acceptAll?]
  simp only [read, accepted, handled]

theorem execute_notice {command : Command} (notice : command.isNotice = true) (s : Surroundings)
    (peer name : String) (r : Reactor) : r.execute s peer name command = r.executeNotice peer command := by
  cases command with
  | topic topic text => cases topic <;> first | rfl | cases notice
  | flag | state => rfl
  | order | enclosure | listing | set | map | unmap | bus => cases notice

/-- Notices are accepted from a known peer, and noted in its entry one by one. -/
theorem acceptAll?_notices {commands : List Command} {whispers : List (Surroundings × List Bytes)}
    (notices : ∀ c ∈ commands, c.isNotice = true ∧ Transmissible c)
    (sent : whispers.map (·.2) = commands.map Command.toFrames)
    (known : r.directory.get? peer = some p) :
    ∃ after, r.acceptAll? peer whispers = some after ∧
      after.directory.get? peer = some (commands.foldl Peer.note p) ∧
        after.subscribers = r.subscribers := by
  induction commands generalizing r p whispers with
  | nil =>
    rw [List.map_eq_nil_iff.mp sent]
    exact ⟨r, rfl, known, rfl⟩
  | cons command commands ih =>
    obtain ⟨⟨s, frames⟩, rest, rfl, rfl, others⟩ := List.map_eq_cons_iff.mp sent
    obtain ⟨notice, transmissible⟩ := notices command List.mem_cons_self
    let next : Reactor := { r with directory := r.directory.modify peer fun p => p.note command }
    have executed : r.execute s peer (r.peerName peer) command = .accepted next.idle := by
      rw [execute_notice notice, Reactor.executeNotice, known]
      rfl
    have read : Command.ofFrames command.toFrames = .ok command := ofFrames_toFrames transmissible
    have noted : next.directory.get? peer = some (p.note command) := by
      have found : r.directory.peers.get? peer = some p := known
      simp only [next, Directory.get?, Directory.modify, Table.get?_modify, if_true, found,
        Option.map_some]
    obtain ⟨after, accepted, entry, subscribers⟩ :=
      ih (fun c member => notices c (List.mem_cons_of_mem _ member)) others noted
    refine ⟨after, ?_, entry, subscribers⟩
    rw [acceptAll?_cons read (by rw [executed]; rfl), executed]
    exact accepted

private theorem ensured (known : r.directory.get? peer = some p)
    (port : p.publisherPort?.isSome = true) :
    ∃ subscribers subscriber,
      (r.ensureSubscriber peer).reactor = { r with subscribers := subscribers } ∧
        subscribers.get? peer = some subscriber ∧
          ∀ before, r.subscribers.get? peer = some before → before = subscriber := by
  obtain ⟨number, held⟩ := Option.isSome_iff_exists.mp port
  have endpoint : ∃ endpoint, r.publisherOf? peer = some (p, endpoint) := by
    rw [Reactor.publisherOf?, known, Option.bind_some, Reactor.endpointOf?, held]
    exact ⟨_, rfl⟩
  obtain ⟨endpoint, published⟩ := endpoint
  rcases ensureSubscriber_cases peer r with
    ⟨present | unpublished, same⟩ | ⟨q, _, entry, absent, found, same⟩
  · obtain ⟨subscriber, held⟩ := Table.contains_iff.mp present
    rw [same, held]
    exact ⟨r.subscribers, subscriber, rfl, held, fun before same => (Option.some.inj same).symm⟩
  · rw [published] at unpublished
    cases unpublished
  · rw [same]
    refine ⟨_, Subscriber.new peer q.name, rfl, ?_, fun before held => ?_⟩
    · rw [Table.get?_insert, if_pos rfl]
    · rw [Table.contains, held] at absent
      cases absent

/-- A document that can be read is accepted from a peer with a publisher, and kept. -/
theorem acceptAll?_document (s : Surroundings) (enclosure : Enclosure) (text : String)
    (known : r.directory.get? peer = some p) (port : p.publisherPort?.isSome = true)
    {apply : Subscriber → Except ModelFault Subscriber} {change : Subscriber → Subscriber}
    (executes : r.execute s peer (r.peerName peer) (.enclosure enclosure text) =
      r.executeExternal s peer apply)
    (reads : ∀ before, apply before = .ok (change before)) :
    ∃ subscribers before after,
      (∀ rest, r.acceptAll? peer ((s, (Command.enclosure enclosure text).toFrames) :: rest) =
        { r with subscribers := subscribers }.acceptAll? peer rest) ∧
      (∀ held, r.subscribers.get? peer = some held → held = before) ∧
      subscribers.get? peer = some after ∧
      after.definition = (change before).definition ∧ after.mapping = (change before).mapping := by
  obtain ⟨present, before, same, found, kept⟩ := ensured known port
  obtain ⟨after, subscribers, resolvedTo, placed, resolved⟩ :=
    resolve_taken s { r with subscribers := present } peer (change before)
  have executed : r.executeExternal s peer apply =
      .accepted ((r.ensureSubscriber peer).andThen fun r =>
        { r with subscribers := r.subscribers.insert peer (change before) }.resolve s peer) := by
    unfold Reactor.executeExternal
    simp only [same, found, reads]
  rw [executed] at executes
  refine ⟨subscribers, before, after, fun rest => ?_, kept, placed, resolved.definition,
    resolved.mapping⟩
  have accepted : (r.execute s peer (r.peerName peer) (.enclosure enclosure text)).outcome =
      .ok none := by rw [executes, Execution.accepted]
  rw [acceptAll?_cons (ofFrames_enclosure enclosure text) accepted, executes]
  simp only [Execution.accepted, Reaction.andThen, same, resolvedTo]

/-- The name of an output can be sent, whatever is told of it. -/
theorem transmissible_output {d : Definition} (sound : d.Sound) {output : String} {slot : Slot}
    (found : d.output? output = some slot) (topic : Topic) : Transmissible (.topic topic output) := by
  have stored : d.get? .output output = some slot := found
  have kept := sound.slots stored
  obtain ⟨nonempty, plain⟩ := Names.word_of_isClean kept.clean
  obtain ⟨c, member⟩ := List.exists_mem_of_ne_nil _ nonempty
  exact ⟨c, kept.named ▸ member, plain c member⟩

theorem transmissible_of_mem_catchUp {a : Agent} (sound : a.definition.Sound) (spelled : a.PathsSpelled)
    {command : Command} (listed : command ∈ a.catchUpNotices) : Transmissible command := by
  simp only [Agent.catchUpNotices, List.mem_append, Option.mem_toList, Option.map_eq_some_iff,
    List.mem_map, List.mem_cons, List.not_mem_nil, or_false] at listed
  simp only [Agent.PathsSpelled, List.mem_append, Option.mem_toList] at spelled
  rcases listed with (((((rfl | rfl) | state) | ⟨slot, muted, rfl⟩) | ⟨path, set, rfl⟩) |
    ⟨path, set, rfl⟩) | ⟨path, set, rfl⟩
  · trivial
  · trivial
  · split at state
    · cases state
    · cases List.mem_singleton.mp state
      trivial
  · obtain ⟨name, found⟩ := Table.mem_values.mp (List.mem_filter.mp muted).1
    have output : a.definition.get? .output name = some slot := found
    rw [(sound.slots output).named]
    exact transmissible_output sound found .outputMuted
  · exact spelled path (.inl (.inl set))
  · exact spelled path (.inl (.inr set))
  · exact spelled path (.inr set)

private theorem note_outputs (outputs : List String) (p : Peer) :
    (outputs.map (Command.topic .outputMuted)).foldl Peer.note p =
      { p with mutedOutputs := outputs.foldl NameSet.add p.mutedOutputs } := by
  induction outputs generalizing p with
  | nil => rfl
  | cons output outputs ih => exact ih (p.note (.topic .outputMuted output))

private theorem note_manner (muted frozen : Bool) (state : String) (p : Peer) :
    ([Command.flag .muted muted, .flag .frozen frozen] ++
        if state.isEmpty then [] else [Command.state state]).foldl Peer.note p =
      { p with
        muted := muted
        frozen := frozen
        state := if state.isEmpty then p.state else some state } := by
  split <;> rfl

private theorem note_paths (log definition mapping : Option String) (p : Peer) :
    ((log.map (Command.topic .logFilePath)).toList ++
        ((definition.map (Command.topic .definitionFilePath)).toList ++
          (mapping.map (Command.topic .mappingFilePath)).toList)).foldl Peer.note p =
      { p with
        logFilePath := log.or p.logFilePath
        definitionPath := definition.or p.definitionPath
        mappingPath := mapping.or p.mappingPath } := by
  cases log <;> cases definition <;> cases mapping <;> rfl

/-- An entry without news shows the agent once all notices are noted in it. -/
theorem shows_of_notices {a : Agent} (sound : a.definition.Sound) (untold : p.Untold) :
    (a.catchUpNotices.foldl Peer.note p).Shows a := by
  have outputs : ((a.definition.outputs.values.filter (·.muted)).map fun slot =>
      Command.topic .outputMuted slot.name) =
      ((a.definition.outputs.values.filter (·.muted)).map Slot.name).map
        (Command.topic .outputMuted) := by
    rw [List.map_map]
    rfl
  rw [Agent.catchUpNotices, outputs, List.append_assoc, List.append_assoc, List.append_assoc,
    List.foldl_append, note_manner, List.foldl_append, note_outputs, note_paths]
  refine ⟨rfl, rfl, ?_, fun output => ?_, ?_, ?_, ?_⟩
  · rw [untold.state]
  · rw [untold.mutedOutputs, NameSet.contains_foldl_add]
    simp only [Table.contains_empty, Bool.or_false, decide_eq_true_eq, List.mem_map, List.mem_filter,
      Table.mem_values]
    constructor
    · rintro ⟨slot, ⟨⟨name, found⟩, muted⟩, rfl⟩
      have stored : a.definition.get? .output name = some slot := found
      exact ⟨slot, (sound.slots stored).named ▸ found, muted⟩
    · rintro ⟨slot, found, muted⟩
      have stored : a.definition.get? .output output = some slot := found
      exact ⟨slot, ⟨⟨output, found⟩, muted⟩, (sound.slots stored).named⟩
  · rw [untold.logFilePath, Option.or_none]
  · rw [untold.definitionPath, Option.or_none]
  · rw [untold.mappingPath, Option.or_none]

/-- Everything that a reactor whispers to welcome a peer is accepted by a receiver that knows the
sender's publisher and nothing else of it. Afterwards the receiver's entry shows the sender's agent,
and its subscriber holds the agent's mapping and what a document leaves of its definition. -/
theorem welcome_transfers_model {h : Host} {history : List HostStep} {sender receiver : Reactor}
    {own peer : String} {entry : Peer} {whispers : List (Surroundings × List Bytes)}
    (run : Run h history) (running : h.reactor? = some sender)
    (spelled : sender.agent.PathsSpelled) (readsBack : sender.agent.definition.ReadsBack)
    (known : receiver.directory.get? own = some entry) (untold : entry.Untold)
    (port : entry.publisherPort?.isSome = true)
    (sent : whispers.map (·.2) = whispered peer (sender.welcome s peer).effects) :
    ∃ after shown subscriber, receiver.acceptAll? own whispers = some after ∧
      after.directory.get? own = some shown ∧ shown.Shows sender.agent ∧
      after.subscribers.get? own = some subscriber ∧
      subscriber.mapping = some sender.agent.mapping ∧
      subscriber.definition = some sender.agent.definition.asRead := by
  have sound := Models.sound_of_reachable (agent_of_reactor? running ▸ run.reachable)
  rw [whispered_welcome, catchUp_eq, List.map_cons, List.map_cons] at sent
  obtain ⟨⟨s₁, _⟩, rest, rfl, rfl, others⟩ := List.map_eq_cons_iff.mp sent
  obtain ⟨⟨s₂, _⟩, notices, rfl, rfl, noticed⟩ := List.map_eq_cons_iff.mp others
  have definition (before : Subscriber) :
      before.applyDefinition sender.agent.definition.toText = .ok { before with
        definition := some sender.agent.definition.asRead
        resetPending := true } := by
    rw [Subscriber.applyDefinition, Definitions.ofText_toText sound.definition readsBack]
    rfl
  obtain ⟨subscribers₁, _, subscriber₁, accepted₁, -, found₁, definition₁, -⟩ :=
    acceptAll?_document s₁ .externalDefinition _ known port rfl definition
  have mapping (before : Subscriber) : before.applyMapping sender.agent.mapping.toText =
      .ok { before with mapping := some sender.agent.mapping } := by
    rw [Subscriber.applyMapping, Mappings.ofText_toText sound.mapping]
    rfl
  let middle : Reactor := { receiver with subscribers := subscribers₁ }
  have knownStill : middle.directory.get? own = some entry := known
  obtain ⟨subscribers₂, before₂, subscriber₂, accepted₂, kept₂, found₂, definition₂, mapping₂⟩ :=
    acceptAll?_document s₂ .externalMapping _ knownStill port rfl mapping
  let next : Reactor := { receiver with subscribers := subscribers₂ }
  have listed : ∀ c ∈ sender.agent.catchUpNotices, c.isNotice = true ∧ Transmissible c :=
    fun c member => ⟨isNotice_of_mem_catchUp member,
      transmissible_of_mem_catchUp sound.definition spelled member⟩
  have knownThen : next.directory.get? own = some entry := known
  obtain ⟨after, accepted, shown, subscribers⟩ := acceptAll?_notices listed noticed knownThen
  refine ⟨after, _, subscriber₂, ?_, shown, shows_of_notices sound.definition untold, ?_, mapping₂, ?_⟩
  · rw [accepted₁, accepted₂]
    exact accepted
  · rw [subscribers]
    exact found₂
  · rw [definition₂, ← kept₂ subscriber₁ found₁]
    exact definition₁

private def flour : Slot := ⟨"flour", .double, .double ⟨4602678819172646912⟩, true⟩

private def millTurns : List Turn := [
  .start .calm "" "host" ⟨"1", "mill", none⟩ (.ok ⟨4000, none⟩),
  .edit (.create .output "flour" .double (some flour.value)),
  .edit (.muteOutput "flour" true),
  .edit (.setState "slow"),
  .happen .calm (.presence (.whisper "c" "cart" (Command.topic .setLogPath "a.log").toFrames))]

private def mill : Host := (Host.new "mill" Config.empty "m").after millTurns

private def millEntry : Peer :=
  Peer.new "m" "mill" "host" (Table.ofList [("publisher", "4000")])

private def cart : Host := (Host.new "cart" Config.empty "c").after [
  .start .calm "" "host" ⟨"2", "cart", none⟩ (.ok ⟨5000, none⟩),
  .happen .calm (.presence (.enter "m" "mill" "host" (Table.ofList [("publisher", "4000")])))]

theorem cart_sees_mill : ∃ (sender receiver after : Reactor) (shown : Peer) (subscriber : Subscriber),
    mill.reactor? = some sender ∧ cart.reactor? = some receiver ∧
      receiver.acceptAll? "m" ((whispered "c" (sender.welcome .calm "c").effects).map
        fun frames => (.calm, frames)) = some after ∧
      after.directory.get? "m" = some shown ∧ shown.Shows sender.agent ∧
      after.subscribers.get? "m" = some subscriber ∧
      subscriber.definition = some sender.agent.definition.asRead := by
  obtain ⟨history, run⟩ := run_after millTurns (.new "mill" Config.empty "m")
  have ready : (mill.reactor?.map fun r => (r.agent.definition, r.agent.logFilePath,
      r.agent.definitionPath, r.agent.mappingPath)) =
      some ({ Definition.new "mill" with outputs := Table.ofList [("flour", flour)] },
        some "a.log", none, none) := by decide +kernel
  have entered : (cart.reactor?.bind (·.directory.get? "m")) = some millEntry := by decide +kernel
  obtain ⟨sender, running, held⟩ := Option.map_eq_some_iff.mp ready
  obtain ⟨receiver, listening, known⟩ := Option.bind_eq_some_iff.mp entered
  obtain ⟨definition, paths⟩ := Prod.mk.inj held
  obtain ⟨logFilePath, paths⟩ := Prod.mk.inj paths
  obtain ⟨definitionPath, mappingPath⟩ := Prod.mk.inj paths
  have spelled : sender.agent.PathsSpelled := by
    rw [Agent.PathsSpelled, logFilePath, definitionPath, mappingPath]
    intro path member
    rw [List.mem_singleton.mp member]
    exact ⟨'a', List.mem_cons_self, rfl⟩
  have readsBack : sender.agent.definition.ReadsBack := by
    rw [definition]
    intro kind name slot found
    cases kind with
    | input | parameter => cases found
    | output =>
      have stored : (Table.ofList [("flour", flour)]).get? name = some slot := found
      simp only [Table.ofList, List.foldl_cons, List.foldl_nil, Table.get?_insert,
        Table.get?_empty] at stored
      split at stored
      · cases stored
        exact fun _ => rfl
      · cases stored
  have untold : millEntry.Untold := ⟨rfl, rfl, rfl, rfl, rfl⟩
  have port : millEntry.publisherPort?.isSome = true := by decide +kernel
  have sent (frames : List (List Bytes)) :
      (frames.map fun frames => (Surroundings.calm, frames)).map (·.2) = frames := by
    rw [List.map_map]
    exact List.map_id _
  obtain ⟨after, shown, subscriber, accepted, entry, faithful, found, -, taken⟩ :=
    welcome_transfers_model run running spelled readsBack known untold port (sent _)
  exact ⟨sender, receiver, after, shown, subscriber, running, listening, accepted, entry, faithful,
    found, taken⟩

end Proofs.CatchUp
end PeerMesh
