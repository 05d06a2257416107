import PeerMesh.Proofs.HostRuns
import PeerMesh.Proofs.Writes

/-! What is refused leaves no trace. Whatever a peer whispers, the reactor carries it out as a whole
or logs why it does not. One thing comes before a refusal: a subscriber is made for a peer that sends
a document, before the document is read, and it is then left with nothing in it. -/

namespace PeerMesh

/-- What is logged of a whisper that cannot be read or is refused. -/
def Reactor.refusal? (s : Surroundings) (peer : String) (frames : List Bytes) (r : Reactor) :
    Option Effect :=
  let name := r.peerName peer
  match Command.ofFrames frames with
  | .error fault => some (r.commandLog .error name "?" false (some fault.message))
  | .ok command =>
    match (r.execute s peer name command).outcome with
    | .error refusal => some (r.commandLog .warn name command.keyword false (some refusal.message))
    | .ok _ => none

/-- A document of a peer that cannot be read. -/
inductive Command.Unreadable : Command → Prop where
  | definition {text : String} {fault : ModelFault} (read : Definition.ofText text = .error fault) :
      Unreadable (.enclosure .externalDefinition text)
  | mapping {text : String} {fault : ModelFault} (read : Mapping.ofText text = .error fault) :
      Unreadable (.enclosure .externalMapping text)

namespace Proofs.Refusals
open ReactorMoves Writes

variable {s : Surroundings} {r : Reactor} {peer : String} {refusal : Refusal}

/-- If a command is refused then nothing was done for it. -/
def Atomic (r : Reactor) (execution : Execution) : Prop :=
  ∀ refusal, execution.outcome = .error refusal → execution.reaction = r.idle

private theorem atomic_accepted (reaction : Reaction) : Atomic r (.accepted reaction) := by
  intro refusal refused
  cases refused

private theorem atomic_remarked (reaction : Reaction) (remark : Remark) :
    Atomic r (.remarked reaction remark) := by
  intro refusal refused
  cases refused

private theorem atomic_refused (refusal : Refusal) : Atomic r (.refused r refusal) := by
  intro other refused
  rfl

private theorem atomic_freeze (frozen : Bool) : Atomic r (r.freeze s frozen) := by
  unfold Reactor.freeze
  split
  · exact atomic_refused .cannotBeFrozen
  split
  · exact atomic_accepted _
  · exact atomic_accepted _

private theorem atomic_mute (muted : Bool) : Atomic r (r.mute s muted) := by
  unfold Reactor.mute
  split
  · exact atomic_accepted _
  · exact atomic_accepted _

private theorem atomic_muteOutput (output : String) (muted : Bool) :
    Atomic r (r.muteOutput s output muted) := by
  unfold Reactor.muteOutput
  split
  · exact atomic_refused _
  · exact atomic_accepted _

private theorem atomic_save (document : Document) : Atomic r (r.save s document) := by
  unfold Reactor.save
  split
  · exact atomic_refused _
  split
  · exact atomic_refused _
  · exact atomic_remarked _ _

private theorem atomic_set (kind : SlotKind) (name text : String) :
    Atomic r (r.set kind name text) := by
  cases set : r.agent.setText kind name text with
  | error fault =>
    rw [set_of_refused set]
    exact atomic_refused _
  | ok result =>
    obtain ⟨remark, carriedOut⟩ := set_of_setText set
    rw [carriedOut]
    intro refusal refused
    cases refused

private theorem atomic_change (result : Except ModelFault Agent) : Atomic r (r.change result) := by
  cases result with
  | error fault => exact atomic_refused _
  | ok agent => exact atomic_accepted _

private theorem atomic_order (peer name : String) (order : Order) :
    Atomic r (r.executeOrder s peer name order) := by
  cases order with
  | freeze => exact atomic_freeze true
  | unfreeze => exact atomic_freeze false
  | muteAll => exact atomic_mute true
  | unmuteAll => exact atomic_mute false
  | saveDefinition => exact atomic_save .definition
  | saveMapping => exact atomic_save .mapping
  | requestOutputs => exact atomic_remarked _ _
  | stop | clearMapping | getCurrentInputs | getCurrentParameters => exact atomic_accepted _

private theorem atomic_notice (peer : String) (notice : Command) :
    Atomic r (r.executeNotice peer notice) := by
  unfold Reactor.executeNotice
  split
  · exact atomic_accepted _
  · exact atomic_refused .unknownPeer

private theorem atomic_outputs (peer name : String) (values : List DataMessage) :
    Atomic r (r.executeOutputs peer name values) := by
  unfold Reactor.executeOutputs
  split
  · exact atomic_refused .noSubscriber
  · exact atomic_accepted _

/-- A subscriber has been made of a peer, and nothing more. -/
def Subscribes (r : Reactor) (peer : String) (reaction : Reaction) : Prop :=
  r.subscribers.get? peer = none ∧
  ∃ known endpoint entry, r.publisherOf? peer = some (known, endpoint) ∧ reaction =
    ⟨{ r with subscribers := r.subscribers.insert peer (Subscriber.new peer known.name) },
      [.log entry, .connect peer endpoint]⟩

/-- A document is refused because the peer cannot have a subscriber or because its own cannot take
it in. -/
private theorem external_refused {apply : Subscriber → Except ModelFault Subscriber}
    (refused : (r.executeExternal s peer apply).outcome = .error refusal) :
    (r.executeExternal s peer apply).reaction = r.idle ∨
      (∃ subscriber fault, apply subscriber = .error fault) ∧
        Subscribes r peer (r.executeExternal s peer apply).reaction := by
  rcases ensureSubscriber_cases peer r with
    ⟨-, same⟩ | ⟨known, endpoint, entry, absent, published, same⟩
  · unfold Reactor.executeExternal at refused ⊢
    rw [same] at refused ⊢
    cases found : r.subscribers.get? peer with
    | none =>
      simp only [Reactor.idle, Reactor.tell, found]
      exact .inl rfl
    | some subscriber =>
      simp only [Reactor.idle, Reactor.tell, found] at refused ⊢
      cases applied : apply subscriber with
      | error fault => exact .inl rfl
      | ok next =>
        rw [applied] at refused
        cases refused
  · unfold Reactor.executeExternal at refused ⊢
    rw [same] at refused ⊢
    simp only [Table.get?_insert, if_true] at refused ⊢
    cases applied : apply (Subscriber.new peer known.name) with
    | ok next =>
      rw [applied] at refused
      cases refused
    | error fault =>
      refine .inr ⟨⟨_, fault, applied⟩, ?_, known, endpoint, entry, published, rfl⟩
      simpa [Table.contains] using absent

private theorem unreadable_definition {text : String} {subscriber : Subscriber} {fault : ModelFault}
    (refused : subscriber.applyDefinition text = .error fault) :
    Command.Unreadable (.enclosure .externalDefinition text) := by
  unfold Subscriber.applyDefinition at refused
  cases read : Definition.ofText text with
  | error fault => exact .definition read
  | ok d =>
    rw [read] at refused
    cases refused

private theorem unreadable_mapping {text : String} {subscriber : Subscriber} {fault : ModelFault}
    (refused : subscriber.applyMapping text = .error fault) :
    Command.Unreadable (.enclosure .externalMapping text) := by
  unfold Subscriber.applyMapping at refused
  cases read : Mapping.ofText text with
  | error fault => exact .mapping read
  | ok m =>
    rw [read] at refused
    cases refused

/-- Whatever command is refused, nothing was done for it but to subscribe to the sender of a document
that cannot be read. -/
theorem execute_refused {name : String} {command : Command}
    (refused : (r.execute s peer name command).outcome = .error refusal) :
    (r.execute s peer name command).reaction = r.idle ∨
      command.Unreadable ∧ Subscribes r peer (r.execute s peer name command).reaction := by
  cases command with
  | order order => exact .inl (atomic_order peer name order refusal refused)
  | topic topic text =>
    apply Or.inl
    cases topic with
    | mute => exact atomic_muteOutput text true refusal refused
    | unmute => exact atomic_muteOutput text false refusal refused
    | setLogPath | setDefinitionPath | setMappingPath => cases refused
    | outputMuted | outputUnmuted | logFilePath | definitionFilePath | mappingFilePath =>
      exact atomic_notice peer _ refusal refused
  | flag | state => exact .inl (atomic_notice peer _ refusal refused)
  | enclosure enclosure text =>
    cases enclosure with
    | externalDefinition =>
      apply (external_refused refused).imp_right
      rintro ⟨⟨subscriber, fault, untaken⟩, subscribes⟩
      exact ⟨unreadable_definition untaken, subscribes⟩
    | externalMapping =>
      apply (external_refused refused).imp_right
      rintro ⟨⟨subscriber, fault, untaken⟩, subscribes⟩
      exact ⟨unreadable_mapping untaken, subscribes⟩
    | loadDefinition => exact .inl (atomic_change _ refusal refused)
    | loadMapping => exact .inl (atomic_change _ refusal refused)
  | listing listing values =>
    cases listing with
    | outputs => exact .inl (atomic_outputs peer name values refusal refused)
    | currentInputs | currentParameters => cases refused
  | set kind slot text => exact .inl (atomic_set kind slot text refusal refused)
  | map input agent output => exact .inl (atomic_change _ refusal refused)
  | unmap input agent output => exact .inl (atomic_change _ refusal refused)
  | bus frames => cases refused

variable {frames : List Bytes} {log : Effect}

/-- A refusal is logged after what the execution has done. -/
private theorem react_of_refusal (refused : r.refusal? s peer frames = some log) (name : String) :
    (∃ entry, log = .log entry) ∧
    (r.react s (.presence (.whisper peer name frames)) = r.tell [log] ∨
      ∃ command refusal, Command.ofFrames frames = .ok command ∧
        (r.execute s peer (r.peerName peer) command).outcome = .error refusal ∧
        r.react s (.presence (.whisper peer name frames)) =
          (r.execute s peer (r.peerName peer) command).reaction.andThen (·.tell [log])) := by
  have whispered : r.react s (.presence (.whisper peer name frames)) =
      r.handleWhisper s peer frames := rfl
  rw [whispered]
  unfold Reactor.refusal? at refused
  unfold Reactor.handleWhisper
  cases read : Command.ofFrames frames with
  | error fault =>
    rw [read] at refused
    cases refused
    exact ⟨⟨_, rfl⟩, .inl rfl⟩
  | ok command =>
    rw [read] at refused
    dsimp only at refused
    split at refused
    next refusal outcome =>
      cases refused
      refine ⟨⟨_, rfl⟩, .inr ⟨command, refusal, rfl, outcome, ?_⟩⟩
      dsimp only [Reactor.handleCommand]
      rw [outcome]
    next => cases refused

/-- A whisper that is refused is logged, and the reactor stays as it was. Only if the whisper is a
document that cannot be read, and its sender is known to publish and has no subscriber, there is a
new subscriber with nothing in it. -/
theorem refused_whispers_leave_no_trace (refused : r.refusal? s peer frames = some log)
    (name : String) :
    let reaction := r.react s (.presence (.whisper peer name frames))
    (∃ entry, log = .log entry) ∧
    (reaction = r.tell [log] ∨
      (∃ command, Command.ofFrames frames = .ok command ∧ command.Unreadable) ∧
      r.subscribers.get? peer = none ∧
      ∃ known endpoint created subscriber, r.publisherOf? peer = some (known, endpoint) ∧
        subscriber = Subscriber.new peer known.name ∧
        subscriber.filters = Table.empty ∧ subscriber.definition = none ∧
        subscriber.mapping = none ∧ subscriber.outputsRequestAt = none ∧
        reaction = ⟨{ r with subscribers := r.subscribers.insert peer subscriber },
          [.log created, .connect peer endpoint, log]⟩) := by
  intro reaction
  obtain ⟨logged, unread | ⟨command, refusal, read, outcome, reacts⟩⟩ := react_of_refusal refused name
  · exact ⟨logged, .inl unread⟩
  refine ⟨logged, ?_⟩
  rcases execute_refused outcome with
    untouched | ⟨unreadable, absent, known, endpoint, entry, published, subscribed⟩
  · apply Or.inl
    rw [untouched] at reacts
    exact reacts
  · apply Or.inr
    rw [subscribed] at reacts
    exact ⟨⟨command, read, unreadable⟩, absent, known, endpoint, entry, _, published,
      rfl, rfl, rfl, rfl, rfl, reacts⟩

private def basin : Reactor where
  agent := Agent.new "basin"
  settings := Config.empty.reactorSettings "tmp"
  hostAddress := "127.0.0.1"
  directory := (Directory.empty.enter "p" "pump" "127.0.0.1"
    (Table.empty.insert Header.publisher.key "5000")).1
  subscribers := Table.empty
  stopReason := none

private def scrawl : List Bytes := (Command.enclosure .externalDefinition "?").toFrames

/-- The pump's definition is none, and the basin subscribes to the pump before it finds that out. -/
theorem basin_subscribes_to_pump : ∃ known endpoint created subscriber log,
    basin.publisherOf? "p" = some (known, endpoint) ∧ subscriber.filters = Table.empty ∧
      basin.react .calm (.presence (.whisper "p" "pump" scrawl)) =
        ⟨{ basin with subscribers := basin.subscribers.insert "p" subscriber },
          [.log created, .connect "p" endpoint, log]⟩ := by
  have refused : (basin.refusal? .calm "p" scrawl).isSome = true := by decide +kernel
  have effects : (basin.react .calm (.presence (.whisper "p" "pump" scrawl))).effects.length = 3 := by
    decide +kernel
  obtain ⟨log, refused⟩ := Option.isSome_iff_exists.mp refused
  obtain ⟨-, idle |
      ⟨-, -, known, endpoint, created, subscriber, published, -, filters, -, -, -, reacts⟩⟩ :=
    refused_whispers_leave_no_trace refused "pump"
  · rw [idle] at effects
    cases effects
  · exact ⟨known, endpoint, created, subscriber, log, published, filters, reacts⟩

end Proofs.Refusals
end PeerMesh
