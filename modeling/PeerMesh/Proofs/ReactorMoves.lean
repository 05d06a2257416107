import PeerMesh.Proofs.AgentChanges
import PeerMesh.Proofs.CommandCodec
import PeerMesh.Reactor.Lifecycle

/-! What a reactor does on the way of a step. Every step is a chain of a few kinds of moves, and a
property that each move keeps is kept by every step. Documents are whispered by three of them only:
the welcome of a peer and the two announcements. -/

namespace PeerMesh

def Effect.document? : Effect → Option (String × Enclosure × String)
  | .request (.whisper peer frames) =>
    match Command.ofFrames frames with
    | .ok (.enclosure enclosure text) => some (peer, enclosure, text)
    | _ => none
  | _ => none

namespace Proofs.ReactorMoves
open AgentChanges Outcomes

/-- One move of a reactor in a step with some cause, and what comes of it. -/
inductive Move (s : Surroundings) (cause : Stimulus) (r : Reactor) : Reaction → Prop where
  | tell {effects : List Effect} (silent : ∀ e ∈ effects, e.document? = none) :
      Move s cause r (r.tell effects)
  | change {agent : Agent} (changes : Changes r.agent agent) : Move s cause r (r.setAgent agent).idle
  | stop (reason : StopReason) : Move s cause r (r.requestStop reason).idle
  | enter (peer name address : String) (headers : Table String) :
      Move s cause r { r with directory := (r.directory.enter peer name address headers).1 }.idle
  | exit (peer : String) : Move s cause r { r with directory := (r.directory.exit peer).1 }.idle
  /-- A peer joins or leaves a group, and does not come into the private channel by it. -/
  | group (peer group : String) (joined : Bool)
      (outside : joined = false ∨ (r.directory.group peer group joined).2 = false) :
      Move s cause r { r with directory := (r.directory.group peer group joined).1 }.idle
  /-- A peer comes into the private channel and is brought up to date. -/
  | arrive (peer : String) (flipped : (r.directory.group peer privateChannel true).2 = true) :
      Move s cause r
        ({ r with directory := (r.directory.group peer privateChannel true).1 }.tell
          (r.agent.catchUp.flatMap (r.whisper s peer)))
  | note (peer : String) (notice : Command) :
      Move s cause r { r with directory := r.directory.modify peer (·.note notice) }.idle
  | ensure (peer : String) : Move s cause r (r.ensureSubscriber peer)
  | drop (peer : String) : Move s cause r (r.dropSubscriber peer)
  | poll (peer : String) : Move s cause r (r.requestOutputs s peer)
  /-- A subscriber takes in a document of its peer. -/
  | takeIn {peer text : String} {subscriber next : Subscriber}
      (found : r.subscribers.get? peer = some subscriber)
      (taken : subscriber.applyDefinition text = .ok next ∨ subscriber.applyMapping text = .ok next) :
      Move s cause r ({ r with subscribers := r.subscribers.insert peer next }.resolve s peer)
  | announceDefinition (due : cause = .definitionTimer) : Move s cause r (r.announceDefinition s)
  | announceMapping (due : cause = .mappingTimer) : Move s cause r (r.announceMapping s)

inductive Moves (s : Surroundings) (cause : Stimulus) (r : Reactor) : Reaction → Prop where
  | idle : Moves s cause r r.idle
  | tail {reaction next : Reaction} (earlier : Moves s cause r reaction)
      (move : Move s cause reaction.reactor next) :
      Moves s cause r ⟨next.reactor, reaction.effects ++ next.effects⟩

variable {s : Surroundings} {cause : Stimulus} {r : Reactor} {reaction : Reaction}

theorem Moves.single (move : Move s cause r reaction) : Moves s cause r reaction := .tail .idle move

theorem Moves.append {more : Reaction} (first : Moves s cause r reaction)
    (last : Moves s cause reaction.reactor more) :
    Moves s cause r ⟨more.reactor, reaction.effects ++ more.effects⟩ := by
  induction last with
  | idle => simpa [Reactor.idle, Reactor.tell] using first
  | tail _ move ih => simpa using ih.tail move

/-- What one step after another keeps is kept by the whole of a loop. -/
theorem forEach_keep {α : Type} {step : α → Reactor → Reaction} {items : List α}
    (property : Reaction → Prop) (start : property r.idle)
    (each : ∀ item ∈ items, ∀ reaction, property reaction → property (reaction.andThen (step item))) :
    property (r.forEach items step) :=
  List.foldlRecOn items _ start fun reaction holds item member => each item member reaction holds

theorem forEach_same {α β : Type} {step : α → Reactor → Reaction} {items : List α} (view : Reactor → β)
    (each : ∀ item ∈ items, ∀ r, view (step item r).reactor = view r) :
    view (r.forEach items step).reactor = view r :=
  forEach_keep (fun reaction => view reaction.reactor = view r) rfl fun item member reaction sofar =>
    (each item member reaction.reactor).trans sofar

theorem forEach_effects {α : Type} {step : α → Reactor → Reaction} {items : List α}
    (property : Effect → Prop) (each : ∀ item r, ∀ e ∈ (step item r).effects, property e) :
    ∀ e ∈ (r.forEach items step).effects, property e :=
  forEach_keep (fun reaction => ∀ e ∈ reaction.effects, property e) (fun _ member => nomatch member)
    fun item _ reaction sofar => List.forall_mem_append.mpr ⟨sofar, each item reaction.reactor⟩

/-- The last round of a loop comes after the others. -/
theorem forEach_concat {α : Type} (step : α → Reactor → Reaction) (items : List α) (item : α)
    (r : Reactor) :
    r.forEach (items ++ [item]) step = (r.forEach items step).andThen (step item) := by
  rw [Reactor.forEach, List.foldl_append]
  rfl

theorem Moves.forEach {α : Type} {step : α → Reactor → Reaction}
    (each : ∀ item r, Moves s cause r (step item r)) (items : List α) (r : Reactor) :
    Moves s cause r (r.forEach items step) :=
  forEach_keep (Moves s cause r) .idle fun item _ reaction sofar =>
    sofar.append (each item reaction.reactor)

/-- What every move keeps is kept by every chain of moves. -/
theorem Moves.keep {property : Reactor → Prop}
    (step : ∀ {r reaction}, Move s cause r reaction → property r → property reaction.reactor)
    (moves : Moves s cause r reaction) (holds : property r) : property reaction.reactor := by
  induction moves with
  | idle => exact holds
  | @tail _ next _ move ih => exact @step _ next move ih

/-- A subscriber is made of a peer with a publisher, when there is none. -/
theorem ensureSubscriber_cases (peer : String) (r : Reactor) :
    ((r.subscribers.contains peer = true ∨ r.publisherOf? peer = none) ∧
      r.ensureSubscriber peer = r.idle) ∨
    ∃ known endpoint entry, r.subscribers.contains peer = false ∧
      r.publisherOf? peer = some (known, endpoint) ∧ r.ensureSubscriber peer =
        ⟨{ r with subscribers := r.subscribers.insert peer (Subscriber.new peer known.name) },
          [.log entry, .connect peer endpoint]⟩ := by
  unfold Reactor.ensureSubscriber
  split
  next present => exact .inl ⟨.inl present, rfl⟩
  next absent =>
    split
    next unpublished => exact .inl ⟨.inr unpublished, rfl⟩
    next known endpoint published =>
      exact .inr ⟨known, endpoint, _, eq_false_of_ne_true absent, published, rfl⟩

theorem dropSubscriber_cases (peer : String) (r : Reactor) :
    r.dropSubscriber peer = r.idle ∨
    ∃ changes : List FilterChange, r.dropSubscriber peer =
      ⟨{ r with subscribers := r.subscribers.erase peer },
        changes.map (.filter peer) ++ [.disconnect peer]⟩ := by
  unfold Reactor.dropSubscriber
  split
  · exact .inl rfl
  · exact .inr ⟨_, rfl⟩

/-- Only the time of the request is taken from a subscriber that asks for the outputs. -/
theorem requestOutputs_cases (s : Surroundings) (peer : String) (r : Reactor) :
    r.requestOutputs s peer = r.idle ∨
    ∃ before after effects, r.subscribers.get? peer = some before ∧
      (after = before ∧ effects = [] ∨
        after = { before with outputsRequestAt := none } ∧
          effects = r.whisper s peer (.order .requestOutputs)) ∧
      r.requestOutputs s peer =
        ⟨{ r with subscribers := r.subscribers.insert peer after }, effects⟩ := by
  unfold Reactor.requestOutputs
  split
  · exact .inl rfl
  next before found =>
    have taken : before.takeDueRequest s.now = ({ before with outputsRequestAt := none }, true) ∨
        before.takeDueRequest s.now = (before, false) := ite_eq_or_eq _ _ _
    rcases taken with due | early
    · rw [due]
      exact .inr ⟨before, _, _, found, .inr ⟨rfl, rfl⟩, rfl⟩
    · rw [early]
      exact .inr ⟨before, _, _, found, .inl ⟨rfl, rfl⟩, rfl⟩

/-- A reaction that touches nothing but the subscribers. -/
def Rewires (r : Reactor) (reaction : Reaction) : Prop :=
  ∃ subscribers, reaction.reactor = { r with subscribers := subscribers }

theorem Rewires.directory (rewired : Rewires r reaction) :
    reaction.reactor.directory = r.directory := by
  obtain ⟨subscribers, same⟩ := rewired
  rw [same]

theorem Rewires.append {more : Reaction} (first : Rewires r reaction)
    (last : Rewires reaction.reactor more) :
    Rewires r ⟨more.reactor, reaction.effects ++ more.effects⟩ := by
  obtain ⟨middle, same⟩ := first
  obtain ⟨subscribers, equal⟩ := last
  exact ⟨subscribers, by rw [equal, same]⟩

theorem Rewires.forEach {α : Type} {step : α → Reactor → Reaction}
    (each : ∀ item r, Rewires r (step item r)) (items : List α) (r : Reactor) :
    Rewires r (r.forEach items step) :=
  forEach_keep (Rewires r) ⟨r.subscribers, rfl⟩ fun item _ reaction sofar =>
    sofar.append (each item reaction.reactor)

theorem rewires_ensureSubscriber (peer : String) (r : Reactor) :
    Rewires r (r.ensureSubscriber peer) := by
  rcases ensureSubscriber_cases peer r with ⟨-, same⟩ | ⟨known, endpoint, entry, -, -, same⟩
  · exact ⟨r.subscribers, by rw [same]; rfl⟩
  · exact ⟨_, congrArg Reaction.reactor same⟩

theorem rewires_dropSubscriber (peer : String) (r : Reactor) :
    Rewires r (r.dropSubscriber peer) := by
  rcases dropSubscriber_cases peer r with same | ⟨changes, same⟩
  · exact ⟨r.subscribers, by rw [same]; rfl⟩
  · exact ⟨_, congrArg Reaction.reactor same⟩

theorem rewires_requestOutputs (peer : String) (r : Reactor) :
    Rewires r (r.requestOutputs s peer) := by
  rcases requestOutputs_cases s peer r with same | ⟨before, after, effects, -, -, same⟩
  · exact ⟨r.subscribers, by rw [same]; rfl⟩
  · exact ⟨_, congrArg Reaction.reactor same⟩

theorem rewires_resolve (peer : String) (r : Reactor) : Rewires r (r.resolve s peer) := by
  unfold Reactor.resolve
  split <;> exact ⟨_, rfl⟩

def resolveAll (s : Surroundings) (replaced : Bool) (r : Reactor) : Reaction :=
  r.forEach r.subscribers.keys fun peer r => (if replaced then r.markReset peer else r).resolve s peer

theorem rewires_resolveOne (replaced : Bool) (peer : String) (r : Reactor) :
    Rewires r ((if replaced then r.markReset peer else r).resolve s peer) := by
  cases replaced with
  | false => exact rewires_resolve peer r
  | true => exact rewires_resolve peer (r.markReset peer)

theorem rewires_resolveAll (replaced : Bool) (r : Reactor) : Rewires r (resolveAll s replaced r) :=
  .forEach (rewires_resolveOne replaced) _ r

theorem announceMapping_of_dirty (dirty : r.agent.mappingDirty = true) :
    r.announceMapping s =
      ((r.setAgent r.agent.clearMappingDirty).tell
        ((r.setAgent r.agent.clearMappingDirty).whisperJoined s
          (.enclosure .externalMapping r.agent.mapping.toText))).andThen
        (resolveAll s r.agent.mappingReplaced) :=
  if_pos dirty

theorem reactor_announceMapping (dirty : r.agent.mappingDirty = true) :
    (r.announceMapping s).reactor =
      (resolveAll s r.agent.mappingReplaced (r.setAgent r.agent.clearMappingDirty)).reactor := by
  rw [announceMapping_of_dirty dirty]
  rfl

theorem announceDefinition_of_dirty (dirty : r.agent.definitionDirty = true) :
    r.announceDefinition s =
      (r.setAgent { r.agent.clearDefinitionDirty with mappingDirty := true }).tell
        ((r.setAgent { r.agent.clearDefinitionDirty with mappingDirty := true }).whisperJoined s
          (.enclosure .externalDefinition r.agent.definition.toText)) :=
  if_pos dirty

section Effects
variable {property : Effect → Prop}

/-- Whatever is sent, a request goes out, and a refusal of it is logged. -/
theorem forall_send {request : Presence.Request} {action target : String} {command : Command}
    (asked : property (.request request)) (logged : ∀ entry, property (.log entry)) :
    ∀ e ∈ r.send s request action target command, property e := by
  intro e member
  rw [Reactor.send] at member
  rcases List.mem_cons.mp member with rfl | later
  · exact asked
  · split at later
    · cases later
    · cases List.mem_singleton.mp later
      exact logged _

theorem forall_busRequest {request : Presence.Request} {action group : String}
    (asked : property (.request request)) (logged : ∀ entry, property (.log entry)) :
    ∀ e ∈ (r.busRequest s request action group).effects, property e := by
  intro e member
  rcases List.mem_cons.mp member with rfl | later
  · exact asked
  · split at later
    · cases later
    · cases List.mem_singleton.mp later
      exact logged _

theorem forall_deliver {peerName : String} {m : DataMessage} (r : Reactor)
    (updated : ∀ input value, property (.notify (.updated .input input value)))
    (logged : ∀ entry, property (.log entry)) :
    ∀ e ∈ (r.deliver peerName m).effects, property e := by
  intro e member
  rcases List.mem_append.mp member with fault | update
  · obtain ⟨_, -, rfl⟩ := List.mem_map.mp fault
    exact logged _
  · obtain ⟨_, -, rfl⟩ := List.mem_map.mp update
    exact updated _ _

theorem forall_published {peer : String} {m : DataMessage} (r : Reactor)
    (updated : ∀ input value, property (.notify (.updated .input input value)))
    (logged : ∀ entry, property (.log entry)) :
    ∀ e ∈ (r.handlePublished peer m).effects, property e := by
  intro e member
  rw [Reactor.handlePublished] at member
  split at member
  · cases member
  · exact forall_deliver r updated logged e member

theorem forall_ensureSubscriber {peer : String} (r : Reactor)
    (connected : ∀ endpoint, property (.connect peer endpoint))
    (logged : ∀ entry, property (.log entry)) :
    ∀ e ∈ (r.ensureSubscriber peer).effects, property e := by
  intro e member
  rcases ensureSubscriber_cases peer r with ⟨-, same⟩ | ⟨known, endpoint, entry, -, -, same⟩
  · rw [same] at member
    cases member
  · rw [same] at member
    rcases List.mem_cons.mp member with rfl | later
    · exact logged entry
    · cases List.mem_singleton.mp later
      exact connected endpoint

theorem forall_dropSubscriber {peer : String} (r : Reactor)
    (filtered : ∀ change, property (.filter peer change)) (disconnected : property (.disconnect peer)) :
    ∀ e ∈ (r.dropSubscriber peer).effects, property e := by
  intro e member
  rcases dropSubscriber_cases peer r with same | ⟨changes, same⟩
  · rw [same] at member
    cases member
  · rw [same] at member
    rcases List.mem_append.mp member with earlier | last
    · obtain ⟨change, -, rfl⟩ := List.mem_map.mp earlier
      exact filtered change
    · cases List.mem_singleton.mp last
      exact disconnected

theorem forall_resolve {peer : String} (r : Reactor)
    (filtered : ∀ change, property (.filter peer change)) (logged : ∀ entry, property (.log entry)) :
    ∀ e ∈ (r.resolve s peer).effects, property e := by
  intro e member
  rw [Reactor.resolve] at member
  split at member
  · cases member
  · rcases List.mem_append.mp member with earlier | removed
    · rcases List.mem_append.mp earlier with changed | added
      · obtain ⟨change, -, rfl⟩ := List.mem_map.mp changed
        exact filtered change
      · obtain ⟨output, -, rfl⟩ := List.mem_map.mp added
        exact logged _
    · obtain ⟨output, -, rfl⟩ := List.mem_map.mp removed
      exact logged _

end Effects

theorem document?_whisper (peer : String) (command : Command) :
    (Effect.request (.whisper peer command.toFrames)).document? =
      match command with
      | .enclosure enclosure text => some (peer, enclosure, text)
      | _ => none := by
  simp only [Effect.document?]
  split
  next enclosure text read =>
    rw [CommandCodec.eq_enclosure_of_ofFrames read]
  next other =>
    cases command with
    | enclosure enclosure text =>
      exact absurd (CommandCodec.ofFrames_enclosure enclosure text) (other enclosure text)
    | _ => rfl

/-- Whatever the answer to a request, only the request itself can bring a document. -/
theorem mem_send {request : Presence.Request} {action target : String} {command : Command}
    {e : Effect} (member : e ∈ r.send s request action target command) :
    e = .request request ∨ e.document? = none := by
  apply forall_send _ _ e member
  · exact .inl rfl
  · intro entry
    exact .inr rfl

theorem silent_whisper {peer : String} {command : Command}
    (plain : ∀ enclosure text, command ≠ .enclosure enclosure text) :
    ∀ e ∈ r.whisper s peer command, e.document? = none := by
  intro e member
  rcases mem_send member with rfl | silent
  · rw [document?_whisper]
    cases command with
    | enclosure enclosure text => exact absurd rfl (plain enclosure text)
    | _ => rfl
  · exact silent

theorem silent_shoutNotice (command : Command) :
    ∀ e ∈ r.shoutNotice s command, e.document? = none := by
  intro e member
  rcases mem_send member with rfl | silent
  · rfl
  · exact silent

theorem silent_cons {first : Effect} {effects : List Effect} (one : first.document? = none)
    (others : ∀ e ∈ effects, e.document? = none) : ∀ e ∈ first :: effects, e.document? = none :=
  List.forall_mem_cons.mpr ⟨one, others⟩

theorem silent_append {one two : List Effect} (left : ∀ e ∈ one, e.document? = none)
    (right : ∀ e ∈ two, e.document? = none) : ∀ e ∈ one ++ two, e.document? = none :=
  List.forall_mem_append.mpr ⟨left, right⟩

theorem silent_map {α : Type} {items : List α} {make : α → Effect}
    (each : ∀ item, (make item).document? = none) : ∀ e ∈ items.map make, e.document? = none := by
  intro e member
  obtain ⟨item, -, rfl⟩ := List.mem_map.mp member
  exact each item

theorem silent_nil : ∀ e ∈ ([] : List Effect), e.document? = none := fun _ member => by cases member

theorem silent_ensureSubscriber (peer : String) (r : Reactor) :
    ∀ e ∈ (r.ensureSubscriber peer).effects, e.document? = none :=
  forall_ensureSubscriber r (fun _ => rfl) fun _ => rfl

theorem silent_dropSubscriber (peer : String) (r : Reactor) :
    ∀ e ∈ (r.dropSubscriber peer).effects, e.document? = none :=
  forall_dropSubscriber r (fun _ => rfl) rfl

theorem silent_requestOutputs (peer : String) (r : Reactor) :
    ∀ e ∈ (r.requestOutputs s peer).effects, e.document? = none := by
  rcases requestOutputs_cases s peer r with
    same | ⟨before, after, effects, -, ⟨-, rfl⟩ | ⟨-, rfl⟩, same⟩
  · rw [same]
    exact silent_nil
  · rw [same]
    exact silent_nil
  · rw [same]
    exact silent_whisper fun _ _ other => by cases other

theorem silent_resolve (peer : String) (r : Reactor) :
    ∀ e ∈ (r.resolve s peer).effects, e.document? = none :=
  forall_resolve r (fun _ => rfl) fun _ => rfl

theorem silent_resolveAll (replaced : Bool) (r : Reactor) :
    ∀ e ∈ (resolveAll s replaced r).effects, e.document? = none :=
  forEach_effects (·.document? = none) fun peer _ => silent_resolve peer _

private theorem moves_tell {effects : List Effect} (silent : ∀ e ∈ effects, e.document? = none) :
    Moves s cause r (r.tell effects) := .single (.tell silent)

/-- The agent changes, and something is told of it. -/
private theorem moves_change {agent : Agent} {effects : List Effect}
    (changes : Changes r.agent agent) (silent : ∀ e ∈ effects, e.document? = none) :
    Moves s cause r ((r.setAgent agent).tell effects) :=
  (Moves.single (.change changes)).tail (.tell silent)

theorem moves_deliver (peerName : String) (m : DataMessage) (r : Reactor) :
    Moves s cause r (r.deliver peerName m) :=
  moves_change (changes_deliver r.agent peerName m)
    (silent_append (silent_map fun _ => rfl) (silent_map fun _ => rfl))

private theorem moves_freeze (frozen : Bool) : Moves s cause r (r.freeze s frozen).reaction := by
  unfold Reactor.freeze
  split
  · exact .idle
  split
  · exact .idle
  · exact moves_change (.single (.manner _ frozen _ _ _ _ _))
      (silent_cons rfl (silent_shoutNotice _))

private theorem moves_mute (muted : Bool) : Moves s cause r (r.mute s muted).reaction := by
  unfold Reactor.mute
  split
  · exact .idle
  · exact moves_change (.single (.manner muted _ _ _ _ _ _)) (silent_cons rfl (silent_shoutNotice _))

private theorem moves_muteOutput (output : String) (muted : Bool) :
    Moves s cause r (r.muteOutput s output muted).reaction := by
  unfold Reactor.muteOutput
  split
  · exact .idle
  next set => exact moves_change (.single (.muteOutput set)) (silent_cons rfl (silent_shoutNotice _))

private theorem moves_save (document : Document) : Moves s cause r (r.save s document).reaction := by
  unfold Reactor.save
  split
  · exact .idle
  split
  · exact .idle
  · exact moves_tell (silent_cons rfl silent_nil)

private theorem moves_set (kind : SlotKind) (name text : String) :
    Moves s cause r (r.set kind name text).reaction := by
  unfold Reactor.set
  split
  · exact .idle
  next agent stored set =>
    have changes := changes_of_setText set
    dsimp only
    split
    · split
      · exact moves_change changes silent_nil
      · exact moves_change changes (silent_cons rfl (silent_cons rfl silent_nil))
      · exact moves_change changes (silent_cons rfl silent_nil)
    · exact moves_change changes (silent_cons rfl silent_nil)

private theorem moves_ofChange {result : Except ModelFault Agent}
    (changes : ∀ {agent}, result = .ok agent → Changes r.agent agent) :
    Moves s cause r (r.change result).reaction := by
  cases result with
  | error fault => exact .idle
  | ok agent => exact moves_change (changes rfl) silent_nil

private theorem moves_order (peer name : String) (order : Order) :
    Moves s cause r (r.executeOrder s peer name order).reaction := by
  cases order with
  | stop => exact .single (.stop (.forced name))
  | clearMapping => exact moves_change (.single .clearMapping) silent_nil
  | freeze => exact moves_freeze true
  | unfreeze => exact moves_freeze false
  | muteAll => exact moves_mute true
  | unmuteAll => exact moves_mute false
  | requestOutputs | getCurrentInputs | getCurrentParameters =>
    exact moves_tell (silent_whisper fun _ _ other => by cases other)
  | saveDefinition => exact moves_save .definition
  | saveMapping => exact moves_save .mapping

private theorem moves_notice (peer : String) (notice : Command) :
    Moves s cause r (r.executeNotice peer notice).reaction := by
  unfold Reactor.executeNotice
  split
  · exact .single (.note peer notice)
  · exact .idle

private theorem moves_external (peer text : String)
    {apply : Subscriber → Except ModelFault Subscriber}
    (taken : ∀ {subscriber next}, apply subscriber = .ok next →
      subscriber.applyDefinition text = .ok next ∨ subscriber.applyMapping text = .ok next) :
    Moves s cause r (r.executeExternal s peer apply).reaction := by
  unfold Reactor.executeExternal
  have ensured : Moves s cause r (r.ensureSubscriber peer) := .single (.ensure peer)
  dsimp only
  split
  · exact .idle
  next subscriber found =>
    split
    · exact ensured
    next next applied => exact ensured.append (.single (.takeIn found (taken applied)))

private theorem moves_outputs (peer name : String) (values : List DataMessage) :
    Moves s cause r (r.executeOutputs peer name values).reaction := by
  unfold Reactor.executeOutputs
  split
  · exact .idle
  · exact .forEach (fun m r => moves_deliver name m r) _ r

/-- Whatever command is carried out, it is a chain of moves. -/
theorem moves_execute (peer name : String) (command : Command) :
    Moves s cause r (r.execute s peer name command).reaction := by
  cases command with
  | order order => exact moves_order peer name order
  | topic topic text =>
    cases topic with
    | mute => exact moves_muteOutput text true
    | unmute => exact moves_muteOutput text false
    | setLogPath => exact moves_change (changes_setPath _ text .logFilePath) (silent_shoutNotice _)
    | setDefinitionPath =>
      exact moves_change (changes_setPath _ text .definitionFilePath) (silent_shoutNotice _)
    | setMappingPath =>
      exact moves_change (changes_setPath _ text .mappingFilePath) (silent_shoutNotice _)
    | outputMuted | outputUnmuted | logFilePath | definitionFilePath | mappingFilePath =>
      exact moves_notice peer _
  | flag | state => exact moves_notice peer _
  | enclosure enclosure text =>
    cases enclosure with
    | externalDefinition => exact moves_external peer text .inl
    | externalMapping => exact moves_external peer text .inr
    | loadDefinition => exact moves_ofChange fun done => .single (.loadDefinition done)
    | loadMapping => exact moves_ofChange fun done => .single (.loadMapping done)
  | listing listing values =>
    cases listing with
    | outputs => exact moves_outputs peer name values
    | currentInputs | currentParameters => exact .idle
  | set kind slot text => exact moves_set kind slot text
  | map input agent output =>
    refine moves_ofChange fun done => ?_
    obtain ⟨⟨_, _⟩, added, rfl⟩ := map_eq_ok.mp done
    exact .single (.addElement added)
  | unmap input agent output => exact moves_ofChange fun done => .single (.removeElement done)
  | bus frames => exact moves_tell (silent_cons rfl silent_nil)

/-- A command is logged after it was carried out or refused. -/
theorem handleCommand_eq (s : Surroundings) (peer : String) (command : Command) (r : Reactor) :
    ∃ log, r.handleCommand s peer command =
      (r.execute s peer (r.peerName peer) command).reaction.andThen (·.tell [.log log]) := by
  unfold Reactor.handleCommand
  dsimp only
  split
  · exact ⟨_, rfl⟩
  · exact ⟨_, rfl⟩

theorem moves_handleCommand (peer : String) (command : Command) (r : Reactor) :
    Moves s cause r (r.handleCommand s peer command) := by
  obtain ⟨log, handled⟩ := handleCommand_eq s peer command r
  rw [handled]
  exact (moves_execute peer _ command).append (moves_tell (silent_cons rfl silent_nil))

private theorem moves_enter (peer name address : String) (headers : Table String) :
    Moves s cause r (r.handleEnter peer name address headers) := by
  have entered : Moves s cause r _ := .single (.enter peer name address headers)
  unfold Reactor.handleEnter
  dsimp only
  split
  · exact entered.tail (.tell (silent_cons rfl (silent_cons rfl silent_nil)))
  · exact entered.tail (.tell (silent_cons rfl silent_nil))

private theorem moves_exit (peer name : String) : Moves s cause r (r.handleExit peer name) := by
  have left : Moves s cause r _ := .single (.exit peer)
  unfold Reactor.handleExit
  dsimp only
  split
  · exact left
  · exact left.tail (.tell (silent_cons rfl silent_nil))
  · exact (left.tail (.drop peer)).tail (.tell (silent_cons rfl (silent_cons rfl silent_nil)))

private theorem moves_join (peer name group : String) :
    Moves s cause r (r.handleJoin s peer name group) := by
  unfold Reactor.handleJoin
  dsimp only
  split
  next channel =>
    subst channel
    split
    next flipped =>
      exact (Moves.single (.arrive peer flipped)).append (.single (.ensure peer))
    next settled =>
      exact .single (.group peer privateChannel true (.inr (by simpa using settled)))
  next other =>
    refine (Moves.single (.group peer group true (.inr ?_))).tail
      (.tell (silent_cons rfl silent_nil))
    unfold Directory.group
    split
    · rfl
    · simp [other]

private theorem moves_leave (peer name group : String) :
    Moves s cause r (r.handleLeave peer name group) := by
  have left : Moves s cause r _ := .single (.group peer group false (.inl rfl))
  unfold Reactor.handleLeave
  dsimp only
  split
  · exact left
  · exact left.tail (.tell (silent_cons rfl silent_nil))

private theorem moves_whisper (peer : String) (frames : List Bytes) :
    Moves s cause r (r.handleWhisper s peer frames) := by
  unfold Reactor.handleWhisper
  split
  · exact moves_handleCommand peer _ r
  · exact moves_tell (silent_cons rfl silent_nil)

private theorem moves_shout (peer name group : String) (frames : List Bytes) :
    Moves s cause r (r.handleShout s peer name group frames) := by
  unfold Reactor.handleShout
  split
  · exact moves_tell (silent_cons rfl silent_nil)
  split
  · exact moves_tell (silent_cons rfl silent_nil)
  split
  · exact moves_handleCommand peer _ r
  · exact moves_tell (silent_cons rfl silent_nil)

private theorem moves_published (peer : String) (m : DataMessage) :
    Moves s cause r (r.handlePublished peer m) := by
  unfold Reactor.handlePublished
  split
  · exact .idle
  · exact moves_deliver _ m r

private theorem moves_busRequest {request : Presence.Request} (action group : String)
    (plain : (Effect.request request).document? = none) :
    Moves s cause r (r.busRequest s request action group) := by
  refine moves_tell (silent_cons plain ?_)
  split
  · exact silent_nil
  · exact silent_cons rfl silent_nil

private theorem moves_control (control : Control) : Moves s cause r (r.handleControl s control) := by
  cases control with
  | terminate => exact .single (.stop .requested)
  | notice command => exact moves_tell (silent_shoutNotice command)
  | busJoin group | busLeave group | busShout group frames => exact moves_busRequest _ _ rfl
  | busWhisper peer frames =>
    unfold Reactor.handleControl
    dsimp only
    split
    · exact moves_tell (silent_whisper fun _ _ other => by cases other)
    · exact moves_tell (silent_cons rfl silent_nil)

/-- Every step of a reactor is a chain of moves. -/
theorem moves_react (stimulus : Stimulus) : Moves s stimulus r (r.react s stimulus) := by
  cases stimulus with
  | presence event =>
    cases event with
    | enter peer name address headers => exact moves_enter peer name address headers
    | exit peer name => exact moves_exit peer name
    | join peer name group => exact moves_join peer name group
    | leave peer name group => exact moves_leave peer name group
    | whisper peer name frames => exact moves_whisper peer frames
    | shout peer name group frames => exact moves_shout peer name group frames
  | published peer message => exact moves_published peer message
  | control control => exact moves_control control
  | definitionTimer => exact .single (.announceDefinition rfl)
  | mappingTimer => exact .single (.announceMapping rfl)
  | outputsTimer => exact .forEach (fun peer r => .single (.poll peer)) _ r
  | expired => exact .single (.stop .expired)
  | presenceLost => exact .single (.stop .presenceLost)

end Proofs.ReactorMoves
end PeerMesh
