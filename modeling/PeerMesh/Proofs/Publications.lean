import PeerMesh.Proofs.Models
import PeerMesh.Proofs.Tables
import PeerMesh.Proofs.Writes

/-! What an agent publishes. A value goes out when an output has been written, by the host or by a
peer, and neither the agent nor the output is held back just then. Nothing else that is done to an
agent, and nothing that happens to it, publishes anything. -/

namespace PeerMesh

def Effect.publication? : Effect → Option DataMessage
  | .publish message => some message
  | _ => none

def publications (effects : List Effect) : List DataMessage := effects.filterMap Effect.publication?

/-- The output that a turn is to write, and the value that the agent would store in it. -/
def Agent.stored? (a : Agent) : Turn → Option (String × Value)
  | .edit (.write .output name value) =>
    (a.definition.write .output name value).toOption.map fun (_, stored) => (name, stored)
  | .happen _ (.presence (.whisper _ _ frames)) =>
    match Command.ofFrames frames with
    | .ok (.set .output name text) =>
      (a.setText .output name text).toOption.map fun (_, stored) => (name, stored)
    | _ => none
  | _ => none

def Agent.isOpen (a : Agent) (output : String) : Bool :=
  !a.frozen && !a.muted && (a.definition.output? output).any fun slot => !slot.muted

/-- The message that a turn has to release: the output that it writes, with the value that is stored,
unless the output is held back after the turn. -/
def Host.release? (h : Host) (t : Turn) : Option DataMessage :=
  if h.isRunning then
    (h.agent.stored? t).bind fun (output, value) =>
      if (h.turn t).host.agent.isOpen output then some ⟨output, value⟩ else none
  else none

def Host.releases (h : Host) : List Turn → List (Option DataMessage)
  | [] => []
  | t :: turns => h.release? t :: (h.turn t).host.releases turns

namespace Proofs.Publications
open HostRuns Outcomes ReactorMoves Writes

variable {s : Surroundings} {r : Reactor} {reaction : Reaction}

theorem publications_append (one two : List Effect) :
    publications (one ++ two) = publications one ++ publications two := List.filterMap_append

theorem publications_map {α : Type} {items : List α} {make : α → Effect}
    (each : ∀ item, (make item).publication? = none) : publications (items.map make) = [] := by
  apply List.filterMap_eq_nil_iff.mpr
  intro e member
  obtain ⟨item, -, rfl⟩ := List.mem_map.mp member
  exact each item

def Quiet (reaction : Reaction) : Prop := publications reaction.effects = []

theorem Quiet.append {more : Reaction} (first : Quiet reaction) (last : Quiet more) :
    Quiet ⟨more.reactor, reaction.effects ++ more.effects⟩ := by
  unfold Quiet at first last ⊢
  rw [publications_append, first, last]
  rfl

theorem Quiet.forEach {α : Type} {step : α → Reactor → Reaction}
    (each : ∀ item r, Quiet (step item r)) (items : List α) (r : Reactor) :
    Quiet (r.forEach items step) := by
  refine forEach_keep Quiet ?_ ?_
  · exact rfl
  · intro item _ reaction sofar
    exact sofar.append (each item reaction.reactor)

private theorem publications_send (request : Presence.Request) (action target : String)
    (command : Command) : publications (r.send s request action target command) = [] := by
  unfold Reactor.send
  split <;> rfl

private theorem quiet_ensureSubscriber (peer : String) (r : Reactor) :
    Quiet (r.ensureSubscriber peer) := by
  unfold Quiet
  rcases ensureSubscriber_cases peer r with ⟨-, same⟩ | ⟨known, endpoint, entry, -, -, same⟩
  · rw [same]
    rfl
  · rw [same]
    rfl

private theorem quiet_dropSubscriber (peer : String) (r : Reactor) :
    Quiet (r.dropSubscriber peer) := by
  unfold Quiet
  rcases dropSubscriber_cases peer r with same | ⟨changes, same⟩
  · rw [same]
    rfl
  · rw [same, publications_append, publications_map fun _ => rfl]
    rfl

private theorem quiet_requestOutputs (peer : String) (r : Reactor) :
    Quiet (r.requestOutputs s peer) := by
  unfold Quiet
  rcases requestOutputs_cases s peer r with
    same | ⟨before, after, effects, -, ⟨-, rfl⟩ | ⟨-, rfl⟩, same⟩
  · rw [same]
    rfl
  · rw [same]
    rfl
  · rw [same]
    exact publications_send _ _ _ _

private theorem quiet_resolve (peer : String) (r : Reactor) : Quiet (r.resolve s peer) := by
  unfold Quiet Reactor.resolve
  split
  · rfl
  · simp only [publications_append]
    rw [publications_map fun _ => rfl, publications_map fun _ => rfl, publications_map fun _ => rfl]
    rfl

private theorem publications_whisperJoined (command : Command) :
    publications (r.whisperJoined s command) = [] := by
  unfold publications Reactor.whisperJoined
  rw [List.filterMap_flatMap]
  exact List.flatMap_eq_nil_iff.mpr fun peer _ => publications_send _ _ _ _

private theorem quiet_welcome (peer : String) (r : Reactor) : Quiet (r.welcome s peer) := by
  refine Quiet.append ?_ (quiet_ensureSubscriber peer r)
  change (r.agent.catchUp.flatMap (r.whisper s peer)).filterMap Effect.publication? = []
  rw [List.filterMap_flatMap]
  exact List.flatMap_eq_nil_iff.mpr fun command _ => publications_send _ _ _ _

private theorem quiet_announceDefinition (r : Reactor) : Quiet (r.announceDefinition s) := by
  unfold Reactor.announceDefinition
  split
  · exact publications_whisperJoined _
  · exact rfl

private theorem quiet_announceMapping (r : Reactor) : Quiet (r.announceMapping s) := by
  unfold Reactor.announceMapping
  split
  · refine Quiet.append (publications_whisperJoined _) (Quiet.forEach ?_ _ _)
    intro peer r
    exact quiet_resolve peer _
  · exact rfl

private theorem quiet_deliver (peerName : String) (m : DataMessage) (r : Reactor) :
    Quiet (r.deliver peerName m) := by
  unfold Quiet Reactor.deliver
  dsimp only
  rw [publications_append, publications_map fun _ => rfl, publications_map fun _ => rfl]
  rfl

private theorem quiet_freeze (frozen : Bool) : Quiet (r.freeze s frozen).reaction := by
  unfold Reactor.freeze
  split
  · exact rfl
  split
  · exact rfl
  · exact publications_send _ _ _ _

private theorem quiet_mute (muted : Bool) : Quiet (r.mute s muted).reaction := by
  unfold Reactor.mute
  split
  · exact rfl
  · exact publications_send _ _ _ _

private theorem quiet_muteOutput (output : String) (muted : Bool) :
    Quiet (r.muteOutput s output muted).reaction := by
  unfold Reactor.muteOutput
  split
  · exact rfl
  · exact publications_send _ _ _ _

private theorem quiet_save (document : Document) : Quiet (r.save s document).reaction := by
  unfold Reactor.save
  split
  · exact rfl
  split
  · exact rfl
  · exact rfl

private theorem quiet_set {kind : SlotKind} (other : kind ≠ .output) (name text : String) :
    Quiet (r.set kind name text).reaction := by
  cases set : r.agent.setText kind name text with
  | error fault =>
    rw [set_of_refused set]
    exact rfl
  | ok result =>
    obtain ⟨remark, carriedOut⟩ := set_of_setText set
    rw [carriedOut]
    cases kind with
    | output => exact absurd rfl other
    | input | parameter => exact rfl

private theorem quiet_change (result : Except ModelFault Agent) :
    Quiet (r.change result).reaction := by
  cases result <;> exact rfl

private theorem quiet_order (peer name : String) (order : Order) :
    Quiet (r.executeOrder s peer name order).reaction := by
  cases order with
  | stop | clearMapping => exact rfl
  | freeze => exact quiet_freeze true
  | unfreeze => exact quiet_freeze false
  | muteAll => exact quiet_mute true
  | unmuteAll => exact quiet_mute false
  | requestOutputs | getCurrentInputs | getCurrentParameters => exact publications_send _ _ _ _
  | saveDefinition => exact quiet_save .definition
  | saveMapping => exact quiet_save .mapping

private theorem quiet_notice (peer : String) (notice : Command) :
    Quiet (r.executeNotice peer notice).reaction := by
  unfold Reactor.executeNotice
  split <;> exact rfl

private theorem quiet_external (peer : String) (apply : Subscriber → Except ModelFault Subscriber) :
    Quiet (r.executeExternal s peer apply).reaction := by
  unfold Reactor.executeExternal
  dsimp only
  split
  · exact rfl
  split
  · exact quiet_ensureSubscriber peer r
  · exact (quiet_ensureSubscriber peer r).append (quiet_resolve peer _)

private theorem quiet_outputs (peer name : String) (values : List DataMessage) :
    Quiet (r.executeOutputs peer name values).reaction := by
  unfold Reactor.executeOutputs
  split
  · exact rfl
  · exact Quiet.forEach (fun m r => quiet_deliver name m r) _ r

/-- No command but the one that sets an output publishes anything. -/
theorem quiet_execute (peer name : String) {command : Command}
    (other : ∀ output text, command ≠ .set .output output text) :
    Quiet (r.execute s peer name command).reaction := by
  cases command with
  | order order => exact quiet_order peer name order
  | topic topic text =>
    cases topic with
    | mute => exact quiet_muteOutput text true
    | unmute => exact quiet_muteOutput text false
    | setLogPath | setDefinitionPath | setMappingPath => exact publications_send _ _ _ _
    | outputMuted | outputUnmuted | logFilePath | definitionFilePath | mappingFilePath =>
      exact quiet_notice peer _
  | flag | state => exact quiet_notice peer _
  | enclosure enclosure text =>
    cases enclosure with
    | externalDefinition | externalMapping => exact quiet_external peer _
    | loadDefinition | loadMapping => exact quiet_change _
  | listing listing values =>
    cases listing with
    | outputs => exact quiet_outputs peer name values
    | currentInputs | currentParameters => exact rfl
  | set kind slot text =>
    apply quiet_set
    intro output
    exact other slot text (output ▸ rfl)
  | map | unmap => exact quiet_change _
  | bus => exact rfl

private theorem publications_handleCommand (peer : String) (command : Command) :
    publications (r.handleCommand s peer command).effects =
      publications (r.execute s peer (r.peerName peer) command).reaction.effects := by
  obtain ⟨log, handled⟩ := handleCommand_eq s peer command r
  rw [handled]
  exact (publications_append _ _).trans (List.append_nil _)

private theorem quiet_shout (peer name group : String) (frames : List Bytes) :
    Quiet (r.handleShout s peer name group frames) := by
  unfold Reactor.handleShout
  split
  · exact rfl
  split
  · exact rfl
  next command _ =>
    split
    next notice =>
      refine (publications_handleCommand peer command).trans (quiet_execute peer _ ?_)
      rintro output text rfl
      cases notice
    next => exact rfl

private theorem quiet_control (control : Control) : Quiet (r.handleControl s control) := by
  have busRequest (request : Presence.Request) (action group : String) :
      Quiet (r.busRequest s request action group) := by
    unfold Reactor.busRequest
    split <;> exact rfl
  cases control with
  | terminate => exact rfl
  | notice command => exact publications_send _ _ _ _
  | busJoin | busLeave | busShout => exact busRequest _ _ _
  | busWhisper peer frames =>
    unfold Reactor.handleControl
    dsimp only
    split
    · exact publications_send _ _ _ _
    · exact rfl

/-- Whatever a reactor meets with, it publishes nothing unless a peer sets an output. -/
theorem quiet_react {stimulus : Stimulus}
    (other : ∀ peer name frames output text, stimulus = .presence (.whisper peer name frames) →
      Command.ofFrames frames ≠ .ok (.set .output output text)) :
    Quiet (r.react s stimulus) := by
  cases stimulus with
  | presence event =>
    cases event with
    | enter peer name address headers =>
      change Quiet (r.handleEnter peer name address headers)
      unfold Reactor.handleEnter
      dsimp only
      split <;> exact rfl
    | exit peer name =>
      change Quiet (r.handleExit peer name)
      unfold Reactor.handleExit
      dsimp only
      split
      · exact rfl
      · exact rfl
      · exact (quiet_dropSubscriber peer _).append rfl
    | join peer name group =>
      change Quiet (r.handleJoin s peer name group)
      unfold Reactor.handleJoin
      dsimp only
      split
      · split
        · exact quiet_welcome peer _
        · exact rfl
      · exact rfl
    | leave peer name group =>
      change Quiet (r.handleLeave peer name group)
      unfold Reactor.handleLeave
      dsimp only
      split <;> exact rfl
    | whisper peer name frames =>
      change Quiet (r.handleWhisper s peer frames)
      unfold Reactor.handleWhisper
      split
      next command read =>
        refine (publications_handleCommand peer command).trans (quiet_execute peer _ ?_)
        rintro output text rfl
        exact other peer name frames output text rfl read
      next => exact rfl
    | shout peer name group frames => exact quiet_shout peer name group frames
  | published peer message =>
    change Quiet (r.handlePublished peer message)
    unfold Reactor.handlePublished
    split
    · exact rfl
    · exact quiet_deliver _ message r
  | control control => exact quiet_control control
  | definitionTimer => exact quiet_announceDefinition r
  | mappingTimer => exact quiet_announceMapping r
  | outputsTimer => exact Quiet.forEach (fun peer r => quiet_requestOutputs peer r) _ r
  | expired | presenceLost => exact rfl

private theorem quiet_teardown (r : Reactor) : publications r.teardown = [] := by
  have dropped : publications (r.forEach r.subscribers.keys Reactor.dropSubscriber).effects = [] :=
    Quiet.forEach quiet_dropSubscriber r.subscribers.keys r
  unfold Reactor.teardown
  dsimp only
  simp only [publications_append, dropped]
  split
  · split <;> rfl
  · rfl

private theorem quiet_setup (agent : Agent) (settings : ReactorSettings) (nodeId hostAddress : String)
    (process : ProcessIdentity) (publisher : Except FileFault PublisherAddress) :
    publications (Reactor.setup s agent settings nodeId hostAddress process publisher).1 = [] := by
  unfold Reactor.setup
  split
  · rfl
  next address =>
    have announced :
        publications ((Reactor.announcements agent process address).map Effect.request) = [] :=
      publications_map fun _ => rfl
    dsimp only
    split
    · rw [publications_append, announced]
      rfl
    split
    · simp only [publications_append, announced]
      rfl
    · simp only [publications_append, announced]
      rfl

/-- An output that was written goes out under its name, with what was stored, if it is open. -/
theorem message?_of_write {a : Agent} (sound : a.Sound) {name : String} {value stored : Value}
    {definition : Definition}
    (written : a.definition.write .output name value = .ok (definition, stored)) :
    Agent.message? { a with definition := definition } name =
      if Agent.isOpen { a with definition := definition } name then some ⟨name, stored⟩
      else none := by
  obtain ⟨slot, before, after⟩ := output?_of_write written
  have named : slot.name = name := (sound.definition.slots before).named
  rw [message?_eq]
  unfold Agent.isOpen
  dsimp only
  rw [after, Option.bind_some, Option.any_some, Slot.message, named]
  cases a.frozen <;> cases a.muted <;> cases slot.muted <;> rfl

/-- A snapshot has a message of each output that no gate holds back. -/
theorem mem_openOutputs {a : Agent} {m : DataMessage} :
    m ∈ a.openOutputs ↔ a.muted = false ∧ a.frozen = false ∧
      ∃ output slot, a.definition.output? output = some slot ∧ slot.muted = false ∧
        slot.message = m := by
  unfold Agent.openOutputs
  split
  next held =>
    refine ⟨fun member => absurd member List.not_mem_nil, ?_⟩
    rintro ⟨unmuted, thawed, -⟩
    rw [unmuted, thawed] at held
    cases held
  next free =>
    obtain ⟨unmuted, thawed⟩ := Bool.or_eq_false_iff.mp (eq_false_of_ne_true free)
    simp only [List.mem_map, List.mem_filter, Table.mem_values, Bool.not_eq_true', unmuted, thawed,
      true_and]
    constructor
    · rintro ⟨slot, ⟨⟨output, found⟩, audible⟩, same⟩
      exact ⟨output, slot, found, audible, same⟩
    · rintro ⟨output, slot, found, audible, same⟩
      exact ⟨slot, ⟨⟨output, found⟩, audible⟩, same⟩

/-- The snapshot of an agent's outputs asks the gates that a write asks. -/
theorem openOutputs_eq (a : Agent) :
    a.openOutputs = a.definition.outputs.keys.filterMap a.message? := by
  have each : ∀ e ∈ a.definition.outputs.entries, (a.message? ∘ Prod.fst) e =
      if a.frozen || a.muted || e.2.muted then none else some e.2.message := by
    intro e member
    have found : a.definition.output? e.1 = some e.2 := Table.mem_entries.mp member
    rw [Function.comp_apply, message?_eq, found, Option.bind_some]
  unfold Table.keys
  rw [List.filterMap_map]
  refine Eq.trans ?_ (List.filterMap_congr each).symm
  unfold Agent.openOutputs Table.values
  split
  next held =>
    symm
    apply List.filterMap_eq_nil_iff.mpr
    intro e _
    rw [Bool.or_comm a.frozen, held]
    rfl
  next free =>
    rw [← List.filterMap_eq_filter, List.map_filterMap, List.filterMap_map]
    apply List.filterMap_congr
    intro e _
    rw [Bool.or_comm a.frozen, eq_false_of_ne_true free]
    cases muted : e.2.muted <;> simp [Option.guard, muted]

/-- Sound outputs are kept under their names. -/
theorem sorted_openOutputs {a : Agent} (sound : a.Sound) :
    (a.openOutputs.map (·.name)).Pairwise (· < ·) := by
  have named : ∀ {output message}, a.message? output = some message → message.name = output := by
    intro output message goesOut
    rw [message?_eq] at goesOut
    obtain ⟨slot, found, goesOut⟩ := Option.bind_eq_some_iff.mp goesOut
    split at goesOut
    · cases goesOut
    · cases goesOut
      exact (sound.definition.slots found).named
  rw [openOutputs_eq]
  apply List.pairwise_map.mpr
  apply List.pairwise_filterMap.mpr
  apply a.definition.outputs.keys_sorted.imp
  intro one two less first firstGoes second secondGoes
  rw [named firstGoes, named secondGoes]
  exact less

variable {h : Host} {history : List HostStep}

theorem publications_settle (h : Host) (reaction : Reaction) :
    publications (h.settle reaction).effects = publications reaction.effects := by
  unfold Host.settle
  dsimp only
  split
  · rw [publications_append, quiet_teardown]
    exact List.append_nil _
  · rfl

theorem publications_react (running : h.reactor? = some r) (s : Surroundings) (stimulus : Stimulus) :
    publications (h.react s stimulus).effects = publications (r.react s stimulus).effects := by
  unfold Host.react
  rw [running]
  exact publications_settle h _

private theorem publications_react_quiet {stimulus : Stimulus}
    (quiet : ∀ r : Reactor, Quiet (r.react s stimulus)) :
    publications (h.react s stimulus).effects = [] := by
  cases running : h.reactor? with
  | none =>
    unfold Host.react
    rw [running]
    rfl
  | some r => exact (publications_react running s stimulus).trans (quiet r)

/-- An edit has nothing to publish unless it writes an output. -/
private theorem publications_of_edit {a : Agent} {e : Edit} {edited : Edited}
    (applied : e.apply a = .ok edited)
    (other : ∀ name value, e ≠ .write .output name value) : edited.published = none := by
  cases e with
  | write kind name value =>
    have written := lift_eq_ok.mp applied
    rw [write_eq] at written
    obtain ⟨⟨definition, stored⟩, -, rfl⟩ := map_eq_ok.mp written
    cases kind with
    | output => exact absurd rfl (other name value)
    | input | parameter => rfl
  | create | remove | load | addElement | removeElement | removeElementById | muteOutput =>
    obtain ⟨_, -, rfl⟩ := map_eq_ok.mp applied
    rfl
  | clearMapping | permitFreezing | setState =>
    cases applied
    rfl
  | mute muted =>
    cases applied
    unfold Agent.mute
    split <;> rfl
  | freeze frozen =>
    change a.freeze frozen = .ok edited at applied
    unfold Agent.freeze at applied
    split at applied
    · cases applied
    split at applied
    · cases applied
      rfl
    · cases applied
      rfl

def Releases (h : Host) (t : Turn) : Prop :=
  publications (h.turn t).effects = (h.release? t).toList

private theorem releases_of_stopped {t : Turn} (stopped : h.reactor? = none)
    (quiet : publications (h.turn t).effects = []) : Releases h t := by
  have unreleased : h.release? t = none := by
    unfold Host.release? Host.isRunning
    rw [stopped]
    rfl
  unfold Releases
  rw [quiet, unreleased]
  rfl

private theorem releases_of_unstored {t : Turn} (unstored : h.agent.stored? t = none)
    (quiet : publications (h.turn t).effects = []) : Releases h t := by
  have unreleased : h.release? t = none := by
    unfold Host.release?
    rw [unstored]
    split <;> rfl
  unfold Releases
  rw [quiet, unreleased]
  rfl

/-- A value that was stored goes out as the gates of the next state allow. -/
private theorem releases_of_stored {t : Turn} {name : String} {value stored : Value}
    {definition : Definition} (run : Run h history) (running : h.reactor? = some r)
    (written : h.agent.definition.write .output name value = .ok (definition, stored))
    (stores : h.agent.stored? t = some (name, stored))
    (after : (h.turn t).host.agent = { h.agent with definition := definition })
    (told : publications (h.turn t).effects =
      (Agent.message? { h.agent with definition := definition } name).toList) : Releases h t := by
  have alive : h.isRunning = true := by
    rw [Host.isRunning, running]
    rfl
  have sound : h.agent.Sound := Models.sound_of_reachable run.reachable
  unfold Releases Host.release?
  rw [told, if_pos alive, stores, after, message?_of_write sound written]
  rfl

theorem publications_option (message : Option DataMessage) :
    publications (message.map .publish).toList = message.toList := by
  cases message <;> rfl

private theorem publications_edit {e : Edit} {edited : Edited} (running : h.reactor? = some r)
    (applied : e.apply h.agent = .ok edited) :
    publications (h.turn (.edit e)).effects = edited.published.toList := by
  rw [agent_of_reactor? running] at applied
  rw [turn_edit running applied]
  dsimp only
  rw [publications_append, publications_map fun _ => rfl, List.append_nil]
  exact publications_option edited.published

private theorem publications_edit_refused {e : Edit} {fault : AgentFault}
    (refused : e.apply h.agent = .error fault) : publications (h.turn (.edit e)).effects = [] := by
  simp only [Host.turn, Host.edit, refused, Except.map]
  rfl

private theorem publications_edit_stopped (stopped : h.reactor? = none) (e : Edit) :
    publications (h.turn (.edit e)).effects = [] := by
  cases applied : e.apply h.agent with
  | error fault => exact publications_edit_refused applied
  | ok edited =>
    simp only [Host.turn, Host.edit, applied, Except.map, Host.isRunning, stopped, Option.isSome_none,
      Bool.false_eq_true, if_false]
    exact publications_map fun _ => rfl

private theorem releases_write (run : Run h history) (running : h.reactor? = some r) (name : String)
    (value : Value) : Releases h (.edit (.write .output name value)) := by
  have stores : h.agent.stored? (.edit (.write .output name value)) =
      (h.agent.definition.write .output name value).toOption.map fun (_, stored) => (name, stored) :=
    rfl
  have apply : (Edit.write .output name value).apply h.agent =
      AgentFault.lift (h.agent.write .output name value) := rfl
  rw [write_eq] at apply
  cases written : h.agent.definition.write .output name value with
  | error fault =>
    rw [written] at apply stores
    exact releases_of_unstored stores (publications_edit_refused apply)
  | ok result =>
    obtain ⟨definition, stored⟩ := result
    rw [written] at apply stores
    exact releases_of_stored run running written stores (agent_edit apply)
      (publications_edit running apply)

private theorem releases_edit (run : Run h history) (e : Edit) : Releases h (.edit e) := by
  cases running : h.reactor? with
  | none => exact releases_of_stopped running (publications_edit_stopped running e)
  | some r =>
    by_cases writes : ∃ name value, e = .write .output name value
    · obtain ⟨name, value, rfl⟩ := writes
      exact releases_write run running name value
    · have other : ∀ name value, e ≠ .write .output name value := by
        intro name value same
        exact writes ⟨name, value, same⟩
      apply releases_of_unstored
      · unfold Agent.stored?
        split
        next same =>
          cases same
          exact absurd rfl (other _ _)
        next same => cases same
        next => rfl
      · cases applied : e.apply h.agent with
        | error fault => exact publications_edit_refused applied
        | ok edited =>
          rw [publications_edit running applied, publications_of_edit applied other]
          rfl

private theorem releases_set (run : Run h history) (running : h.reactor? = some r)
    {peer name : String} {frames : List Bytes} {output text : String}
    (read : Command.ofFrames frames = .ok (.set .output output text)) :
    Releases h (.happen s (.presence (.whisper peer name frames))) := by
  have stores : h.agent.stored? (.happen s (.presence (.whisper peer name frames))) =
      (h.agent.setText .output output text).toOption.map fun (_, stored) => (output, stored) := by
    simp only [Agent.stored?, read]
  have whispered : r.react s (.presence (.whisper peer name frames)) =
      r.handleCommand s peer (.set .output output text) := by
    simp only [Reactor.react, Reactor.handlePresence, Reactor.handleWhisper, read]
  have told : publications (h.turn (.happen s (.presence (.whisper peer name frames)))).effects =
      publications (r.set .output output text).reaction.effects := by
    refine (publications_react running s _).trans ?_
    rw [whispered]
    exact publications_handleCommand peer _
  have becomes : (h.turn (.happen s (.presence (.whisper peer name frames)))).host.agent =
      (r.set .output output text).reaction.reactor.agent := by
    refine (agent_react running s _).trans ?_
    rw [whispered]
    rfl
  cases set : r.agent.setText .output output text with
  | error fault =>
    rw [set_of_refused set] at told
    rw [← agent_of_reactor? running] at set
    rw [set] at stores
    exact releases_of_unstored stores told
  | ok result =>
    obtain ⟨after, stored⟩ := result
    obtain ⟨remark, carriedOut⟩ := set_of_setText set
    rw [carriedOut] at told becomes
    rw [← agent_of_reactor? running] at set
    rw [set] at stores
    obtain ⟨value, definition, written, rfl⟩ := write_of_setText set
    exact releases_of_stored run running written stores becomes
      (told.trans (publications_option _))

private theorem releases_of_quiet {stimulus : Stimulus}
    (unstored : h.agent.stored? (.happen s stimulus) = none)
    (quiet : ∀ r : Reactor, Quiet (r.react s stimulus)) : Releases h (.happen s stimulus) := by
  apply releases_of_unstored unstored
  cases stimulus with
  | control control => rfl
  | _ => exact publications_react_quiet quiet

private theorem releases_whisper (run : Run h history) (peer name : String) (frames : List Bytes) :
    Releases h (.happen s (.presence (.whisper peer name frames))) := by
  by_cases sets : ∃ output text, Command.ofFrames frames = .ok (.set .output output text)
  · obtain ⟨output, text, read⟩ := sets
    cases running : h.reactor? with
    | some r => exact releases_set run running read
    | none =>
      apply releases_of_stopped running
      change publications (h.react s _).effects = []
      unfold Host.react
      rw [running]
      rfl
  · apply releases_of_quiet
    · simp only [Agent.stored?]
      split
      next output text read => exact absurd ⟨output, text, read⟩ sets
      next => rfl
    · intro r
      apply quiet_react
      rintro _ _ _ output text same read
      cases same
      exact sets ⟨output, text, read⟩

theorem releases_turn (run : Run h history) (t : Turn) : Releases h t := by
  cases t with
  | edit e => exact releases_edit run e
  | start s temporary hostAddress process publisher =>
    apply releases_of_unstored rfl
    change publications (h.start s temporary hostAddress process publisher).1 = []
    unfold Host.start
    split
    · rfl
    · rfl
    · exact quiet_setup _ _ _ _ _ _
  | request control => exact releases_of_unstored rfl rfl
  | take s =>
    apply releases_of_unstored rfl
    change publications (h.takeOne s).effects = []
    unfold Host.takeOne
    split
    · rfl
    · apply publications_react_quiet
      intro r
      exact quiet_control _
  | happen s stimulus =>
    cases stimulus with
    | presence event =>
      cases event with
      | whisper peer name frames => exact releases_whisper run peer name frames
      | enter | exit | join | leave | shout =>
        apply releases_of_quiet rfl
        intro r
        apply quiet_react
        rintro _ _ _ _ _ ⟨⟩
    | published | control | definitionTimer | mappingTimer | outputsTimer | expired | presenceLost =>
      apply releases_of_quiet rfl
      intro r
      apply quiet_react
      rintro _ _ _ _ _ ⟨⟩

theorem publications_trace (turns : List Turn) (run : Run h history) :
    (h.trace turns).map (fun step => publications step.effects) =
      (h.releases turns).map Option.toList := by
  induction turns generalizing h history with
  | nil => rfl
  | cons t turns ih =>
    have first : publications (h.turn t).effects = (h.release? t).toList := releases_turn run t
    unfold Host.trace Host.releases
    rw [List.map_cons, List.map_cons, first, ih (run.turn t)]

/-- Whatever is done with an agent and whatever it meets with, a turn publishes the output that it
writes, if neither the output nor the agent is held back then, under its name and with the value that
was stored; and it publishes nothing else. A snapshot of the outputs holds, in the order of their
names, what each of them would publish. -/
theorem open_writes_publish (name : String) (config : Config) (nodeId : String) (turns : List Turn) :
    let h := Host.new name config nodeId
    (h.trace turns).map (fun step => publications step.effects) =
      (h.releases turns).map Option.toList ∧
    ((h.after turns).agent.openOutputs.map (·.name)).Pairwise (· < ·) ∧
    ∀ a : Agent, a.openOutputs = a.definition.outputs.keys.filterMap a.message? ∧
      a.definition.outputs.keys.Pairwise (· < ·) ∧
      (a.muted = true ∨ a.frozen = true → a.openOutputs = []) := by
  intro h
  have run : Run h [] := .new name config nodeId
  obtain ⟨longer, later⟩ := run_after turns run
  refine ⟨publications_trace turns run, ?_, fun a => ⟨openOutputs_eq a, Table.keys_sorted _, ?_⟩⟩
  · exact sorted_openOutputs (Models.sound_of_reachable later.reachable)
  · intro held
    unfold Agent.openOutputs
    rw [if_pos]
    rcases held with muted | frozen
    · rw [muted, Bool.true_or]
    · rw [frozen, Bool.or_true]

private def readings : List Turn := [
  .edit (.create .output "level" .integer none),
  .edit (.write .output "level" (.integer 1)),
  .start .calm "" "host" ⟨"1", "tank", none⟩ (.ok ⟨4000, none⟩),
  .edit (.write .output "level" (.integer 2)),
  .edit (.mute true),
  .edit (.write .output "level" (.integer 3)),
  .edit (.mute false),
  .happen .calm (.presence (.whisper "p" "pump" (Command.set .output "level" "4").toFrames))]

/-- The level of a tank goes out when its host has written it and when a peer has, but not before the
tank is running and not while it is muted. -/
theorem tank_publishes_open_levels :
    ((Host.new "tank" Config.empty "t").trace readings).map (fun step => publications step.effects) =
      [[], [], [], [⟨"level", .integer 2⟩], [], [], [], [⟨"level", .integer 4⟩]] := by
  have releases : (Host.new "tank" Config.empty "t").releases readings =
      [none, none, none, some ⟨"level", .integer 2⟩, none, none, none,
        some ⟨"level", .integer 4⟩] := by
    decide +kernel
  have publishes := (open_writes_publish "tank" Config.empty "t" readings).1
  rw [releases] at publishes
  exact publishes

end Proofs.Publications
end PeerMesh
