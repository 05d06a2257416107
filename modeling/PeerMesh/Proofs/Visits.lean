import PeerMesh.Proofs.Broadcasts
import PeerMesh.Proofs.Presences

/-! What comes of a peer's coming and going. The host is told when a peer comes that was away, and when
it goes for good; in between only the count changes. A peer is brought up to date when it comes into
the private channel, and at no other time. -/

namespace PeerMesh

def Effect.visit? (peer : String) : Effect → Option HostEvent
  | .notify (.peerEntered id name) => if id = peer then some (.peerEntered id name) else none
  | .notify (.peerExited id name) => if id = peer then some (.peerExited id name) else none
  | _ => none

/-- A command that tells nothing of its sender's state. -/
def Command.Casual : Command → Prop
  | .order _ | .listing .. | .bus _ => True
  | _ => False

def Incident.announces? : Incident → Option Enclosure
  | .happen _ .definitionTimer => some .externalDefinition
  | .happen _ .mappingTimer => some .externalMapping
  | _ => none

/-- What may be whispered at any time: casual commands, and the document that is announced. -/
def Command.Timely (announced : Option Enclosure) (command : Command) : Prop :=
  command.Casual ∨ ∃ enclosure text, announced = some enclosure ∧ command = .enclosure enclosure text

/-- Tells of no coming or going, and whispers nothing untimely. -/
def Effect.Plain (announced : Option Enclosure) : Effect → Prop
  | .notify (.peerEntered ..) | .notify (.peerExited ..) => False
  | .request (.whisper _ frames) =>
    ∃ command : Command, command.Timely announced ∧ frames = command.toFrames
  | _ => True

namespace Proofs.Visits
open Broadcasts CatchUp CommandCodec HostRuns Incidents Isolation Presences ReactorMoves Responses

def visits (peer : String) (effects : List Effect) : List HostEvent :=
  effects.filterMap (·.visit? peer)

def Joins (peer : String) (r : Reactor) (reaction : Reaction) : Prop :=
  r.directory.hasJoined peer = false ∧ reaction.reactor.directory.hasJoined peer = true

/-- What comes of a peer's being there so many times after it was there so many times. -/
structure Counts (peer : String) (before after : Nat) (r : Reactor) (reaction : Reaction) : Prop where
  /-- The host is told when the peer comes and when it goes for good, and only then. -/
  told : visits peer reaction.effects =
    if before = 0 ∧ after = 1 then [.peerEntered peer (reaction.reactor.peerName peer)]
    else if before = 1 ∧ after = 0 then [.peerExited peer (r.peerName peer)]
    else []
  /-- Nothing is left of a peer that has gone for good. -/
  removed : before = 1 → after = 0 → reaction.reactor.directory.get? peer = none ∧
    reaction.reactor.subscribers.get? peer = none
  /-- Otherwise nothing but the count changes. -/
  recounted : before ≠ 0 → after ≠ 0 → before ≠ after → ∃ entry, reaction =
    { r with directory := r.directory.modify peer fun p =>
      { p with reconnections := after - 1 } }.tell [.log entry]

/-- A peer is brought up to date exactly when it comes into the private channel. At other times no
part of that is whispered to it, save for a document that a timer announces. -/
structure Welcomes (peer : String) (announced : Option Enclosure) (r : Reactor)
    (reaction : Reaction) : Prop where
  joining : Joins peer r reaction →
    whispered peer reaction.effects = r.agent.catchUp.map Command.toFrames
  otherwise : ¬Joins peer r reaction → ∀ command ∈ r.agent.catchUp,
    command.toFrames ∈ whispered peer reaction.effects →
      ∃ enclosure text, announced = some enclosure ∧ command = .enclosure enclosure text

variable {s : Surroundings} {r : Reactor} {peer : String} {p : Peer} {reaction : Reaction}
  {announced : Option Enclosure}

theorem plain_of_about? {e : Effect} (about : e.about? = none) : e.Plain announced := by
  cases e with
  | request request =>
    cases request with
    | whisper => cases about
    | _ => trivial
  | notify event =>
    cases event with
    | peerEntered | peerExited => cases about
    | _ => trivial
  | _ => trivial

private theorem plain_nil : ∀ e ∈ ([] : List Effect), e.Plain announced := fun _ member => by
  cases member

private theorem plain_cons {first : Effect} {effects : List Effect} (one : first.Plain announced)
    (others : ∀ e ∈ effects, e.Plain announced) : ∀ e ∈ first :: effects, e.Plain announced :=
  List.forall_mem_cons.mpr ⟨one, others⟩

private theorem plain_append {one two : List Effect} (left : ∀ e ∈ one, e.Plain announced)
    (right : ∀ e ∈ two, e.Plain announced) : ∀ e ∈ one ++ two, e.Plain announced :=
  List.forall_mem_append.mpr ⟨left, right⟩

private theorem plain_send {request : Presence.Request} {action target : String} {command : Command}
    (one : (Effect.request request).Plain announced) :
    ∀ e ∈ r.send s request action target command, e.Plain announced :=
  forall_send one fun _ => trivial

private theorem plain_whisper {command : Command} (timely : command.Timely announced)
    (peer : String) (r : Reactor) : ∀ e ∈ r.whisper s peer command, e.Plain announced :=
  plain_send ⟨command, timely, rfl⟩

private theorem plain_whisperJoined {command : Command} (timely : command.Timely announced)
    (r : Reactor) : ∀ e ∈ r.whisperJoined s command, e.Plain announced := by
  intro e member
  obtain ⟨target, -, sent⟩ := List.mem_flatMap.mp member
  exact plain_whisper timely target r e sent

private theorem plain_ensureSubscriber (peer : String) (r : Reactor) :
    ∀ e ∈ (r.ensureSubscriber peer).effects, e.Plain announced :=
  forall_ensureSubscriber r (fun _ => trivial) fun _ => trivial

private theorem plain_resolve (peer : String) (r : Reactor) :
    ∀ e ∈ (r.resolve s peer).effects, e.Plain announced :=
  forall_resolve r (fun _ => trivial) fun _ => trivial

private theorem plain_response (response : Response s peer r reaction) :
    ∀ e ∈ reaction.effects, e.Plain announced := by
  cases response with
  | inward answers =>
    intro e member
    rcases answers e member with silent | ⟨listing, values, rfl⟩
    · exact plain_of_about? silent
    · exact ⟨.listing listing values, .inl trivial, rfl⟩
  | noted => exact plain_nil
  | subscribed => exact plain_ensureSubscriber peer r
  | tookIn => exact plain_append (plain_ensureSubscriber peer r) (plain_resolve peer _)

private theorem plain_handleCommand (command : Command) :
    ∀ e ∈ (r.handleCommand s peer command).effects, e.Plain announced := by
  obtain ⟨log, handled⟩ := handleCommand_eq s peer command r
  rw [handled]
  exact plain_append (plain_response (response_execute s peer _ r command))
    (plain_cons trivial plain_nil)

private theorem plain_whispered (frames : List Bytes) :
    ∀ e ∈ (r.handleWhisper s peer frames).effects, e.Plain announced := by
  unfold Reactor.handleWhisper
  split
  · exact plain_handleCommand _
  · exact plain_cons trivial plain_nil

private theorem plain_shouted (name group : String) (frames : List Bytes) :
    ∀ e ∈ (r.handleShout s peer name group frames).effects, e.Plain announced := by
  unfold Reactor.handleShout
  split
  · exact plain_cons trivial plain_nil
  split
  · exact plain_cons trivial plain_nil
  split
  · exact plain_handleCommand _
  · exact plain_cons trivial plain_nil

private theorem plain_left (name group : String) :
    ∀ e ∈ (r.handleLeave peer name group).effects, e.Plain announced := by
  unfold Reactor.handleLeave
  dsimp only
  split
  · exact plain_nil
  · exact plain_cons trivial plain_nil

private theorem plain_control (control : Control) :
    ∀ e ∈ (r.handleControl s control).effects, e.Plain announced := by
  cases control with
  | terminate => exact plain_nil
  | notice command => exact plain_send trivial
  | busJoin | busLeave | busShout => exact forall_busRequest trivial fun _ => trivial
  | busWhisper target frames =>
    have casual : (Command.bus frames).Casual := trivial
    simp only [Reactor.handleControl]
    split
    · exact plain_whisper (.inl casual) _ r
    · exact plain_cons trivial plain_nil

private theorem plain_announceDefinition :
    ∀ e ∈ (r.announceDefinition s).effects, e.Plain (some .externalDefinition) := by
  unfold Reactor.announceDefinition
  split
  · exact plain_whisperJoined (.inr ⟨_, _, rfl, rfl⟩) _
  · exact plain_nil

private theorem plain_forEach {α : Type} {step : α → Reactor → Reaction}
    (each : ∀ item r, ∀ e ∈ (step item r).effects, e.Plain announced) (items : List α)
    (r : Reactor) : ∀ e ∈ (r.forEach items step).effects, e.Plain announced :=
  forEach_effects (·.Plain announced) each

private theorem plain_announceMapping :
    ∀ e ∈ (r.announceMapping s).effects, e.Plain (some .externalMapping) := by
  unfold Reactor.announceMapping
  split
  · refine plain_append (plain_whisperJoined (.inr ⟨_, _, rfl, rfl⟩) _) ?_
    exact plain_forEach (fun peer r => plain_resolve peer _) _ _
  · exact plain_nil

private theorem plain_requestOutputs (peer : String) (r : Reactor) :
    ∀ e ∈ (r.requestOutputs s peer).effects, e.Plain announced := by
  rcases requestOutputs_cases s peer r with
    same | ⟨before, after, effects, -, ⟨-, rfl⟩ | ⟨-, rfl⟩, same⟩
  · rw [same]
    exact plain_nil
  · rw [same]
    exact plain_nil
  · have casual : (Command.order .requestOutputs).Casual := trivial
    rw [same]
    exact plain_whisper (.inl casual) peer r

/-- Of an edit the host is told nothing about the peers. -/
private theorem plain_told {a : Agent} {e : Edit} {edited : Edited} (applied : e.apply a = .ok edited) :
    ∀ event ∈ edited.told, (Effect.notify event).Plain announced := by
  have silent : ∀ event ∈ ([] : List HostEvent), (Effect.notify event).Plain announced :=
    fun _ member => by cases member
  have single {event : HostEvent} (plain : (Effect.notify event).Plain announced) :
      ∀ e ∈ [event], (Effect.notify e).Plain announced := by
    intro e member
    cases List.mem_singleton.mp member
    exact plain
  cases e with
  | write kind name value =>
    have written := Outcomes.lift_eq_ok.mp applied
    rw [Writes.write_eq] at written
    obtain ⟨_, -, rfl⟩ := Outcomes.map_eq_ok.mp written
    exact single trivial
  | muteOutput output muted =>
    obtain ⟨_, -, rfl⟩ := Outcomes.map_eq_ok.mp applied
    exact single trivial
  | create | remove | load | addElement | removeElement | removeElementById =>
    obtain ⟨_, -, rfl⟩ := Outcomes.map_eq_ok.mp applied
    exact silent
  | clearMapping | permitFreezing | setState =>
    cases applied
    exact silent
  | mute muted =>
    cases applied
    unfold Agent.mute
    split
    · exact silent
    · exact single trivial
  | freeze frozen =>
    have applied : a.freeze frozen = .ok edited := applied
    unfold Agent.freeze at applied
    split at applied
    · cases applied
    split at applied
    · cases applied
      exact silent
    · cases applied
      exact single trivial

private theorem plain_edit (e : Edit) : ∀ effect ∈ (r.edit e).effects, effect.Plain announced := by
  unfold Reactor.edit
  split
  next edited applied =>
    refine plain_append ?_ fun effect member => ?_
    · intro effect member
      obtain ⟨message, -, rfl⟩ := Option.map_eq_some_iff.mp (Option.mem_toList.mp member)
      trivial
    · obtain ⟨event, told, rfl⟩ := List.mem_map.mp member
      exact plain_told applied event told
  next => exact plain_nil

/-- Plain effects are all that comes of what no peer does. -/
private theorem plain_unprompted {stimulus : Stimulus} (unprompted : stimulus.source? = none) :
    ∀ e ∈ (r.react s stimulus).effects,
      e.Plain (Incident.happen s stimulus).announces? := by
  cases stimulus with
  | presence | published => cases unprompted
  | control control => exact plain_control control
  | definitionTimer => exact plain_announceDefinition
  | mappingTimer => exact plain_announceMapping
  | outputsTimer => exact plain_forEach (fun peer r => plain_requestOutputs peer r) _ r
  | expired | presenceLost => exact plain_nil

private theorem plain_published (id : String) (m : DataMessage) :
    ∀ e ∈ (r.handlePublished id m).effects, e.Plain announced :=
  forall_published r (fun _ _ => trivial) fun _ => trivial

/-- Nobody comes into the private channel but by joining it. -/
theorem hasJoined_of_hear {d : Directory} {event : Presence.Event}
    (other : ∀ id name group, event ≠ .join id name group)
    (present : (d.hear event).hasJoined peer = true) : d.hasJoined peer = true := by
  have noted {id : String} {frames : List Bytes}
      (present : (d.note id frames).hasJoined peer = true) : d.hasJoined peer = true := by
    unfold Directory.note at present
    split at present
    · exact Directory.hasJoined_of_modify (Peer.joined_note · _) present
    · exact present
  cases event with
  | enter id name address headers => exact Directory.hasJoined_of_enter present
  | exit id name => exact Directory.hasJoined_of_exit present
  | join id name group => exact absurd rfl (other id name group)
  | leave id name group =>
    rcases Directory.hasJoined_of_group present with before | ⟨-, joined, -⟩
    · exact before
    · cases joined
  | whisper id name frames => exact noted present
  | shout id name group frames =>
    simp only [Directory.hear] at present
    split at present
    · exact noted present
    · exact present

private theorem channel_of_flipped {d : Directory} {id group : String} {joined : Bool}
    (flipped : (d.group id group joined).2 = true) :
    group = privateChannel ∧ d.hasJoined id = !joined ∧
      (d.group id group joined).1.hasJoined id = joined := by
  unfold Directory.group at flipped ⊢
  cases known : d.get? id with
  | none =>
    rw [known] at flipped
    cases flipped
  | some p =>
    rw [known] at flipped
    obtain ⟨channel, differs⟩ := Bool.and_eq_true_iff.mp flipped
    have channel : group = privateChannel := of_decide_eq_true channel
    refine ⟨channel, ?_, ?_⟩
    · rw [Directory.hasJoined, known]
      cases held : p.joined <;> cases joined <;> simp_all
    · rw [Directory.hasJoined_insert, if_pos rfl, Peer.setGroup, if_pos channel]

inductive Course (peer : String) (r : Reactor) : Incident → Reaction → Prop where
  | enters (s : Surroundings) (name address : String) (headers : Table String) :
      Course peer r (.happen s (.presence (.enter peer name address headers)))
        (r.handleEnter peer name address headers)
  | exits (s : Surroundings) (name : String) :
      Course peer r (.happen s (.presence (.exit peer name))) (r.handleExit peer name)
  | joins (s : Surroundings) (name : String)
      (flipped : (r.directory.group peer privateChannel true).2 = true) :
      Course peer r (.happen s (.presence (.join peer name privateChannel)))
        ({ r with directory := (r.directory.group peer privateChannel true).1 }.welcome s peer)
  | otherwise {incident : Incident} {reaction : Reaction}
      (recounted : ∀ count, incident.recount peer count = count) (stays : ¬Joins peer r reaction)
      (untold : visits peer reaction.effects = [])
      (timely : ∀ frames ∈ whispered peer reaction.effects,
        ∃ command, Command.Timely incident.announces? command ∧ frames = command.toFrames) :
      Course peer r incident reaction

private theorem visits_of_plain {effects : List Effect} (plain : ∀ e ∈ effects, e.Plain announced) :
    visits peer effects = [] := by
  refine List.filterMap_eq_nil_iff.mpr fun e member => ?_
  have plain := plain e member
  unfold Effect.visit?
  split
  · cases plain
  · cases plain
  · rfl

private theorem mem_whispered {effects : List Effect} {frames : List Bytes}
    (sent : frames ∈ whispered peer effects) : .request (.whisper peer frames) ∈ effects := by
  obtain ⟨e, member, found⟩ := List.mem_filterMap.mp sent
  split at found
  · split at found
    next same =>
      cases found
      rwa [← same]
    next => cases found
  · cases found

private theorem Course.ofPlain {incident : Incident}
    (recounted : ∀ count, incident.recount peer count = count) (stays : ¬Joins peer r reaction)
    (plain : ∀ e ∈ reaction.effects, e.Plain incident.announces?) :
    Course peer r incident reaction :=
  .otherwise recounted stays (visits_of_plain plain) fun _ sent => plain _ (mem_whispered sent)

private theorem Course.ofPassing {incident : Incident}
    (recounted : ∀ count, incident.recount peer count = count) (stays : ¬Joins peer r reaction)
    (passed : PassesBy peer r reaction) : Course peer r incident reaction := by
  refine .otherwise recounted stays ?_ fun frames sent => ?_
  · refine List.filterMap_eq_nil_iff.mpr fun e member => ?_
    have about := passed.about e member
    unfold Effect.visit?
    split
    · exact if_neg fun same => about (congrArg some same)
    · exact if_neg fun same => about (congrArg some same)
    · rfl
  · exact absurd rfl (passed.about _ (mem_whispered sent))

private theorem stays_of_same
    (same : reaction.reactor.directory.get? peer = r.directory.get? peer) :
    ¬Joins peer r reaction := by
  rintro ⟨before, after⟩
  rw [Directory.hasJoined, same, ← Directory.hasJoined, before] at after
  cases after

private theorem stays_of_hear (event : Presence.Event)
    (other : ∀ id name group, event ≠ .join id name group) :
    ¬Joins peer r (r.handlePresence s event) := by
  rintro ⟨before, after⟩
  rw [directory_handlePresence] at after
  rw [hasJoined_of_hear other after] at before
  cases before

private theorem course_join (s : Surroundings) (r : Reactor) (peer name group : String) :
    Course peer r (.happen s (.presence (.join peer name group)))
      (r.handleJoin s peer name group) := by
  cases flipped : (r.directory.group peer group true).2 with
  | true =>
    obtain ⟨rfl, -, -⟩ := channel_of_flipped flipped
    have welcomed : r.handleJoin s peer name privateChannel =
        { r with directory := (r.directory.group peer privateChannel true).1 }.welcome s peer := by
      simp only [Reactor.handleJoin, flipped, if_true]
    rw [welcomed]
    exact .joins s name flipped
  | false =>
    refine .ofPlain (fun _ => rfl) ?_ ?_
    · rintro ⟨before, after⟩
      have heard : (r.handleJoin s peer name group).reactor.directory =
          (r.directory.group peer group true).1 := directory_handlePresence (.join peer name group)
      rw [heard] at after
      rcases Directory.hasJoined_of_group after with joined | ⟨-, -, turned⟩
      · rw [joined] at before
        cases before
      · rw [flipped] at turned
        cases turned
    · simp only [Reactor.handleJoin, flipped]
      split
      · exact plain_nil
      · exact plain_cons trivial plain_nil

private theorem course_own (s : Surroundings) (r : Reactor) (event : Presence.Event) :
    Course event.peer r (.happen s (.presence event)) (r.handlePresence s event) := by
  cases event with
  | enter peer name address headers => exact .enters s name address headers
  | exit peer name => exact .exits s name
  | join peer name group => exact course_join s r peer name group
  | leave peer name group =>
    exact .ofPlain (fun _ => rfl) (stays_of_hear _ fun _ _ _ same => by cases same)
      (plain_left name group)
  | whisper peer name frames =>
    exact .ofPlain (fun _ => rfl) (stays_of_hear _ fun _ _ _ same => by cases same)
      (plain_whispered frames)
  | shout peer name group frames =>
    exact .ofPlain (fun _ => rfl) (stays_of_hear _ fun _ _ _ same => by cases same)
      (plain_shouted name group frames)

/-- Whatever a reactor meets with takes one of the courses. -/
theorem course_meet (peer : String) (r : Reactor) (incident : Incident) :
    Course peer r incident (r.meet incident) := by
  rcases own_or_kept peer r incident with ⟨s, event, rfl, rfl⟩ | ⟨recounted, kept⟩
  · exact course_own s r event
  have stays : ¬Joins peer r (r.meet incident) := stays_of_same kept
  cases incident with
  | edit e => exact .ofPlain recounted stays (plain_edit e)
  | happen s stimulus =>
    cases stimulus with
    | presence event =>
      by_cases own : event.peer = peer
      · subst own
        exact course_own s r event
      · exact .ofPassing recounted stays (passesBy_react (.presence event) rfl own)
    | published id message => exact .ofPlain recounted stays (plain_published id message)
    | _ => exact .ofPlain recounted stays (plain_unprompted rfl)

private theorem enter_unknown (unknown : r.directory.get? peer = none) (name address : String)
    (headers : Table String) : ∃ entry, r.handleEnter peer name address headers =
      { r with directory :=
        ⟨r.directory.peers.insert peer (Peer.new peer name address headers)⟩ }.tell
          [.log entry, .notify (.peerEntered peer name)] := by
  simp only [Reactor.handleEnter, Directory.enter, unknown]
  exact ⟨_, rfl⟩

private theorem modify_of_known {d : Directory} (known : d.get? peer = some p) (change : Peer → Peer) :
    d.modify peer change = ⟨d.peers.insert peer (change p)⟩ := by
  have known : d.peers.get? peer = some p := known
  rw [Directory.modify, Table.modify, known]

private theorem enter_known (known : r.directory.get? peer = some p) (name address : String)
    (headers : Table String) : ∃ entry, r.handleEnter peer name address headers =
      { r with directory := r.directory.modify peer fun q =>
        { q with reconnections := p.reconnections + 1 } }.tell [.log entry] := by
  rw [modify_of_known known]
  simp only [Reactor.handleEnter, Directory.enter, known]
  exact ⟨_, rfl⟩

private theorem exit_unknown (unknown : r.directory.get? peer = none) (name : String) :
    r.handleExit peer name = r.idle := by
  simp only [Reactor.handleExit, Directory.exit, unknown]

private theorem exit_again (known : r.directory.get? peer = some p)
    (again : 0 < p.reconnections) (name : String) : ∃ entry, r.handleExit peer name =
      { r with directory := r.directory.modify peer fun q =>
        { q with reconnections := p.reconnections - 1 } }.tell [.log entry] := by
  rw [modify_of_known known]
  simp only [Reactor.handleExit, Directory.exit, known, if_pos again]
  exact ⟨_, rfl⟩

private theorem exit_last (known : r.directory.get? peer = some p) (last : ¬0 < p.reconnections)
    (name : String) :
    visits peer (r.handleExit peer name).effects = [.peerExited peer p.name] ∧
      whispered peer (r.handleExit peer name).effects = [] := by
  have dropped (next : Reactor) : visits peer (next.dropSubscriber peer).effects = [] ∧
      whispered peer (next.dropSubscriber peer).effects = [] :=
    ⟨List.filterMap_eq_nil_iff.mpr (forall_dropSubscriber next (fun _ => rfl) rfl),
      List.filterMap_eq_nil_iff.mpr (forall_dropSubscriber next (fun _ => rfl) rfl)⟩
  simp only [Reactor.handleExit, Directory.exit, known, if_neg last, Reaction.andThen]
  rw [visits, List.filterMap_append, whispered_append]
  obtain ⟨untold, silent⟩ := dropped
    { r with directory := ⟨r.directory.peers.erase peer⟩ }
  rw [silent, ← visits, untold]
  exact ⟨by simp [Effect.visit?, Reactor.tell, Reactor.networkLog], rfl⟩

private theorem visits_welcome (s : Surroundings) (r : Reactor) (peer : String) :
    visits peer (r.welcome s peer).effects = [] := by
  refine List.filterMap_eq_nil_iff.mpr fun e member => ?_
  rcases List.mem_append.mp member with told | ensured
  · obtain ⟨command, -, sent⟩ := List.mem_flatMap.mp told
    apply forall_send _ _ e sent
    · rfl
    · intro entry
      rfl
  · apply forall_ensureSubscriber r _ _ e ensured
    · intro endpoint
      rfl
    · intro entry
      rfl

variable {incident : Incident} {count : Nat}

private theorem visits_enter (unknown : r.directory.get? peer = none) (name address : String)
    (headers : Table String) : visits peer (r.handleEnter peer name address headers).effects =
      [.peerEntered peer ((r.handleEnter peer name address headers).reactor.peerName peer)] := by
  obtain ⟨entry, entered⟩ := enter_unknown unknown name address headers
  have known : (Directory.mk (r.directory.peers.insert peer
      (Peer.new peer name address headers))).get? peer = some (Peer.new peer name address headers) :=
    (Table.get?_insert ..).trans (if_pos rfl)
  have named : (r.handleEnter peer name address headers).reactor.peerName peer = name := by
    rw [entered, Reactor.tell, Reactor.peerName, known]
    rfl
  rw [named, entered]
  simp [visits, Effect.visit?, Reactor.tell]

/-- Of the two ends of a visit the host is told, and of nothing in between. -/
private theorem told_of_course (counted : count = (r.directory.get? peer).elim 0 (·.reconnections + 1))
    (course : Course peer r incident reaction) :
    visits peer reaction.effects =
      if count = 0 ∧ incident.recount peer count = 1 then
        [.peerEntered peer (reaction.reactor.peerName peer)]
      else if count = 1 ∧ incident.recount peer count = 0 then [.peerExited peer (r.peerName peer)]
      else [] := by
  have unchanged {α : Type} (first second : List α) :
      (if count = 0 ∧ count = 1 then first else if count = 1 ∧ count = 0 then second else []) =
        [] := by
    rw [if_neg (by omega), if_neg (by omega)]
  cases course with
  | enters s name address headers =>
    have more : (Incident.happen s (.presence (.enter peer name address headers))).recount peer count =
        count + 1 := if_pos rfl
    rw [more]
    cases known : r.directory.get? peer with
    | none =>
      have away : count = 0 := by rw [counted, known, Option.elim_none]
      rw [if_pos ⟨away, congrArg (· + 1) away⟩]
      exact visits_enter known name address headers
    | some p =>
      have there : count = p.reconnections + 1 := by rw [counted, known, Option.elim_some]
      obtain ⟨entry, entered⟩ := enter_known known name address headers
      rw [if_neg (by omega), if_neg (by omega), entered]
      rfl
  | exits s name =>
    have fewer : (Incident.happen s (.presence (.exit peer name))).recount peer count = count - 1 :=
      if_pos rfl
    rw [fewer]
    cases known : r.directory.get? peer with
    | none =>
      have away : count = 0 := by rw [counted, known, Option.elim_none]
      rw [if_neg (by omega), if_neg (by omega), exit_unknown known name]
      rfl
    | some p =>
      have there : count = p.reconnections + 1 := by rw [counted, known, Option.elim_some]
      by_cases again : 0 < p.reconnections
      · obtain ⟨entry, left⟩ := exit_again known again name
        rw [if_neg (by omega), if_neg (by omega), left]
        rfl
      · rw [if_neg (by omega), if_pos (by omega), (exit_last known again name).1, Reactor.peerName,
          known]
  | joins s name flipped => exact (visits_welcome s _ peer).trans (unchanged _ _).symm
  | otherwise recounted stays untold timely =>
    rw [recounted, unchanged]
    exact untold

/-- A peer that has been there before and still is afterwards is counted, and nothing else is done. -/
private theorem recounted_of_course
    (counted : count = (r.directory.get? peer).elim 0 (·.reconnections + 1))
    (course : Course peer r incident reaction) (before : count ≠ 0)
    (after : incident.recount peer count ≠ 0) (differs : count ≠ incident.recount peer count) :
    ∃ entry, reaction = { r with directory := r.directory.modify peer fun p =>
      { p with reconnections := incident.recount peer count - 1 } }.tell [.log entry] := by
  cases known : r.directory.get? peer with
  | none =>
    rw [known, Option.elim_none] at counted
    exact absurd counted before
  | some p =>
    have there : count = p.reconnections + 1 := by rw [counted, known, Option.elim_some]
    subst there
    cases course with
    | enters s name address headers =>
      have more : (Incident.happen s (.presence (.enter peer name address headers))).recount peer
          (p.reconnections + 1) - 1 = p.reconnections + 1 := by
        rw [Incident.recount, if_pos rfl, Nat.add_sub_cancel]
      rw [more]
      exact enter_known known name address headers
    | exits s name =>
      have fewer : (Incident.happen s (.presence (.exit peer name))).recount peer
          (p.reconnections + 1) = p.reconnections := by
        rw [Incident.recount, if_pos rfl, Nat.add_sub_cancel]
      rw [fewer] at after ⊢
      exact exit_again known (Nat.pos_of_ne_zero after) name
    | joins s name flipped => exact absurd rfl differs
    | otherwise recounted => exact absurd (recounted _).symm differs

theorem counts_meet (standing : Standing peer count r) (incident : Incident) :
    Counts peer count (incident.recount peer count) r (r.meet incident) := by
  have counted := (counted_iff _ _).mp standing.counted
  have course := course_meet peer r incident
  refine ⟨told_of_course counted course, fun _ gone => ?_, recounted_of_course counted course⟩
  have stands := standing_meet standing incident
  have away : (r.meet incident).reactor.directory.get? peer = none := by
    rw [← Option.map_eq_none_iff, stands.counted, if_pos gone]
  refine ⟨away, Option.eq_none_iff_forall_ne_some.mpr fun subscriber found => ?_⟩
  obtain ⟨p, known, -⟩ := stands.published subscriber found
  cases away.symm.trans known

/-- Whatever is read from the frames of a command that brings a peer up to date is that command, and
it is not a casual one. -/
private theorem read_of_mem_catchUp {a : Agent} {command other : Command}
    (listed : command ∈ a.catchUp) (read : Command.ofFrames command.toFrames = .ok other) :
    other = command ∧ ¬command.Casual := by
  have sent (transmissible : Transmissible command) : other = command :=
    Except.ok.inj (read.symm.trans (ofFrames_toFrames transmissible))
  rw [catchUp_eq] at listed
  rcases List.mem_cons.mp listed with rfl | listed
  · exact ⟨sent trivial, id⟩
  rcases List.mem_cons.mp listed with rfl | listed
  · exact ⟨sent trivial, id⟩
  have notice := isNotice_of_mem_catchUp listed
  cases command with
  | topic topic text =>
    cases blank : Text.isAllBlank text.toList with
    | true =>
      rw [ofFrames_topic_blank topic blank] at read
      cases read
    | false => exact ⟨sent (Words.isAllBlank_eq_false.mp blank), id⟩
  | flag | state => exact ⟨sent trivial, id⟩
  | _ => cases notice

private theorem transmissible_of_timely {command : Command} (timely : command.Timely announced) :
    Transmissible command := by
  rcases timely with casual | ⟨enclosure, text, -, rfl⟩
  · cases command with
    | order | listing | bus => trivial
    | _ => cases casual
  · trivial

/-- A part of what brings a peer up to date is whispered in time only if it is announced. -/
private theorem announced_of_timely {a : Agent} {command other : Command}
    (listed : command ∈ a.catchUp) (timely : other.Timely announced)
    (same : command.toFrames = other.toFrames) :
    ∃ enclosure text, announced = some enclosure ∧ command = .enclosure enclosure text := by
  have read : Command.ofFrames command.toFrames = .ok other := by
    rw [same, ofFrames_toFrames (transmissible_of_timely timely)]
  obtain ⟨rfl, weighty⟩ := read_of_mem_catchUp listed read
  exact timely.resolve_left weighty

private theorem whispered_enter (name address : String) (headers : Table String) :
    whispered peer (r.handleEnter peer name address headers).effects = [] := by
  unfold Reactor.handleEnter
  dsimp only
  split <;> rfl

private theorem whispered_exit (name : String) :
    whispered peer (r.handleExit peer name).effects = [] := by
  cases known : r.directory.get? peer with
  | none =>
    rw [exit_unknown known name]
    rfl
  | some p =>
    by_cases again : 0 < p.reconnections
    · obtain ⟨entry, left⟩ := exit_again known again name
      rw [left]
      rfl
    · exact (exit_last known again name).2

private theorem joins_of_flipped (s : Surroundings)
    (flipped : (r.directory.group peer privateChannel true).2 = true) :
    Joins peer r
      ({ r with directory := (r.directory.group peer privateChannel true).1 }.welcome s peer) := by
  obtain ⟨-, before, after⟩ := channel_of_flipped flipped
  refine ⟨before, ?_⟩
  rw [Reactor.welcome, Reaction.andThen, (rewires_ensureSubscriber peer _).directory]
  exact after

private theorem welcomes_of_course (course : Course peer r incident reaction) :
    Welcomes peer incident.announces? r reaction := by
  cases course with
  | enters s name address headers =>
    refine ⟨fun joins => ?_, fun _ command _ sent => ?_⟩
    · exact absurd joins (stays_of_hear (s := s) (.enter peer name address headers)
        fun _ _ _ same => by cases same)
    · rw [whispered_enter] at sent
      cases sent
  | exits s name =>
    refine ⟨fun joins => ?_, fun _ command _ sent => ?_⟩
    · exact absurd joins (stays_of_hear (s := s) (.exit peer name)
        fun _ _ _ same => by cases same)
    · rw [whispered_exit] at sent
      cases sent
  | joins s name flipped =>
    exact ⟨fun _ => whispered_welcome s _ peer,
      fun stays => absurd (joins_of_flipped s flipped) stays⟩
  | otherwise _ stays _ timely =>
    refine ⟨fun joins => absurd joins stays, fun _ command listed sent => ?_⟩
    obtain ⟨other, inTime, same⟩ := timely _ sent
    exact announced_of_timely listed inTime same

/-- Along every series of incidents that a started reactor meets with, what is held of a peer follows
the count of its entries and exits, and each step does with the peer what the count tells. In every
reactor of a run something is held of each peer that fits some count. -/
theorem visits_are_counted (peer : String) :
    (∀ start : Reactor, Fresh start → ∀ incidents : List Incident,
      Standing peer (presences peer incidents) (start.meetAll incidents).reactor ∧
      ∀ incident : Incident,
        Counts peer (presences peer incidents) (presences peer (incidents ++ [incident]))
          (start.meetAll incidents).reactor ((start.meetAll incidents).reactor.meet incident) ∧
        Welcomes peer incident.announces? (start.meetAll incidents).reactor
          ((start.meetAll incidents).reactor.meet incident)) ∧
    ∀ (h : Host) (history : List HostStep) (r : Reactor), Run h history → h.reactor? = some r →
      ∃ count, Standing peer count r := by
  refine ⟨fun start fresh incidents => ?_, fun h history r run running => ?_⟩
  · have standing := standing_meetAll fresh peer incidents
    refine ⟨standing, fun incident => ⟨?_, ?_⟩⟩
    · rw [presences_concat]
      exact counts_meet standing incident
    · exact welcomes_of_course (course_meet peer _ incident)
  · exact standing_of_run run running peer

private def hall : Reactor where
  agent := Agent.new "hall"
  settings := Config.empty.reactorSettings "tmp"
  hostAddress := "127.0.0.1"
  directory := Directory.empty
  subscribers := Table.empty
  stopReason := none

private def guestComes : Incident :=
  .happen .calm (.presence (.enter "g" "guest" "127.0.0.1" (Table.ofList [("publisher", "5000")])))

private def guestJoins : Incident := .happen .calm (.presence (.join "g" "guest" privateChannel))

private def guestLeaves : Incident := .happen .calm (.presence (.exit "g" "guest"))

private def guestStays : List Incident := [guestComes, guestJoins, guestComes, guestLeaves]

/-- When it leaves once more, it takes its subscriber with it, and the host is told. -/
theorem guest_leaves_for_good :
    (hall.meetAll guestStays).reactor.subscribers.contains "g" = true ∧
    ((hall.meetAll guestStays).reactor.meet guestLeaves).reactor.subscribers.get? "g" = none ∧
    visits "g" ((hall.meetAll guestStays).reactor.meet guestLeaves).effects =
      [.peerExited "g" "guest"] ∧
    whispered "g" ((hall.meetAll [guestComes]).reactor.meet guestJoins).effects =
      (hall.meetAll [guestComes]).reactor.agent.catchUp.map Command.toFrames := by
  have fresh : Fresh hall := ⟨rfl, rfl, rfl⟩
  have once : presences "g" guestStays = 1 := by decide +kernel
  have away : presences "g" (guestStays ++ [guestLeaves]) = 0 := by decide +kernel
  have named : (hall.meetAll guestStays).reactor.peerName "g" = "guest" := by decide +kernel
  have joins : Joins "g" (hall.meetAll [guestComes]).reactor
      ((hall.meetAll [guestComes]).reactor.meet guestJoins) :=
    ⟨by decide +kernel, by decide +kernel⟩
  obtain ⟨counts, -⟩ := ((visits_are_counted "g").1 hall fresh guestStays).2 guestLeaves
  obtain ⟨-, welcomes⟩ := ((visits_are_counted "g").1 hall fresh [guestComes]).2 guestJoins
  have told := counts.told
  rw [once, away, named] at told
  exact ⟨by decide +kernel, (counts.removed once away).2, told, welcomes.joining joins⟩

end Proofs.Visits
end PeerMesh
