import PeerMesh.Proofs.Incidents
import PeerMesh.Proofs.Resolution
import PeerMesh.Proofs.Responses

/-! Peers are kept apart. What one of them does may change the agent that it shares with the others,
yet it leaves what is held of another as it is, and works only its own socket. The others get to feel
it when the timers pass over all subscribers. -/

namespace PeerMesh

def Effect.socket? : Effect → Option String
  | .connect peer _ | .filter peer _ | .disconnect peer => some peer
  | _ => none

/-- The peer whose doing a stimulus is. -/
def Stimulus.source? : Stimulus → Option String
  | .presence event => some event.peer
  | .published peer _ => some peer
  | _ => none

/-- A timer that passes over all subscribers. -/
def Stimulus.Sweeps : Stimulus → Prop
  | .mappingTimer | .outputsTimer => True
  | _ => False

namespace Incident

def IsBy (peer : String) : Incident → Prop
  | .happen _ stimulus => stimulus.source? = some peer
  | .edit _ => False

def Sweeps : Incident → Prop
  | .happen _ stimulus => stimulus.Sweeps
  | .edit _ => False

end Incident

namespace Proofs.Isolation
open HostRuns Incidents ReactorMoves Resolution Responses

/-- A reaction that does nothing to a peer: neither its entry nor its subscriber changes, and its
socket is left alone. -/
structure Spares (peer : String) (r : Reactor) (reaction : Reaction) : Prop where
  entry : reaction.reactor.directory.get? peer = r.directory.get? peer
  subscriber : reaction.reactor.subscribers.get? peer = r.subscribers.get? peer
  socket : ∀ e ∈ reaction.effects, e.socket? ≠ some peer

/-- A reaction that keeps the subscriber of a peer, and of which no effect is about that peer. -/
structure PassesBy (peer : String) (r : Reactor) (reaction : Reaction) : Prop where
  subscriber : reaction.reactor.subscribers.get? peer = r.subscribers.get? peer
  about : ∀ e ∈ reaction.effects, e.about? ≠ some peer

variable {s : Surroundings} {r : Reactor} {peer other : String} {reaction : Reaction}

theorem PassesBy.append {more : Reaction} (first : PassesBy other r reaction)
    (last : PassesBy other reaction.reactor more) :
    PassesBy other r ⟨more.reactor, reaction.effects ++ more.effects⟩ where
  subscriber := last.subscriber.trans first.subscriber
  about := List.forall_mem_append.mpr ⟨first.about, last.about⟩

/-- Nothing is done to any subscriber, and nothing said of any peer. -/
private theorem passesBy_of_same (kept : reaction.reactor.subscribers = r.subscribers)
    (silent : ∀ e ∈ reaction.effects, e.about? = none) : PassesBy other r reaction where
  subscriber := by rw [kept]
  about e member about := by
    rw [silent e member] at about
    cases about

private theorem passesBy_log {directory : Directory} (entry : Log.Entry) :
    PassesBy other r ({ r with directory := directory }.tell [.log entry]) := by
  refine passesBy_of_same rfl fun e member => ?_
  cases List.mem_singleton.mp member
  rfl

/-- A log entry, and something about another peer or none. -/
private theorem passesBy_told {directory : Directory} {entry : Log.Entry} {event : HostEvent}
    (about : (Effect.notify event).about? ≠ some other) :
    PassesBy other r ({ r with directory := directory }.tell [.log entry, .notify event]) where
  subscriber := rfl
  about e member := by
    rcases List.mem_cons.mp member with rfl | member
    · intro about
      cases about
    · cases List.mem_singleton.mp member
      exact about

private theorem passesBy_host {directory : Directory} {event : HostEvent}
    (silent : (Effect.notify event).about? = none) :
    PassesBy other r ({ r with directory := directory }.tell [.notify event]) := by
  refine passesBy_of_same rfl fun e member => ?_
  cases List.mem_singleton.mp member
  exact silent

private theorem passesBy_ensureSubscriber (apart : peer ≠ other) (r : Reactor) :
    PassesBy other r (r.ensureSubscriber peer) where
  subscriber := by
    rcases ensureSubscriber_cases peer r with ⟨-, same⟩ | ⟨known, endpoint, entry, -, -, same⟩
    · rw [same]
      rfl
    · rw [same, Table.get?_insert, if_neg apart]
  about := forall_ensureSubscriber r (fun _ about => apart (Option.some.inj about))
    fun _ about => by cases about

private theorem passesBy_dropSubscriber (apart : peer ≠ other) (r : Reactor) :
    PassesBy other r (r.dropSubscriber peer) where
  subscriber := by
    rcases dropSubscriber_cases peer r with same | ⟨changes, same⟩
    · rw [same]
      rfl
    · rw [same, Table.get?_erase, if_neg apart]
  about := forall_dropSubscriber r (fun _ about => apart (Option.some.inj about))
    fun about => apart (Option.some.inj about)

private theorem passesBy_resolve (apart : peer ≠ other) (r : Reactor) :
    PassesBy other r (r.resolve s peer) where
  subscriber := by
    cases found : r.subscribers.get? peer with
    | none =>
      rw [Reactor.resolve, found]
      rfl
    | some before =>
      obtain ⟨after, same, -⟩ := resolve_found (s := s) found
      rw [same, Table.get?_insert, if_neg apart]
  about := forall_resolve r (fun _ about => apart (Option.some.inj about))
    fun _ about => by cases about

private theorem passesBy_whispers (apart : peer ≠ other) (r : Reactor) (commands : List Command) :
    PassesBy other r (r.tell (commands.flatMap (r.whisper s peer))) where
  subscriber := rfl
  about e member := by
    obtain ⟨command, -, sent⟩ := List.mem_flatMap.mp member
    apply forall_send _ _ e sent
    · intro about
      exact apart (Option.some.inj about)
    · intro entry about
      cases about

/-- Whatever a peer whispers, the response passes by the others. -/
theorem passesBy_response (apart : peer ≠ other) (response : Response s peer r reaction) :
    PassesBy other r reaction := by
  cases response with
  | inward answers =>
    refine ⟨rfl, fun e member about => ?_⟩
    rcases answers e member with silent | ⟨listing, values, rfl⟩
    · rw [silent] at about
      cases about
    · exact apart (Option.some.inj about)
  | noted notice => exact passesBy_of_same rfl fun _ member => by cases member
  | subscribed => exact passesBy_ensureSubscriber apart r
  | @tookIn before next found same =>
    have taken : PassesBy other (r.ensureSubscriber peer).reactor
        { (r.ensureSubscriber peer).reactor with
          subscribers := (r.ensureSubscriber peer).reactor.subscribers.insert peer next }.idle := by
      refine ⟨?_, fun _ member => by cases member⟩
      exact (Table.get?_insert ..).trans (if_neg apart)
    exact (passesBy_ensureSubscriber apart r).append (taken.append (passesBy_resolve apart _))

private theorem passesBy_handleCommand (apart : peer ≠ other) (command : Command) :
    PassesBy other r (r.handleCommand s peer command) := by
  obtain ⟨log, handled⟩ := handleCommand_eq s peer command r
  rw [handled]
  exact (passesBy_response apart (response_execute s peer _ r command)).append (passesBy_log log)

private theorem passesBy_presence {event : Presence.Event} (apart : event.peer ≠ other) :
    PassesBy other r (r.handlePresence s event) := by
  cases event with
  | enter id name address headers =>
    simp only [Reactor.handlePresence, Reactor.handleEnter]
    split
    · exact passesBy_told fun about => apart (Option.some.inj about)
    · exact passesBy_log _
  | exit id name =>
    simp only [Reactor.handlePresence, Reactor.handleExit]
    split
    · exact passesBy_of_same rfl fun _ member => by cases member
    · exact passesBy_log _
    next gone _ =>
      have left := passesBy_dropSubscriber apart { r with directory := (r.directory.exit id).1 }
      have left : PassesBy other r
          (Reactor.dropSubscriber id { r with directory := (r.directory.exit id).1 }) :=
        ⟨left.subscriber, left.about⟩
      exact left.append (passesBy_told fun about => apart (Option.some.inj about))
  | join id name group =>
    simp only [Reactor.handlePresence, Reactor.handleJoin]
    split
    · split
      · have welcomed := (passesBy_whispers (s := s) apart
          { r with directory := (r.directory.group id group true).1 } r.agent.catchUp).append
          (passesBy_ensureSubscriber apart _)
        exact ⟨welcomed.subscriber, welcomed.about⟩
      · exact passesBy_of_same rfl fun _ member => by cases member
    · exact passesBy_host rfl
  | leave id name group =>
    simp only [Reactor.handlePresence, Reactor.handleLeave]
    split
    · exact passesBy_of_same rfl fun _ member => by cases member
    · exact passesBy_host rfl
  | whisper id name frames =>
    simp only [Reactor.handlePresence, Reactor.handleWhisper]
    split
    · exact passesBy_handleCommand apart _
    · exact passesBy_log _
  | shout id name group frames =>
    simp only [Reactor.handlePresence, Reactor.handleShout]
    split
    · exact passesBy_host rfl
    split
    · exact passesBy_log _
    split
    · exact passesBy_handleCommand apart _
    · exact passesBy_log _

/-- A value that a peer publishes is for the agent alone. -/
theorem passesBy_published (name : String) (m : DataMessage) :
    PassesBy other r (r.handlePublished name m) := by
  refine passesBy_of_same ?_ (forall_published r (fun _ _ => rfl) fun _ => rfl)
  rw [Reactor.handlePublished]
  split <;> rfl

/-- What a peer does passes by the others. -/
theorem passesBy_react (stimulus : Stimulus) (source : stimulus.source? = some peer)
    (apart : peer ≠ other) : PassesBy other r (r.react s stimulus) := by
  cases stimulus with
  | presence event =>
    cases source
    exact passesBy_presence apart
  | published id message => exact passesBy_published id message
  | _ => cases source

theorem get?_hear_of_ne {event : Presence.Event} (apart : event.peer ≠ other) (d : Directory) :
    (d.hear event).get? other = d.get? other := by
  have noted (id : String) (differs : id ≠ other) (frames : List Bytes) :
      (d.note id frames).get? other = d.get? other := by
    unfold Directory.note
    split
    · exact (Table.get?_modify ..).trans (if_neg differs)
    · rfl
  have regrouped (id group : String) (joined : Bool) (differs : id ≠ other) :
      (d.group id group joined).1.get? other = d.get? other := by
    unfold Directory.group
    split
    · rfl
    · exact (Table.get?_insert ..).trans (if_neg differs)
  cases event with
  | enter id name address headers =>
    simp only [Directory.hear, Directory.learn, Directory.enter]
    split
    · exact (Table.get?_insert ..).trans (if_neg apart)
    · exact (Table.get?_insert ..).trans (if_neg apart)
  | exit id name =>
    simp only [Directory.hear, Directory.learn, Directory.exit]
    split
    · rfl
    split
    · exact (Table.get?_insert ..).trans (if_neg apart)
    · exact (Table.get?_erase ..).trans (if_neg apart)
  | join id name group => exact regrouped id group true apart
  | leave id name group => exact regrouped id group false apart
  | whisper id name frames => exact noted id apart frames
  | shout id name group frames =>
    simp only [Directory.hear]
    split
    · exact noted id apart frames
    · rfl

/-- Only a peer itself changes what is known of it. -/
theorem get?_react_of_ne {stimulus : Stimulus} (foreign : stimulus.source? ≠ some other) :
    (r.react s stimulus).reactor.directory.get? other = r.directory.get? other := by
  rw [directory_react]
  cases stimulus with
  | presence event => exact get?_hear_of_ne (fun same => foreign (congrArg some same)) r.directory
  | _ => rfl

theorem get?_meet {incident : Incident} (foreign : ¬incident.IsBy other) :
    (r.meet incident).reactor.directory.get? other = r.directory.get? other := by
  cases incident with
  | happen s stimulus => exact get?_react_of_ne foreign
  | edit e =>
    obtain ⟨agent, published, told, edited⟩ := edit_cases r e
    rw [Reactor.meet, edited]
    rfl

theorem socket?_of_about? {e : Effect} (about : e.about? ≠ some other) : e.socket? ≠ some other := by
  cases e with
  | connect | filter | disconnect => exact about
  | _ => intro same; cases same

/-- What a peer does spares the others. -/
theorem spares_react (stimulus : Stimulus) (source : stimulus.source? = some peer)
    (apart : peer ≠ other) : Spares other r (r.react s stimulus) := by
  have passed := passesBy_react (s := s) (r := r) stimulus source apart
  refine ⟨get?_react_of_ne fun same => ?_, passed.subscriber, fun e member => ?_⟩
  · exact apart (Option.some.inj (source.symm.trans same))
  · exact socket?_of_about? (passed.about e member)

private theorem socketless_send {request : Presence.Request} {action target : String}
    {command : Command} : ∀ e ∈ r.send s request action target command, e.socket? = none :=
  forall_send rfl fun _ => rfl

/-- Nothing is done to any subscriber. -/
private theorem spares_of_same {agent : Agent} {stopReason : Option StopReason}
    {effects : List Effect} (socketless : ∀ e ∈ effects, e.socket? = none) :
    Spares other r ⟨{ r with agent := agent, stopReason := stopReason }, effects⟩ where
  entry := rfl
  subscriber := rfl
  socket e member same := by
    rw [socketless e member] at same
    cases same

private theorem spares_control (control : Control) : Spares other r (r.handleControl s control) := by
  cases control with
  | terminate => exact spares_of_same fun _ member => by cases member
  | notice command => exact spares_of_same socketless_send
  | busJoin group | busLeave group | busShout group frames =>
    exact spares_of_same (forall_busRequest rfl fun _ => rfl)
  | busWhisper target frames =>
    simp only [Reactor.handleControl]
    split
    · exact spares_of_same socketless_send
    · refine spares_of_same fun e member => ?_
      cases List.mem_singleton.mp member
      rfl

private theorem spares_announceDefinition : Spares other r (r.announceDefinition s) := by
  unfold Reactor.announceDefinition
  split
  · refine spares_of_same fun e member => ?_
    obtain ⟨target, -, sent⟩ := List.mem_flatMap.mp member
    exact socketless_send e sent
  · exact spares_of_same fun _ member => by cases member

private theorem spares_edit (e : Edit) : Spares other r (r.edit e) := by
  obtain ⟨agent, published, told, edited⟩ := edit_cases r e
  rw [edited]
  refine spares_of_same fun effect member => ?_
  rcases List.mem_append.mp member with out | event
  · obtain ⟨message, -, rfl⟩ := Option.map_eq_some_iff.mp (Option.mem_toList.mp out)
    rfl
  · obtain ⟨event, -, rfl⟩ := List.mem_map.mp event
    rfl

/-- Unless a timer sweeps, only a peer itself affects what is held of it. -/
theorem spares_meet {incident : Incident} (foreign : ¬incident.IsBy other)
    (settled : ¬incident.Sweeps) : Spares other r (r.meet incident) := by
  cases incident with
  | edit e => exact spares_edit e
  | happen s stimulus =>
    cases stimulus with
    | presence event =>
      exact spares_react (.presence event) rfl fun same => foreign (congrArg some same)
    | published id message =>
      exact spares_react (s := s) (.published id message) rfl fun same => foreign (congrArg some same)
    | control control => exact spares_control control
    | definitionTimer => exact spares_announceDefinition
    | mappingTimer | outputsTimer => exact absurd trivial settled
    | expired | presenceLost => exact spares_of_same fun _ member => by cases member

theorem spares_idle (peer : String) (r : Reactor) : Spares peer r r.idle :=
  ⟨rfl, rfl, fun _ member => by cases member⟩

theorem Spares.append {more : Reaction} (first : Spares other r reaction)
    (last : Spares other reaction.reactor more) :
    Spares other r ⟨more.reactor, reaction.effects ++ more.effects⟩ where
  entry := last.entry.trans first.entry
  subscriber := last.subscriber.trans first.subscriber
  socket := List.forall_mem_append.mpr ⟨first.socket, last.socket⟩

/-- Whatever a peer does, another one is spared by that very step, also by a stop that the peer orders:
the step says that the reactor is to end, and the teardown for which it then leaves all its peers comes
after it. A peer is spared by any series of incidents as well that is not of its own doing and in which no
timer sweeps, and what is known of it does not even change when timers do. -/
theorem peers_are_isolated {p q : String} (apart : p ≠ q) (r : Reactor) :
    (∀ (s : Surroundings) (stimulus : Stimulus), stimulus.source? = some p →
      Spares q r (r.react s stimulus)) ∧
    (∀ incidents : List Incident, (∀ i ∈ incidents, ¬i.IsBy q ∧ ¬i.Sweeps) →
      Spares q r (r.meetAll incidents)) ∧
    ∀ incidents : List Incident, (∀ i ∈ incidents, ¬i.IsBy q) →
      (r.meetAll incidents).reactor.directory.get? q = r.directory.get? q := by
  refine ⟨fun s stimulus source => spares_react stimulus source apart, fun incidents foreign => ?_,
    fun incidents foreign => ?_⟩
  · refine forEach_keep (Spares q r) (spares_idle q r) fun incident member reaction sofar => ?_
    obtain ⟨others, settled⟩ := foreign incident member
    exact sofar.append (spares_meet others settled)
  · exact forEach_same (·.directory.get? q) fun incident member _ => get?_meet (foreign incident member)

private def gaugeText : String :=
  "\x7b\"definition\":\x7b\"name\":\"gauge\",\"outputs\":[\x7b\"name\":\"depth\"," ++
    "\"type\":\"INTEGER\"\x7d]\x7d\x7d"

private def sluice : Host := (Host.new "sluice" Config.empty "s").after [
  .start .calm "" "host" ⟨"1", "sluice", none⟩ (.ok ⟨4000, none⟩),
  .edit (.create .input "level" .integer none),
  .edit (.addElement "level" "gauge" "depth"),
  .happen .calm (.presence (.enter "g" "gauge" "host" (Table.ofList [("publisher", "5000")]))),
  .happen .calm (.presence (.enter "k" "keeper" "host" (Table.ofList [("publisher", "5001")]))),
  .happen .calm (.presence (.whisper "g" "gauge"
    (Command.enclosure .externalDefinition gaugeText).toFrames))]

private def keeperClears : Stimulus :=
  .presence (.whisper "k" "keeper" (Command.order .clearMapping).toFrames)

private def gaugeFilters (r : Reactor) : Option (List String) :=
  (r.subscribers.get? "g").map (·.filters.toList)

/-- The keeper clears the mapping that the gauge's filters come from, and the filters stay until the
mapping's timer fires. -/
theorem keeper_spares_gauge : ∃ r : Reactor, sluice.reactor? = some r ∧
    (r.react .calm keeperClears).reactor.agent.mapping ≠ r.agent.mapping ∧
    Spares "g" r (r.react .calm keeperClears) ∧ gaugeFilters r = some ["depth"] ∧
    gaugeFilters ((r.react .calm keeperClears).reactor.react .calm .mappingTimer).reactor =
      some [] := by
  have cleared : (sluice.reactor?.map fun r =>
      (decide ((r.react .calm keeperClears).reactor.agent.mapping = r.agent.mapping), gaugeFilters r,
        gaugeFilters ((r.react .calm keeperClears).reactor.react .calm .mappingTimer).reactor)) =
      some (false, some ["depth"], some []) := by decide +kernel
  obtain ⟨r, running, found⟩ := Option.map_eq_some_iff.mp cleared
  obtain ⟨mapping, filters⟩ := Prod.mk.inj found
  obtain ⟨before, after⟩ := Prod.mk.inj filters
  have apart : "k" ≠ "g" := by decide
  exact ⟨r, running, of_decide_eq_false mapping,
    (peers_are_isolated apart r).1 .calm keeperClears rfl, before, after⟩

end Proofs.Isolation
end PeerMesh
