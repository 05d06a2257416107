import PeerMesh.Proofs.Isolation
import PeerMesh.Proofs.Resolution

/-! How often a peer is there. Each entry counts once more and each exit once less, and what is held
of a peer follows the count: its entry in the directory, whether that is in the private channel, and
its subscriber. -/

namespace PeerMesh

def Presence.Event.introduces? : Presence.Event → Option Peer
  | .enter id name address headers => some (Peer.new id name address headers)
  | _ => none

namespace Peer

def after (p : Peer) : Presence.Event → Option Peer
  | .enter .. => some { p with reconnections := p.reconnections + 1 }
  | .exit .. =>
    if 0 < p.reconnections then some { p with reconnections := p.reconnections - 1 } else none
  | .join _ _ group => some (p.setGroup group true)
  | .leave _ _ group => some (p.setGroup group false)
  | .whisper _ _ frames => some (p.notes frames)
  | .shout _ _ group frames => some (if group = privateChannel then p.notes frames else p)

/-- An entry is marked as in the private channel exactly if that is among its groups. -/
def Consistent (p : Peer) : Prop :=
  p.joined = true ↔ Table.contains p.groups privateChannel = true

end Peer

namespace Incident

def recount (peer : String) (count : Nat) : Incident → Nat
  | .happen _ (.presence (.enter id _ _ _)) => if id = peer then count + 1 else count
  | .happen _ (.presence (.exit id _)) => if id = peer then count - 1 else count
  | _ => count

end Incident

/-- How often a peer is there after some incidents, if it was away before. -/
def presences (peer : String) (incidents : List Incident) : Nat :=
  incidents.foldl (fun count incident => incident.recount peer count) 0

namespace Proofs.Presences
open HostRuns Incidents Isolation ReactorMoves Resolution Responses

/-- What is held of a peer that is there so many times. -/
structure Standing (peer : String) (count : Nat) (r : Reactor) : Prop where
  counted : (r.directory.get? peer).map (·.reconnections) =
    if count = 0 then none else some (count - 1)
  consistent : ∀ p, r.directory.get? peer = some p → p.Consistent
  /-- A subscriber bears the name of its peer, and that has a publisher. -/
  published : ∀ subscriber, r.subscribers.get? peer = some subscriber →
    ∃ p, r.directory.get? peer = some p ∧ p.publisherPort?.isSome = true ∧
      subscriber.peerName = p.name

variable {s : Surroundings} {r : Reactor} {peer : String} {p q : Peer} {count : Nat}

private theorem get?_group (d : Directory) (id group : String) (joined : Bool) :
    (d.group id group joined).1.get? id = (d.get? id).map (·.setGroup group joined) := by
  unfold Directory.group
  split
  next unknown => rw [unknown]; rfl
  next p known =>
    rw [known]
    exact (Table.get?_insert ..).trans (if_pos rfl)

/-- What an event makes of the entry of its own peer. -/
theorem get?_hear_self (d : Directory) (event : Presence.Event) :
    (d.hear event).get? event.peer = (d.get? event.peer).elim event.introduces? (·.after event) := by
  cases event with
  | enter id name address headers =>
    simp only [Directory.hear, Directory.learn, Directory.enter, Presence.Event.peer]
    cases d.get? id with
    | none => exact (Table.get?_insert ..).trans (if_pos rfl)
    | some p => exact (Table.get?_insert ..).trans (if_pos rfl)
  | exit id name =>
    simp only [Directory.hear, Directory.learn, Directory.exit, Presence.Event.peer]
    cases known : d.get? id with
    | none => exact known
    | some p =>
      simp only [Option.elim_some, Peer.after]
      split
      · exact (Table.get?_insert ..).trans (if_pos rfl)
      · exact (Table.get?_erase ..).trans (if_pos rfl)
  | join id name group =>
    refine (get?_group d id group true).trans ?_
    simp only [Presence.Event.peer]
    cases d.get? id <;> rfl
  | leave id name group =>
    refine (get?_group d id group false).trans ?_
    simp only [Presence.Event.peer]
    cases d.get? id <;> rfl
  | whisper id name frames =>
    refine (get?_note d id frames).trans ?_
    simp only [Presence.Event.peer]
    cases d.get? id <;> rfl
  | shout id name group frames =>
    simp only [Directory.hear, Presence.Event.peer, Peer.after]
    split
    · rw [get?_note]
      cases d.get? id <;> rfl
    · cases d.get? id <;> rfl

theorem consistent_setGroup (consistent : p.Consistent) (group : String) (joined : Bool) :
    (p.setGroup group joined).Consistent := by
  unfold Peer.Consistent Peer.setGroup at *
  dsimp only
  cases joined with
  | true =>
    rw [if_pos rfl, NameSet.contains_add]
    by_cases channel : group = privateChannel
    · simp [channel]
    · simpa [channel] using consistent
  | false =>
    rw [if_neg Bool.false_ne_true, Table.contains_erase]
    by_cases channel : group = privateChannel
    · simp [channel]
    · simpa [channel] using consistent

/-- What an entry keeps as long as it is there. -/
structure Continues (p q : Peer) : Prop where
  name : q.name = p.name
  headers : q.headers = p.headers
  consistent : p.Consistent → q.Consistent

theorem Continues.refl (p : Peer) : Continues p p := ⟨rfl, rfl, id⟩

theorem continues_of_alike (alike : p.AlikeButNotices q) : Continues p q := by
  rw [alike]
  exact ⟨rfl, rfl, id⟩

theorem continues_after {event : Presence.Event} (kept : p.after event = some q) :
    Continues p q := by
  cases event with
  | enter peer name address headers =>
    cases kept
    exact ⟨rfl, rfl, id⟩
  | exit peer name =>
    obtain ⟨-, kept⟩ := Option.ite_none_right_eq_some.mp kept
    cases kept
    exact ⟨rfl, rfl, id⟩
  | join id name group | leave id name group =>
    cases kept
    exact ⟨rfl, rfl, fun consistent => consistent_setGroup consistent group _⟩
  | whisper id name frames =>
    cases kept
    exact continues_of_alike (alikeButNotices_notes p frames)
  | shout id name group frames =>
    cases kept
    split
    · exact continues_of_alike (alikeButNotices_notes p frames)
    · exact .refl p

theorem consistent_of_introduces? {event : Presence.Event} (entered : event.introduces? = some p) :
    p.Consistent := by
  cases event with
  | enter id name address headers =>
    cases entered
    simp [Peer.Consistent, Peer.new]
  | _ => cases entered

theorem publisherPort?_of_headers (same : q.headers = p.headers) :
    q.publisherPort? = p.publisherPort? := by
  rw [Peer.publisherPort?, Peer.publisherPort?, Peer.header?, Peer.header?, same]

theorem counted_iff (known : Option Peer) (count : Nat) :
    known.map (·.reconnections) = (if count = 0 then none else some (count - 1)) ↔
      count = known.elim 0 (·.reconnections + 1) := by
  cases known with
  | none => simp
  | some p =>
    simp only [Option.map_some, Option.elim_some]
    split
    · simp; omega
    · simp only [Option.some.injEq]
      omega

private theorem reconnections_notes (p : Peer) (frames : List Bytes) :
    (p.notes frames).reconnections = p.reconnections := by
  rw [alikeButNotices_notes p frames]

/-- What becomes of an entry keeps the count. -/
theorem recount_after (s : Surroundings) (p : Peer) (event : Presence.Event) :
    (Incident.happen s (.presence event)).recount event.peer (p.reconnections + 1) =
      (p.after event).elim 0 (·.reconnections + 1) := by
  cases event with
  | enter id name address headers => exact if_pos rfl
  | exit id name =>
    simp only [Incident.recount, Presence.Event.peer, Peer.after, if_true]
    split
    · simp only [Option.elim_some]
      omega
    · simp only [Option.elim_none]
      omega
  | join | leave => rfl
  | whisper id name frames => exact congrArg (· + 1) (reconnections_notes p frames).symm
  | shout id name group frames =>
    simp only [Incident.recount, Peer.after, Option.elim_some]
    split
    · rw [reconnections_notes]
    · rfl

theorem recount_introduces? (s : Surroundings) (event : Presence.Event) :
    (Incident.happen s (.presence event)).recount event.peer 0 =
      event.introduces?.elim 0 (·.reconnections + 1) := by
  cases event with
  | enter id name address headers => exact if_pos rfl
  | exit id name => exact if_pos rfl
  | _ => rfl

/-- An incident is an event of the peer, or neither the count nor the entry changes. -/
theorem own_or_kept (peer : String) (r : Reactor) (incident : Incident) :
    (∃ s event, incident = .happen s (.presence event) ∧ event.peer = peer) ∨
      (∀ count, incident.recount peer count = count) ∧
        (r.meet incident).reactor.directory.get? peer = r.directory.get? peer := by
  cases incident with
  | edit e =>
    have foreign : ¬(Incident.edit e).IsBy peer := id
    exact .inr ⟨fun _ => rfl, get?_meet foreign⟩
  | happen s stimulus =>
    have foreign (other : stimulus.source? ≠ some peer) := get?_react_of_ne (r := r) (s := s) other
    cases stimulus with
    | presence event =>
      by_cases own : event.peer = peer
      · exact .inl ⟨s, event, rfl, own⟩
      · refine .inr ⟨fun count => ?_, foreign fun same => own (Option.some.inj same)⟩
        cases event with
        | enter | exit => exact if_neg own
        | _ => rfl
    | published id message =>
      refine .inr ⟨fun _ => rfl, ?_⟩
      exact congrArg (Directory.get? · peer) (directory_react r s (.published id message))
    | _ => exact .inr ⟨fun _ => rfl, foreign fun same => by cases same⟩

/-- Whatever subscriber a peer has afterwards, it bears the name of the one before or that of the
peer's entry, which then has a publisher. -/
def Named (peer : String) (r : Reactor) (reaction : Reaction) : Prop :=
  ∀ subscriber, reaction.reactor.subscribers.get? peer = some subscriber →
    (∃ before, r.subscribers.get? peer = some before ∧ subscriber.peerName = before.peerName) ∨
    ∃ p, reaction.reactor.directory.get? peer = some p ∧ p.publisherPort?.isSome = true ∧
      subscriber.peerName = p.name

variable {reaction : Reaction}

private theorem named_of_same
    (same : reaction.reactor.subscribers.get? peer = r.subscribers.get? peer) :
    Named peer r reaction := fun subscriber found => .inl ⟨subscriber, same ▸ found, rfl⟩

private theorem named_ensureSubscriber (peer : String) (r : Reactor) :
    Named peer r (r.ensureSubscriber peer) := by
  rcases ensureSubscriber_cases peer r with ⟨-, same⟩ | ⟨known, endpoint, entry, -, published, same⟩
  · rw [same]
    exact named_of_same rfl
  · rw [same]
    intro subscriber found
    rw [Table.get?_insert, if_pos rfl] at found
    cases found
    obtain ⟨p, entered, located⟩ := Option.bind_eq_some_iff.mp published
    obtain ⟨_, reached, same⟩ := Option.map_eq_some_iff.mp located
    obtain ⟨rfl, -⟩ := Prod.mk.inj same
    obtain ⟨port, parsed, -⟩ := Option.map_eq_some_iff.mp reached
    exact .inr ⟨p, entered, Option.isSome_of_mem parsed, rfl⟩

private theorem named_response (response : Response s peer r reaction) : Named peer r reaction := by
  cases response with
  | inward | noted => exact named_of_same rfl
  | subscribed => exact named_ensureSubscriber peer r
  | @tookIn before next found same =>
    intro subscriber present
    obtain ⟨after, subscribers, resolved, placed, outcome⟩ :=
      resolve_taken s (r.ensureSubscriber peer).reactor peer next
    obtain rfl : after = subscriber := Option.some.inj <| placed.symm.trans <|
      (congrArg (·.subscribers.get? peer) resolved).symm.trans present
    have kept : after.peerName = before.peerName := outcome.peerName.trans same
    rcases named_ensureSubscriber peer r before found with
      ⟨earlier, held, name⟩ | ⟨p, known, port, name⟩
    · exact .inl ⟨earlier, held, kept.trans name⟩
    · refine .inr ⟨p, ?_, port, kept.trans name⟩
      exact (congrArg (·.directory.get? peer) resolved).trans known

private theorem named_handleCommand (command : Command) :
    Named peer r (r.handleCommand s peer command) := by
  obtain ⟨log, handled⟩ := handleCommand_eq s peer command r
  rw [handled]
  intro subscriber found
  exact named_response (response_execute s peer _ r command) subscriber found

/-- No subscriber is left of a peer whose subscriber was dropped. -/
theorem get?_dropSubscriber (peer : String) (r : Reactor) :
    (r.dropSubscriber peer).reactor.subscribers.get? peer = none := by
  unfold Reactor.dropSubscriber
  split
  next absent => exact absent
  next => exact (Table.get?_erase ..).trans (if_pos rfl)

private theorem named_presence (event : Presence.Event) :
    Named event.peer r (r.handlePresence s event) := by
  cases event with
  | enter id name address headers =>
    simp only [Reactor.handlePresence, Reactor.handleEnter]
    split <;> exact named_of_same rfl
  | exit id name =>
    simp only [Reactor.handlePresence, Reactor.handleExit]
    split
    · exact named_of_same rfl
    · exact named_of_same rfl
    · intro subscriber found
      cases (get?_dropSubscriber id _).symm.trans found
  | join id name group =>
    simp only [Reactor.handlePresence, Reactor.handleJoin]
    split
    · split
      · exact named_ensureSubscriber id { r with directory := (r.directory.group id group true).1 }
      · exact named_of_same rfl
    · exact named_of_same rfl
  | leave id name group =>
    simp only [Reactor.handlePresence, Reactor.handleLeave]
    split <;> exact named_of_same rfl
  | whisper id name frames =>
    simp only [Reactor.handlePresence, Reactor.handleWhisper]
    split
    · exact named_handleCommand _
    · exact named_of_same rfl
  | shout id name group frames =>
    simp only [Reactor.handlePresence, Reactor.handleShout]
    split
    · exact named_of_same rfl
    split
    · exact named_of_same rfl
    split
    · exact named_handleCommand _
    · exact named_of_same rfl

def KeepsNames (r : Reactor) (reaction : Reaction) : Prop :=
  ∀ peer, (reaction.reactor.subscribers.get? peer).map (·.peerName) =
    (r.subscribers.get? peer).map (·.peerName)

private theorem named_of_keepsNames (keeps : KeepsNames r reaction) : Named peer r reaction := by
  intro subscriber found
  have kept := keeps peer
  rw [found, Option.map_some] at kept
  obtain ⟨before, held, same⟩ := Option.map_eq_some_iff.mp kept.symm
  exact .inl ⟨before, held, same.symm⟩

private theorem peerName_insert {subscribers : Table Subscriber} {id : String}
    {before after : Subscriber} (found : subscribers.get? id = some before)
    (same : after.peerName = before.peerName) (peer : String) :
    ((subscribers.insert id after).get? peer).map (·.peerName) =
      (subscribers.get? peer).map (·.peerName) := by
  rw [Table.get?_insert]
  split
  next equal => rw [← equal, found, Option.map_some, Option.map_some, same]
  next => rfl

private theorem keepsNames_resolve (id : String) (r : Reactor) : KeepsNames r (r.resolve s id) := by
  intro peer
  cases found : r.subscribers.get? id with
  | none =>
    rw [Reactor.resolve, found]
    rfl
  | some before =>
    obtain ⟨after, same, resolved⟩ := resolve_found (s := s) found
    rw [same]
    exact peerName_insert found resolved.peerName peer

private theorem keepsNames_resolveOne (replaced : Bool) (id : String) (r : Reactor) :
    KeepsNames r ((if replaced then r.markReset id else r).resolve s id) := by
  cases replaced with
  | false => exact keepsNames_resolve id r
  | true =>
    intro peer
    refine (keepsNames_resolve (s := s) id (r.markReset id) peer).trans ?_
    rw [Reactor.markReset, Table.get?_modify]
    split
    · rw [Option.map_map]
      rfl
    · rfl

private theorem keepsNames_requestOutputs (id : String) (r : Reactor) :
    KeepsNames r (r.requestOutputs s id) := by
  intro peer
  rcases requestOutputs_cases s id r with same | ⟨before, after, effects, found, taken, same⟩
  · rw [same]
    rfl
  · rw [same]
    refine peerName_insert found ?_ peer
    rcases taken with ⟨rfl, -⟩ | ⟨rfl, -⟩ <;> rfl

private theorem KeepsNames.forEach {α : Type} {step : α → Reactor → Reaction}
    (each : ∀ item r, KeepsNames r (step item r)) (items : List α) (r : Reactor) :
    KeepsNames r (r.forEach items step) :=
  forEach_keep (KeepsNames r) (fun _ => rfl) fun item _ reaction sofar peer =>
    (each item reaction.reactor peer).trans (sofar peer)

private theorem keepsNames_announceMapping : KeepsNames r (r.announceMapping s) := by
  cases dirty : r.agent.mappingDirty with
  | false =>
    rw [Reactor.announceMapping, dirty]
    exact fun _ => rfl
  | true =>
    intro peer
    rw [reactor_announceMapping dirty]
    exact KeepsNames.forEach (keepsNames_resolveOne r.agent.mappingReplaced) _ _ peer

private theorem named_meet (peer : String) (r : Reactor) (incident : Incident) :
    Named peer r (r.meet incident) := by
  by_cases own : incident.IsBy peer
  · cases incident with
    | edit e => cases own
    | happen s stimulus =>
      cases stimulus with
      | presence event =>
        obtain rfl : event.peer = peer := Option.some.inj own
        exact named_presence event
      | published id message => exact named_of_same (passesBy_published id message).subscriber
      | _ => cases own
  · by_cases sweeps : incident.Sweeps
    · cases incident with
      | edit e => cases sweeps
      | happen s stimulus =>
        cases stimulus with
        | mappingTimer => exact named_of_keepsNames keepsNames_announceMapping
        | outputsTimer =>
          exact named_of_keepsNames (.forEach keepsNames_requestOutputs r.subscribers.keys r)
        | _ => cases sweeps
    · exact named_of_same (spares_meet own sweeps).subscriber

/-- A peer that is gone for good takes its subscriber with it. -/
theorem dropped_of_gone {event : Presence.Event} (known : r.directory.get? event.peer = some p)
    (gone : p.after event = none) :
    (r.handlePresence s event).reactor.subscribers.get? event.peer = none := by
  cases event with
  | exit id name =>
    have last : ¬0 < p.reconnections := fun more => by
      rw [Peer.after, if_pos more] at gone
      cases gone
    have known : r.directory.get? id = some p := known
    simp only [Reactor.handlePresence, Reactor.handleExit, Directory.exit, known, if_neg last]
    exact get?_dropSubscriber id _
  | _ => cases gone

private theorem standing_own {event : Presence.Event} (standing : Standing event.peer count r) :
    Standing event.peer ((Incident.happen s (.presence event)).recount event.peer count)
      (r.handlePresence s event).reactor := by
  have becomes : (r.handlePresence s event).reactor.directory.get? event.peer =
      (r.directory.get? event.peer).elim event.introduces? (·.after event) := by
    rw [directory_handlePresence, get?_hear_self]
  have counted := (counted_iff _ _).mp standing.counted
  cases known : r.directory.get? event.peer with
  | none =>
    rw [known, Option.elim_none] at becomes counted
    subst counted
    refine ⟨?_, fun p entered => ?_, fun subscriber found => ?_⟩
    · rw [counted_iff, becomes]
      exact recount_introduces? s event
    · rw [becomes] at entered
      exact consistent_of_introduces? entered
    · rcases named_presence event subscriber found with ⟨before, held, -⟩ | entry
      · obtain ⟨p, present, -⟩ := standing.published before held
        cases known.symm.trans present
      · exact entry
  | some p =>
    rw [known, Option.elim_some] at becomes counted
    subst counted
    refine ⟨?_, fun q kept => ?_, fun subscriber found => ?_⟩
    · rw [counted_iff, becomes]
      exact recount_after s p event
    · rw [becomes] at kept
      exact (continues_after kept).consistent (standing.consistent p known)
    · rcases named_presence event subscriber found with ⟨before, held, name⟩ | entry
      · cases kept : p.after event with
        | none => cases (dropped_of_gone known kept).symm.trans found
        | some q =>
          have continues := continues_after kept
          obtain ⟨_, present, port, named⟩ := standing.published before held
          cases known.symm.trans present
          refine ⟨q, becomes.trans kept, ?_, name.trans (named.trans continues.name.symm)⟩
          rwa [publisherPort?_of_headers continues.headers]
      · exact entry

/-- What is held of a peer follows its count in every step. -/
theorem standing_meet (standing : Standing peer count r) (incident : Incident) :
    Standing peer (incident.recount peer count) (r.meet incident).reactor := by
  rcases own_or_kept peer r incident with ⟨s, event, rfl, rfl⟩ | ⟨recounted, kept⟩
  · exact standing_own standing
  · obtain ⟨counted, consistent, published⟩ := standing
    refine ⟨?_, fun p known => consistent p (kept ▸ known), fun subscriber found => ?_⟩
    · rw [recounted, kept]
      exact counted
    · rw [kept]
      rcases named_meet peer r incident subscriber found with ⟨before, held, name⟩ | entry
      · rw [name]
        exact published before held
      · rwa [kept] at entry

theorem presences_concat (peer : String) (incidents : List Incident) (incident : Incident) :
    presences peer (incidents ++ [incident]) = incident.recount peer (presences peer incidents) := by
  rw [presences, List.foldl_append]
  rfl

theorem standing_fresh (fresh : Fresh r) (peer : String) : Standing peer 0 r where
  counted := by
    rw [fresh.directory]
    rfl
  consistent p known := by
    rw [fresh.directory] at known
    cases known
  published subscriber found := by
    rw [fresh.subscribers] at found
    cases found

/-- What is held of a peer follows its count along every series of incidents. -/
theorem standing_meetAll (fresh : Fresh r) (peer : String) (incidents : List Incident) :
    Standing peer (presences peer incidents) (r.meetAll incidents).reactor := by
  induction incidents using List.reverseRecOn with
  | nil => exact standing_fresh fresh peer
  | append_singleton incidents incident ih =>
    rw [presences_concat, meetAll_concat]
    exact standing_meet ih incident

theorem standing_of_run {h : Host} {history : List HostStep} (run : Run h history)
    (running : h.reactor? = some r) (peer : String) : ∃ count, Standing peer count r := by
  obtain ⟨started, incidents, fresh, rfl⟩ := incidents_of_run run running
  exact ⟨presences peer incidents, standing_meetAll fresh peer incidents⟩

end Proofs.Presences
end PeerMesh
