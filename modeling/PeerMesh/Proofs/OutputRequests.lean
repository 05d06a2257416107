import PeerMesh.Proofs.FilterSync

/-! When a subscriber asks its peer for the current outputs. A pass after a change of the mapping sets
the time to ask when some element takes an output that was not filtered for, or when the filters were
rebuilt. An element that takes an output which is filtered for already is not asked for. A request
that has been set stays until the peer has been asked or its subscriber is gone. -/

namespace PeerMesh

/-- An element of the mapping that feeds an input from an output of the subscriber's peer. -/
def Agent.Wired (a : Agent) (subscriber : Subscriber) (e : Element) : Prop :=
  e ∈ a.mapping.elements ∧
    subscriber.definition.any (e.resolves a.definition subscriber.peerName) = true

instance (a : Agent) (subscriber : Subscriber) (e : Element) : Decidable (a.Wired subscriber e) :=
  inferInstanceAs (Decidable (_ ∧ _))

namespace Reactor

def resolved (s : Surroundings) (r : Reactor) (subscriber : Subscriber) : Subscriber :=
  let (next, delta) :=
    subscriber.resolve r.agent.definition r.agent.mapping r.settings.filterPolicy
  if !delta.added.isEmpty || (delta.reset && !next.filters.isEmpty) then
    next.armOutputsRequest (s.now + r.settings.outputsRequestDelay)
  else next

/-- A subscriber as the pass that follows a change of the mapping takes it up. -/
def marked (r : Reactor) (subscriber : Subscriber) : Subscriber :=
  if r.agent.mappingReplaced then subscriber.markReset else subscriber

def passed (s : Surroundings) (r : Reactor) (subscriber : Subscriber) : Subscriber :=
  r.resolved s (r.marked subscriber)

def outputsRequestAt? (r : Reactor) (peer : String) : Option Nat :=
  (r.subscribers.get? peer).bind (·.outputsRequestAt)

end Reactor

namespace Proofs.OutputRequests
open FilterSync HostRuns Outcomes ReactorMoves Resolution

variable {s : Surroundings} {cause : Stimulus} {r : Reactor} {peer : String}

theorem contains_wanted_iff {a : Agent} {subscriber : Subscriber} {output : String} :
    Table.contains (a.wanted subscriber) output = true ↔
      ∃ e, a.Wired subscriber e ∧ e.output = output := by
  rw [Agent.wanted, contains_desiredFilters]
  simp only [Agent.Wired, and_assoc]

/-- Some wired element takes an output that was not filtered for, or all filters are rebuilt. -/
def Rewired (a : Agent) (subscriber : Subscriber) : Prop :=
  ∃ e, a.Wired subscriber e ∧
    (subscriber.resetPending = true ∨ Table.contains subscriber.filters e.output = false)

private theorem isEmpty_eq_false_iff {names : NameSet} :
    names.isEmpty = false ↔ ∃ name, Table.contains names name = true := by
  simp only [← NameSet.mem_toList]
  constructor
  · intro filled
    obtain ⟨⟨name, _⟩, rest, same⟩ := List.exists_cons_of_ne_nil (List.isEmpty_eq_false_iff.mp filled)
    exact ⟨name, by rw [NameSet.toList, Table.keys, same]; exact List.mem_cons_self⟩
  · rintro ⟨name, member⟩
    obtain ⟨entry, inside, -⟩ := List.mem_map.mp member
    exact List.isEmpty_eq_false_iff.mpr (List.ne_nil_of_mem inside)

private theorem added_resolve {subscriber : Subscriber} {a : Agent} {policy : FilterPolicy} :
    (subscriber.resolve a.definition a.mapping policy).2.added =
      (a.wanted subscriber).toList.filter fun output => !subscriber.filters.contains output := rfl

private theorem rewires_iff {subscriber : Subscriber} {a : Agent} {policy : FilterPolicy} :
    (!(subscriber.resolve a.definition a.mapping policy).2.added.isEmpty ||
      ((subscriber.resolve a.definition a.mapping policy).2.reset &&
        !(subscriber.resolve a.definition a.mapping policy).1.filters.isEmpty)) = true ↔
      Rewired a subscriber := by
  have added : (subscriber.resolve a.definition a.mapping policy).2.added.isEmpty = false ↔
      ∃ e, a.Wired subscriber e ∧ Table.contains subscriber.filters e.output = false := by
    rw [added_resolve, List.isEmpty_eq_false_iff_exists_mem]
    simp only [List.mem_filter, NameSet.mem_toList, contains_wanted_iff, Bool.not_eq_true']
    constructor
    · rintro ⟨_, ⟨e, wired, rfl⟩, absent⟩
      exact ⟨e, wired, absent⟩
    · rintro ⟨e, wired, absent⟩
      exact ⟨e.output, ⟨e, wired, rfl⟩, absent⟩
  have reset : (subscriber.resolve a.definition a.mapping policy).2.reset =
      subscriber.resetPending := rfl
  rw [reset, Bool.or_eq_true, Bool.not_eq_true', Bool.and_eq_true, Bool.not_eq_true', added]
  cases pending : subscriber.resetPending with
  | false => simp [Rewired, pending]
  | true =>
    rw [filters_resolve_prune (.inl pending), isEmpty_eq_false_iff]
    change _ ∨ true = true ∧ (∃ name, Table.contains (a.wanted subscriber) name = true) ↔ _
    simp only [contains_wanted_iff, Rewired, pending, true_or, and_true, true_and]
    constructor
    · rintro (⟨e, wired, -⟩ | ⟨-, e, wired, -⟩)
      · exact ⟨e, wired⟩
      · exact ⟨e, wired⟩
    · rintro ⟨e, wired⟩
      exact .inr ⟨_, e, wired, rfl⟩

theorem outputsRequestAt_of_rewired {subscriber : Subscriber}
    (rewired : Rewired r.agent subscriber) :
    (r.resolved s subscriber).outputsRequestAt =
      some (s.now + r.settings.outputsRequestDelay) := by
  unfold Reactor.resolved
  dsimp only
  rw [if_pos (rewires_iff.mpr rewired)]
  rfl

theorem outputsRequestAt_of_not_rewired {subscriber : Subscriber}
    (settled : ¬Rewired r.agent subscriber) :
    (r.resolved s subscriber).outputsRequestAt = subscriber.outputsRequestAt := by
  unfold Reactor.resolved
  dsimp only
  rw [if_neg (rewires_iff.not.mpr settled)]
  rfl

theorem isSome_resolved {subscriber : Subscriber} (waits : subscriber.outputsRequestAt.isSome) :
    (r.resolved s subscriber).outputsRequestAt.isSome := by
  by_cases rewired : Rewired r.agent subscriber
  · rw [outputsRequestAt_of_rewired rewired]
    rfl
  · rwa [outputsRequestAt_of_not_rewired rewired]

theorem resetPending_resolved (subscriber : Subscriber) :
    (r.resolved s subscriber).resetPending = false := by
  unfold Reactor.resolved
  dsimp only
  split
  · rfl
  · rfl

theorem wired_resolved {subscriber : Subscriber} {e : Element} :
    r.agent.Wired (r.resolved s subscriber) e ↔ r.agent.Wired subscriber e := by
  unfold Reactor.resolved
  dsimp only
  split
  · rfl
  · rfl

theorem marked_cases (r : Reactor) (subscriber : Subscriber) :
    r.agent.mappingReplaced = true ∧ r.marked subscriber = subscriber.markReset ∨
      r.agent.mappingReplaced = false ∧ r.marked subscriber = subscriber := by
  unfold Reactor.marked
  cases r.agent.mappingReplaced with
  | true => exact .inl ⟨rfl, rfl⟩
  | false => exact .inr ⟨rfl, rfl⟩

theorem outputsRequestAt_marked (r : Reactor) (subscriber : Subscriber) :
    (r.marked subscriber).outputsRequestAt = subscriber.outputsRequestAt := by
  rcases marked_cases r subscriber with ⟨-, same⟩ | ⟨-, same⟩
  · rw [same]
    rfl
  · rw [same]

theorem isSome_passed {subscriber : Subscriber} (waits : subscriber.outputsRequestAt.isSome) :
    (r.passed s subscriber).outputsRequestAt.isSome :=
  isSome_resolved (by rwa [outputsRequestAt_marked])

theorem wired_passed {subscriber : Subscriber} {e : Element} :
    r.agent.Wired (r.passed s subscriber) e ↔ r.agent.Wired subscriber e := by
  refine wired_resolved.trans ?_
  rcases marked_cases r subscriber with ⟨-, same⟩ | ⟨-, same⟩
  · rw [same]
    rfl
  · rw [same]

theorem rewired_marked {subscriber : Subscriber} (settled : subscriber.resetPending = false) :
    Rewired r.agent (r.marked subscriber) ↔ ∃ e, r.agent.Wired subscriber e ∧
      (r.agent.mappingReplaced = true ∨ Table.contains subscriber.filters e.output = false) := by
  unfold Rewired
  rcases marked_cases r subscriber with ⟨replaced, same⟩ | ⟨kept, same⟩
  · rw [same, replaced]
    rfl
  · rw [same, kept, settled]

theorem reactor_resolve (s : Surroundings) (peer : String) (r : Reactor) :
    (r.resolve s peer).reactor =
      { r with subscribers := r.subscribers.modify peer (r.resolved s) } := by
  unfold Reactor.resolve Table.modify
  cases r.subscribers.get? peer with
  | none => rfl
  | some subscriber => rfl

private theorem reactor_resolveOne (s : Surroundings) (replaced : Bool) (peer : String) (r : Reactor) :
    ((if replaced then r.markReset peer else r).resolve s peer).reactor =
      { r with subscribers := r.subscribers.modify peer fun subscriber =>
          r.resolved s (if replaced then subscriber.markReset else subscriber) } := by
  cases replaced with
  | false => exact reactor_resolve s peer r
  | true =>
    refine (reactor_resolve s peer (r.markReset peer)).trans ?_
    congr 1
    exact Table.modify_modify r.subscribers peer Subscriber.markReset (r.resolved s)

/-- Steps that each change the subscriber of one peer, taken for all peers, change every subscriber
once. -/
theorem subscribers_forEach {change : Subscriber → Subscriber} {step : String → Reactor → Reaction}
    (each : ∀ peer subscribers, (step peer { r with subscribers := subscribers }).reactor =
      { r with subscribers := subscribers.modify peer change }) :
    (r.forEach r.subscribers.keys step).reactor =
      { r with subscribers := r.subscribers.mapValues fun _ => change } := by
  have loop : ∀ (peers : List String) (reaction : Reaction) (subscribers : Table Subscriber),
      reaction.reactor = { r with subscribers := subscribers } →
      (peers.foldl (fun reaction peer => reaction.andThen (step peer)) reaction).reactor =
        { r with subscribers := peers.foldl (fun t peer => t.modify peer change) subscribers } := by
    intro peers
    induction peers with
    | nil => exact fun _ _ same => same
    | cons first peers ih =>
      intro reaction subscribers same
      refine ih (reaction.andThen (step first)) _ ?_
      rw [Reaction.andThen, same, each]
  refine (loop r.subscribers.keys r.idle r.subscribers rfl).trans ?_
  rw [Table.foldl_modify_keys]

theorem reactor_pass (s : Surroundings) (dirty : r.agent.mappingDirty = true) :
    (r.announceMapping s).reactor =
      { r.setAgent r.agent.clearMappingDirty with
        subscribers := r.subscribers.mapValues fun _ => r.passed s } := by
  rw [reactor_announceMapping dirty]
  refine subscribers_forEach (r := r.setAgent r.agent.clearMappingDirty) fun peer subscribers => ?_
  exact reactor_resolveOne s r.agent.mappingReplaced peer _

/-- Between two steps no subscriber is marked for a rebuilding of its filters. -/
def Rebuilt (r : Reactor) : Prop := Everywhere (fun subscriber => subscriber.resetPending = false) r

private theorem rebuilt_insert {subscribers : Table Subscriber} {next : Subscriber}
    (rebuilt : ∀ peer subscriber, subscribers.get? peer = some subscriber →
      subscriber.resetPending = false) (settled : next.resetPending = false) (other : String) :
    ∀ peer subscriber, (subscribers.insert other next).get? peer = some subscriber →
      subscriber.resetPending = false := by
  intro peer subscriber found
  rw [Table.get?_insert] at found
  split at found
  · cases found
    exact settled
  · exact rebuilt peer subscriber found

theorem rebuilt_move {reaction : Reaction} (move : Move s cause r reaction) (rebuilt : Rebuilt r) :
    Rebuilt reaction.reactor := by
  cases move with
  | tell | change | stop | enter | exit | group | arrive | note => exact rebuilt
  | ensure id =>
    rcases ensureSubscriber_cases id r with ⟨-, same⟩ | ⟨known, endpoint, entry, -, -, same⟩
    · rw [same]
      exact rebuilt
    · rw [same]
      exact rebuilt_insert rebuilt rfl id
  | drop id =>
    rcases dropSubscriber_cases id r with same | ⟨changes, same⟩
    · rw [same]
      exact rebuilt
    · rw [same]
      intro other subscriber found
      rw [Table.get?_erase] at found
      split at found
      · cases found
      · exact rebuilt other subscriber found
  | poll id =>
    rcases requestOutputs_cases s id r with same | ⟨before, after, effects, present, taken, same⟩
    · rw [same]
      exact rebuilt
    · rw [same]
      refine rebuilt_insert rebuilt ?_ id
      have settled := rebuilt id before present
      rcases taken with ⟨rfl, -⟩ | ⟨rfl, -⟩
      · exact settled
      · exact settled
  | @takeIn id _ _ next =>
    rw [reactor_resolve]
    intro other subscriber found
    rw [Table.get?_modify, Table.get?_insert] at found
    split at found
    · obtain ⟨before, -, rfl⟩ := Option.map_eq_some_iff.mp found
      exact resetPending_resolved before
    · exact rebuilt other subscriber found
  | announceDefinition =>
    unfold Reactor.announceDefinition
    split
    · exact rebuilt
    · exact rebuilt
  | announceMapping =>
    cases dirty : r.agent.mappingDirty with
    | false =>
      rw [Reactor.announceMapping, dirty]
      exact rebuilt
    | true =>
      rw [reactor_pass s dirty]
      intro other subscriber found
      rw [Table.get?_mapValues] at found
      obtain ⟨before, -, rfl⟩ := Option.map_eq_some_iff.mp found
      exact resetPending_resolved _

variable {h : Host} {history : List HostStep}

theorem rebuilt_of_run (run : Run h history) (running : h.reactor? = some r) : Rebuilt r :=
  run.keep (fun fresh _ _ found => by rw [fresh.subscribers] at found; cases found)
    rebuilt_move running

def Asked (peer : String) (effects : List Effect) : Prop :=
  .request (.whisper peer (Command.order .requestOutputs).toFrames) ∈ effects

/-- The peer is asked for its outputs, or what was subscribed to at it is given up. -/
def Served (peer : String) (effects : List Effect) : Prop :=
  Asked peer effects ∨ .disconnect peer ∈ effects

theorem asked_whisper (s : Surroundings) (r : Reactor) (peer : String) :
    Asked peer (r.whisper s peer (.order .requestOutputs)) := List.mem_cons_self

private theorem waits_insert {subscribers : Table Subscriber} (other : String) (next : Subscriber)
    (waits : ((subscribers.get? peer).bind (·.outputsRequestAt)).isSome)
    (still : other = peer → next.outputsRequestAt.isSome) :
    (((subscribers.insert other next).get? peer).bind (·.outputsRequestAt)).isSome := by
  rw [Table.get?_insert]
  split
  next same => exact still same
  next => exact waits

private theorem waits_map {subscribers : Table Subscriber} {change : Subscriber → Subscriber}
    (kept : ∀ subscriber, subscriber.outputsRequestAt.isSome → (change subscriber).outputsRequestAt.isSome)
    (waits : ((subscribers.get? peer).bind (·.outputsRequestAt)).isSome) :
    (((subscribers.get? peer).map change).bind (·.outputsRequestAt)).isSome := by
  cases found : subscribers.get? peer with
  | none => rw [found] at waits; exact waits
  | some subscriber =>
    rw [found] at waits
    exact kept subscriber waits

theorem waits_move {reaction : Reaction} (move : Move s cause r reaction)
    (waits : (r.outputsRequestAt? peer).isSome) :
    (reaction.reactor.outputsRequestAt? peer).isSome ∨ Served peer reaction.effects := by
  cases move with
  | tell | change | stop | enter | exit | group | arrive | note => exact .inl waits
  | ensure id =>
    rcases ensureSubscriber_cases id r with ⟨-, same⟩ | ⟨known, endpoint, entry, absent, -, same⟩
    · rw [same]
      exact .inl waits
    · rw [same]
      refine .inl (waits_insert id _ waits fun equal => ?_)
      subst equal
      rw [Table.contains, Option.isSome_eq_false_iff, Option.isNone_iff_eq_none] at absent
      rw [Reactor.outputsRequestAt?, absent] at waits
      cases waits
  | drop id =>
    rcases dropSubscriber_cases id r with same | ⟨changes, same⟩
    · rw [same]
      exact .inl waits
    · rw [same]
      by_cases equal : id = peer
      · subst equal
        exact .inr (.inr (List.mem_append_right _ List.mem_cons_self))
      · refine .inl ?_
        rw [Reactor.outputsRequestAt?, Table.get?_erase, if_neg equal]
        exact waits
  | poll id =>
    rcases requestOutputs_cases s id r with same | ⟨before, after, effects, present, taken, same⟩
    · rw [same]
      exact .inl waits
    · rw [same]
      by_cases equal : id = peer
      · subst equal
        rcases taken with ⟨rfl, -⟩ | ⟨rfl, rfl⟩
        · refine .inl (waits_insert id _ waits fun _ => ?_)
          rwa [Reactor.outputsRequestAt?, present] at waits
        · exact .inr (.inl (asked_whisper s r id))
      · exact .inl (waits_insert id _ waits fun same => absurd same equal)
  | @takeIn id _ subscriber next found taken =>
    refine .inl ?_
    have kept : next.outputsRequestAt = subscriber.outputsRequestAt := by
      rcases taken with taken | taken
      · obtain ⟨definition, -, rfl⟩ := map_eq_ok.mp taken
        rfl
      · obtain ⟨mapping, -, rfl⟩ := map_eq_ok.mp taken
        rfl
    have inserted := waits_insert id next waits fun equal => by
      subst equal
      rw [Reactor.outputsRequestAt?, found] at waits
      rw [kept]
      exact waits
    rw [reactor_resolve, Reactor.outputsRequestAt?, Table.get?_modify]
    split
    · exact waits_map (fun _ => isSome_resolved) inserted
    · exact inserted
  | announceDefinition =>
    unfold Reactor.announceDefinition
    split
    · exact .inl waits
    · exact .inl waits
  | announceMapping =>
    refine .inl ?_
    cases dirty : r.agent.mappingDirty with
    | false =>
      rw [Reactor.announceMapping, dirty]
      exact waits
    | true =>
      rw [reactor_pass s dirty, Reactor.outputsRequestAt?, Table.get?_mapValues]
      exact waits_map (fun _ => isSome_passed) waits

theorem served_append_left {one : List Effect} (two : List Effect) (served : Served peer one) :
    Served peer (one ++ two) := served.imp (List.mem_append_left _) (List.mem_append_left _)

theorem served_append_right (one : List Effect) {two : List Effect} (served : Served peer two) :
    Served peer (one ++ two) := served.imp (List.mem_append_right _) (List.mem_append_right _)

theorem waits_moves {reaction : Reaction} (moves : Moves s cause r reaction)
    (waits : (r.outputsRequestAt? peer).isSome) :
    (reaction.reactor.outputsRequestAt? peer).isSome ∨ Served peer reaction.effects := by
  induction moves with
  | idle => exact .inl waits
  | tail _ move ih =>
    rcases ih with waits | served
    · exact (waits_move move waits).imp_right (served_append_right _)
    · exact .inr (served_append_left _ served)

/-- As long as the host runs, a request waits until one of its steps serves it. -/
theorem waits_after {turns : List Turn} (running : h.reactor? = some r)
    (waits : (r.outputsRequestAt? peer).isSome)
    (alive : ∀ step ∈ h.trace turns, step.host.isRunning = true) :
    (∃ step ∈ h.trace turns, Served peer step.effects) ∨
      ∃ after, (h.after turns).reactor? = some after ∧ (after.outputsRequestAt? peer).isSome := by
  induction turns generalizing h r with
  | nil => exact .inr ⟨r, running, waits⟩
  | cons t turns ih =>
    obtain ⟨first, others⟩ := List.forall_mem_cons.mp alive
    obtain ⟨after, goesOn⟩ := Option.isSome_iff_exists.mp first
    obtain ⟨s, cause, before, same, moves⟩ := goesOn_of_running running goesOn
    cases same.symm.trans running
    rcases waits_moves moves waits with waits | served
    · rcases ih goesOn waits others with ⟨step, member, served⟩ | still
      · exact .inl ⟨step, List.mem_cons_of_mem _ member, served⟩
      · exact .inr still
    · exact .inl ⟨_, List.mem_cons_self, served⟩

theorem reactor_requestOutputs (s : Surroundings) (peer : String) (r : Reactor) :
    (r.requestOutputs s peer).reactor =
      { r with subscribers := r.subscribers.modify peer fun subscriber =>
          (subscriber.takeDueRequest s.now).1 } := by
  unfold Reactor.requestOutputs Table.modify
  cases r.subscribers.get? peer with
  | none => rfl
  | some subscriber => rfl

private theorem asked_requestOutputs {time : Nat} (waits : r.outputsRequestAt? peer = some time)
    (due : time ≤ s.now) : Asked peer (r.requestOutputs s peer).effects := by
  obtain ⟨subscriber, found, armed⟩ := Option.bind_eq_some_iff.mp waits
  have taken : subscriber.takeDueRequest s.now = ({ subscriber with outputsRequestAt := none }, true) := by
    simp [Subscriber.takeDueRequest, Subscriber.isDue, armed, due]
  unfold Reactor.requestOutputs
  rw [found]
  dsimp only
  rw [taken]
  exact asked_whisper s r peer

/-- The peers before it in the loop leave a peer's request as it is. -/
theorem asked_requestDueOutputs {time : Nat} (waits : r.outputsRequestAt? peer = some time)
    (due : time ≤ s.now) : Asked peer (r.requestDueOutputs s).effects := by
  have loop : ∀ (peers : List String) (reaction : Reaction),
      (Asked peer reaction.effects ∨
        peer ∈ peers ∧ reaction.reactor.outputsRequestAt? peer = some time) →
      Asked peer (peers.foldl
        (fun reaction peer => reaction.andThen (Reactor.requestOutputs s peer)) reaction).effects := by
    intro peers
    induction peers with
    | nil =>
      intro reaction sofar
      exact sofar.resolve_right fun ⟨member, _⟩ => by cases member
    | cons first peers ih =>
      intro reaction sofar
      refine ih _ ?_
      rcases sofar with asked | ⟨member, waits⟩
      · exact .inl (List.mem_append_left _ asked)
      by_cases same : first = peer
      · subst same
        exact .inl (List.mem_append_right _ (asked_requestOutputs waits due))
      · refine .inr ⟨(List.mem_cons.mp member).resolve_left (Ne.symm same), ?_⟩
        have untouched := reactor_requestOutputs s first reaction.reactor
        simp only [Reaction.andThen, untouched, Reactor.outputsRequestAt?, Table.get?_modify, same,
          if_false]
        exact waits
  obtain ⟨subscriber, found, -⟩ := Option.bind_eq_some_iff.mp waits
  exact loop r.subscribers.keys r.idle (.inr ⟨Table.mem_keys.mpr ⟨subscriber, found⟩, waits⟩)

theorem asked_turn {time : Nat} (running : h.reactor? = some r)
    (waits : r.outputsRequestAt? peer = some time) (due : time ≤ s.now) :
    Asked peer (h.turn (.happen s .outputsTimer)).effects := by
  have asked := asked_requestDueOutputs waits due
  change Asked peer (h.react s .outputsTimer).effects
  unfold Host.react Host.settle
  rw [running]
  dsimp only
  split
  · exact List.mem_append_left _ asked
  · exact asked

/-- In every run, a pass that finds the mapping changed sets the time to ask a peer for its outputs
when an element takes an output of it and either that was not filtered for or the mapping was replaced
as a whole. Otherwise the request is left as it was, also when a new element takes what is filtered for
already. A request that is set stays, as long as the host runs, until the peer is asked or its
subscriber is dropped, and at its time it is asked. -/
theorem new_wires_ask {h : Host} {history : List HostStep} {r : Reactor} (run : Run h history)
    (running : h.reactor? = some r) (dirty : r.agent.mappingDirty = true) (s : Surroundings)
    {peer : String} {before : Subscriber} (found : r.subscribers.get? peer = some before) :
    let passed := (h.turn (.happen s .mappingTimer)).host
    ∃ next after, passed.reactor? = some next ∧ next.subscribers.get? peer = some after ∧
      (∀ e, next.agent.Wired after e →
        r.agent.mappingReplaced = true ∨ Table.contains before.filters e.output = false →
          after.outputsRequestAt = some (s.now + r.settings.outputsRequestDelay)) ∧
      ((∀ e, next.agent.Wired after e →
        r.agent.mappingReplaced = false ∧ Table.contains before.filters e.output = true) →
          after.outputsRequestAt = before.outputsRequestAt) ∧
      (after.outputsRequestAt.isSome → ∀ turns,
        (∀ step ∈ passed.trace turns, step.host.isRunning = true) →
        (∃ step ∈ passed.trace turns, Served peer step.effects) ∨
          ∃ later time, (passed.after turns).reactor? = some later ∧
            later.outputsRequestAt? peer = some time ∧
            ∀ s, time ≤ s.now →
              Asked peer ((passed.after turns).turn (.happen s .outputsTimer)).effects) := by
  intro passed
  have pass := reactor_pass s dirty
  have calm : r.stopReason = none := run.stopReason running
  have settled := rebuilt_of_run run running peer before found
  have goesOn : passed.reactor? = some (r.announceMapping s).reactor := by
    have unstopped : (r.react s .mappingTimer).reactor.stopReason = none := by
      change (r.announceMapping s).reactor.stopReason = none
      rw [pass]
      exact calm
    change (h.react s .mappingTimer).host.reactor? = _
    rw [react_of_running running unstopped]
    rfl
  have placed : (r.announceMapping s).reactor.subscribers.get? peer = some (r.passed s before) := by
    rw [pass, Table.get?_mapValues, found]
    rfl
  have wired : ∀ e, (r.announceMapping s).reactor.agent.Wired (r.passed s before) e ↔
      r.agent.Wired before e := by
    intro e
    have same : r.agent.Wired (r.passed s before) e ↔ r.agent.Wired before e := wired_passed
    rw [pass]
    exact same
  refine ⟨_, r.passed s before, goesOn, placed, ?_, ?_, ?_⟩
  · intro e new cause
    exact outputsRequestAt_of_rewired ((rewired_marked settled).mpr ⟨e, (wired e).mp new, cause⟩)
  · intro known
    rw [Reactor.passed, outputsRequestAt_of_not_rewired, outputsRequestAt_marked]
    rw [rewired_marked settled]
    rintro ⟨e, old, cause⟩
    obtain ⟨kept, filtered⟩ := known e ((wired e).mpr old)
    rcases cause with replaced | absent
    · exact Bool.false_ne_true (kept.symm.trans replaced)
    · exact Bool.false_ne_true (absent.symm.trans filtered)
  · intro waits turns alive
    have armed : ((r.announceMapping s).reactor.outputsRequestAt? peer).isSome := by
      rw [Reactor.outputsRequestAt?, placed]
      exact waits
    rcases waits_after goesOn armed alive with served | ⟨later, same, still⟩
    · exact .inl served
    · obtain ⟨time, set⟩ := Option.isSome_iff_exists.mp still
      exact .inr ⟨later, time, same, set, fun s due => asked_turn same set due⟩

private def springText : String :=
  "\x7b\"definition\":\x7b\"name\":\"spring\",\"outputs\":[\x7b\"name\":\"flow\"," ++
    "\"type\":\"INTEGER\"\x7d]\x7d\x7d"

private def cisternTurns : List Turn := [
  .start .calm "" "host" ⟨"1", "cistern", none⟩ (.ok ⟨4000, none⟩),
  .edit (.create .input "level" .integer none),
  .edit (.create .input "reserve" .integer none),
  .happen .calm (.presence (.enter "p" "spring" "host" (Table.ofList [("publisher", "5000")]))),
  .happen .calm (.presence (.join "p" "spring" privateChannel)),
  .happen .calm (.presence (.whisper "p" "spring"
    (Command.enclosure .externalDefinition springText).toFrames)),
  .edit (.addElement "level" "spring" "flow")]

private def cistern : Host := (Host.new "cistern" Config.empty "c").after cisternTurns

private def minuteLater : Surroundings := { Surroundings.calm with now := 60000 }

/-- The spring has been asked for the flow, and then a second input takes it. -/
private def sharedTurns : List Turn := [
  .happen minuteLater .outputsTimer,
  .edit (.addElement "reserve" "spring" "flow")]

private def shared : Host := (cistern.turn (.happen .calm .mappingTimer)).host.after sharedTurns

private def reshared : Host := (shared.turn (.happen minuteLater .mappingTimer)).host

private def levelElement : Element := ⟨"level", "spring", "flow"⟩

private def reserveElement : Element := ⟨"reserve", "spring", "flow"⟩

private structure Wiring where
  dirty : Bool
  filters : List String
  level : Bool
  reserve : Bool
  askAt : Option Nat
  deriving DecidableEq

private def wiringOf (r : Reactor) (subscriber : Subscriber) : Wiring where
  dirty := r.agent.mappingDirty
  filters := subscriber.filters.toList
  level := decide (r.agent.Wired subscriber levelElement)
  reserve := decide (r.agent.Wired subscriber reserveElement)
  askAt := subscriber.outputsRequestAt

private def wiring? (h : Host) : Option Wiring :=
  h.reactor?.bind fun r => (r.subscribers.get? "p").map (wiringOf r)

private theorem wiring?_eq {w : Wiring} (same : wiring? h = some w) :
    ∃ r subscriber, h.reactor? = some r ∧ r.subscribers.get? "p" = some subscriber ∧
      wiringOf r subscriber = w := by
  obtain ⟨r, running, rest⟩ := Option.bind_eq_some_iff.mp same
  obtain ⟨subscriber, found, equal⟩ := Option.map_eq_some_iff.mp rest
  exact ⟨r, subscriber, running, found, equal⟩

/-- One evaluation serves all four states, since each goes on from the one before. -/
private theorem wirings :
    wiring? cistern = some ⟨true, [], true, false, none⟩ ∧
      wiring? (cistern.turn (.happen .calm .mappingTimer)).host =
        some ⟨false, ["flow"], true, false, some 100⟩ ∧
      wiring? shared = some ⟨true, ["flow"], true, true, none⟩ ∧
      wiring? reshared = some ⟨false, ["flow"], true, true, none⟩ := by
  decide +kernel

theorem cistern_asks_spring :
    let filled := (cistern.turn (.happen .calm .mappingTimer)).host
    ∃ (history : List HostStep) (r next : Reactor) (before after : Subscriber),
      Run cistern history ∧ cistern.reactor? = some r ∧ r.agent.mappingDirty = true ∧
        r.subscribers.get? "p" = some before ∧ before.outputsRequestAt = none ∧
        filled.reactor? = some next ∧ next.subscribers.get? "p" = some after ∧
        next.agent.Wired after levelElement ∧
        after.outputsRequestAt = some (Surroundings.calm.now + r.settings.outputsRequestDelay) ∧
        ∃ time, next.outputsRequestAt? "p" = some time ∧
          ∀ s : Surroundings, time ≤ s.now →
            Asked "p" (filled.turn (.happen s .outputsTimer)).effects := by
  obtain ⟨history, run⟩ : ∃ history, Run cistern history :=
    run_after cisternTurns (.new "cistern" Config.empty "c")
  obtain ⟨r, before, running, found, state⟩ := wiring?_eq wirings.1
  obtain ⟨dirty, filters, -, -, unset⟩ := Wiring.mk.inj state
  obtain ⟨next, after, passed, there, arms, -, lasts⟩ :=
    new_wires_ask run running dirty .calm found
  obtain ⟨other, same, goesOn, placed, result⟩ := wiring?_eq wirings.2.1
  cases goesOn.symm.trans passed
  cases placed.symm.trans there
  have wired := of_decide_eq_true (Wiring.mk.inj result).2.2.1
  have absent : Table.contains before.filters "flow" = false := by
    rw [← Bool.not_eq_true, ← NameSet.mem_toList, filters]
    exact List.not_mem_nil
  have armed := arms levelElement wired (.inr absent)
  refine ⟨history, r, _, before, _, run, running, dirty, found, unset, passed, there, wired, armed, ?_⟩
  have served := lasts (by rw [armed]; rfl) [] fun _ member => by cases member
  rw [Host.after, List.foldl_nil] at served
  rcases served with ⟨_, member, -⟩ | ⟨later, time, still, set, due⟩
  · cases member
  · cases still.symm.trans passed
    exact ⟨time, set, due⟩

/-- An element that was not wired at the last pass takes an output that is filtered for already. The
next pass finds it wired, and the spring is not to be asked. -/
theorem shared_output_is_not_asked_for :
    let filled := (cistern.turn (.happen .calm .mappingTimer)).host
    ∃ (history : List HostStep) (last r next : Reactor) (earlier before after : Subscriber),
      filled.reactor? = some last ∧ last.subscribers.get? "p" = some earlier ∧
        ¬last.agent.Wired earlier reserveElement ∧
        Run shared history ∧ shared.reactor? = some r ∧ r.agent.mappingDirty = true ∧
        r.subscribers.get? "p" = some before ∧
        reshared.reactor? = some next ∧ next.subscribers.get? "p" = some after ∧
        next.agent.Wired after reserveElement ∧ after.outputsRequestAt = none := by
  obtain ⟨early, start⟩ : ∃ history, Run cistern history :=
    run_after cisternTurns (.new "cistern" Config.empty "c")
  obtain ⟨history, run⟩ : ∃ history, Run shared history :=
    run_after sharedTurns (start.turn (.happen .calm .mappingTimer))
  obtain ⟨last, earlier, passed, there, unwired⟩ := wiring?_eq wirings.2.1
  obtain ⟨r, before, running, found, state⟩ := wiring?_eq wirings.2.2.1
  obtain ⟨next, after, goesOn, placed, result⟩ := wiring?_eq wirings.2.2.2
  obtain ⟨-, -, -, wired, unset⟩ := Wiring.mk.inj result
  exact ⟨history, last, r, next, earlier, before, after, passed, there,
    of_decide_eq_false (Wiring.mk.inj unwired).2.2.2.1, run, running, (Wiring.mk.inj state).1, found,
    goesOn, placed, of_decide_eq_true wired, unset⟩

end Proofs.OutputRequests
end PeerMesh
