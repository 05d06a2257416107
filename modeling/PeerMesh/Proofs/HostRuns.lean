import PeerMesh.Host.Basic
import PeerMesh.Proofs.ReactorMoves

/-! Runs of a host. What its user asks, what its peers send and what its timers do come in any
order. A turn goes on with the reactor by moves, starts a new one, or ends it, and the agent outlives
all of them. -/

namespace PeerMesh

def Surroundings.calm : Surroundings := ⟨fun _ => none, fun _ => none, 0⟩

/-- What a host does or meets with next. -/
inductive Turn where
  | edit (e : Edit)
  | start (s : Surroundings) (temporary hostAddress : String) (process : ProcessIdentity)
      (publisher : Except FileFault PublisherAddress)
  | request (control : Control)
  /-- The reactor takes the oldest request from its queue. -/
  | take (s : Surroundings)
  | happen (s : Surroundings) (stimulus : Stimulus)

/-- A host after a turn. What is refused changes nothing, and requests come by the queue only. -/
def Host.turn (h : Host) : Turn → HostStep
  | .edit e =>
    match h.edit e with
    | .ok step => step
    | .error _ => ⟨h, []⟩
  | .start s temporary hostAddress process publisher =>
    let (effects, started) := h.start s temporary hostAddress process publisher
    ⟨started.toOption.getD h, effects⟩
  | .request control => ⟨(h.request control).toOption.getD h, []⟩
  | .take s => h.takeOne s
  | .happen _ (.control _) => ⟨h, []⟩
  | .happen s stimulus => h.react s stimulus

def Host.after (h : Host) (turns : List Turn) : Host := turns.foldl (fun h t => (h.turn t).host) h

def Host.trace (h : Host) : List Turn → List HostStep
  | [] => []
  | t :: turns => h.turn t :: (h.turn t).host.trace turns

def Turn.FiresMapping (t : Turn) : Prop := ∃ s, t = .happen s .mappingTimer

namespace Proofs.HostRuns
open AgentChanges Outcomes ReactorMoves

/-- A run of a host from its beginning, with its turns, the latest first. -/
inductive Run : Host → List HostStep → Prop where
  | new (name : String) (config : Config) (nodeId : String) : Run (Host.new name config nodeId) []
  | turn {h : Host} {history : List HostStep} (run : Run h history) (t : Turn) :
      Run (h.turn t).host (h.turn t :: history)

theorem after_append (h : Host) (one two : List Turn) :
    h.after (one ++ two) = (h.after one).after two := List.foldl_append

theorem trace_append (h : Host) (one two : List Turn) :
    h.trace (one ++ two) = h.trace one ++ (h.after one).trace two := by
  induction one generalizing h with
  | nil => rfl
  | cons t one ih => exact congrArg (h.turn t :: ·) (ih (h.turn t).host)

theorem run_after {h : Host} {history : List HostStep} (turns : List Turn) (run : Run h history) :
    ∃ longer, Run (h.after turns) longer := by
  induction turns generalizing h history with
  | nil => exact ⟨history, run⟩
  | cons t turns ih => exact ih (run.turn t)

structure Fresh (r : Reactor) : Prop where
  directory : r.directory = Directory.empty
  subscribers : r.subscribers = Table.empty
  stopReason : r.stopReason = none

variable {h : Host} {r after : Reactor}

theorem activity_of_reactor? (running : h.reactor? = some r) : h.activity = .running r := by
  unfold Host.reactor? at running
  split at running
  next same => rw [same, Option.some.inj running]
  next => cases running

theorem agent_of_reactor? (running : h.reactor? = some r) : h.agent = r.agent := by
  rw [Host.agent, activity_of_reactor? running]

theorem reactor?_settle {reaction : Reaction}
    (running : (h.settle reaction).host.reactor? = some after) :
    h.settle reaction = ⟨{ h with activity := .running reaction.reactor }, reaction.effects⟩ ∧
      after = reaction.reactor := by
  unfold Host.settle at running ⊢
  dsimp only at running ⊢
  split at running
  · cases running
  next goesOn =>
    cases running
    exact ⟨if_neg goesOn, rfl⟩

def GoesOn (h : Host) (step : HostStep) (after : Reactor) : Prop :=
  ∃ (s : Surroundings) (cause : Stimulus) (r : Reactor), h.reactor? = some r ∧
    Moves s cause r ⟨after, step.effects⟩

private theorem goesOn_react {s : Surroundings} {stimulus : Stimulus}
    (running : (h.react s stimulus).host.reactor? = some after) :
    GoesOn h (h.react s stimulus) after := by
  unfold Host.react at running ⊢
  split at running
  next r same =>
    obtain ⟨settled, rfl⟩ := reactor?_settle running
    rw [settled]
    exact ⟨s, stimulus, r, same, moves_react stimulus⟩
  next stopped => rw [stopped] at running; cases running

private theorem goesOn_same {step : HostStep} (kept : step.host.reactor? = h.reactor?)
    (quiet : step.effects = []) (running : step.host.reactor? = some after) :
    GoesOn h step after :=
  ⟨.calm, .expired, after, kept ▸ running, quiet ▸ .idle⟩

/-- An edit of a running host goes into its reactor's agent. -/
private theorem reactor_of_edit {e : Edit} {step : HostStep} (done : h.edit e = .ok step)
    (running : step.host.reactor? = some after) :
    ∃ r edited, h.reactor? = some r ∧ e.apply h.agent = .ok edited ∧
      after = r.setAgent edited.agent ∧
      step.effects = (edited.published.map Effect.publish).toList ++ edited.told.map Effect.notify := by
  obtain ⟨edited, applied, rfl⟩ := map_eq_ok.mp done
  cases same : h.activity with
  | idle agent => simp [Host.setAgent, Host.reactor?, Host.isRunning, same] at running
  | lost agent => simp [Host.setAgent, Host.reactor?, Host.isRunning, same] at running
  | running r =>
    have reactor : h.reactor? = some r := by rw [Host.reactor?, same]
    have alive : h.isRunning = true := by rw [Host.isRunning, reactor]; rfl
    rw [if_pos alive] at running ⊢
    refine ⟨r, edited, reactor, applied, ?_, rfl⟩
    simpa [Host.reactor?, Host.setAgent, same, eq_comm] using running

private theorem goesOn_edit {e : Edit} {step : HostStep} (done : h.edit e = .ok step)
    (running : step.host.reactor? = some after) : GoesOn h step after := by
  obtain ⟨r, edited, reactor, applied, rfl, told⟩ := reactor_of_edit done running
  have changes := changes_of_edit applied
  rw [agent_of_reactor? reactor] at changes
  refine ⟨.calm, .expired, r, reactor, ?_⟩
  rw [told]
  refine (Moves.single (.change changes)).tail (.tell ?_)
  refine silent_append (fun effect member => ?_) (silent_map fun _ => rfl)
  obtain ⟨message, -, rfl⟩ := Option.map_eq_some_iff.mp (Option.mem_toList.mp member)
  rfl

private theorem activity_request {control : Control} {next : Host}
    (asked : h.request control = .ok next) : next.activity = h.activity := by
  have ask {control : Control} (asked : h.ask control = .ok next) : next.activity = h.activity := by
    unfold Host.ask at asked
    split at asked
    · cases asked
      rfl
    · cases asked
  have askGroup {group : String} {control : Control} (asked : h.askGroup group control = .ok next) :
      next.activity = h.activity := by
    unfold Host.askGroup at asked
    split at asked
    · cases asked
    · exact ask asked
  cases control with
  | terminate | notice | busWhisper => exact ask asked
  | busJoin | busLeave | busShout => exact askGroup asked

theorem activity_turn_request (control : Control) :
    (h.turn (.request control)).host.activity = h.activity := by
  unfold Host.turn
  dsimp only
  cases asked : h.request control with
  | error fault => rfl
  | ok next => exact activity_request asked

theorem agent_turn_request (control : Control) :
    (h.turn (.request control)).host.agent = h.agent := by
  rw [Host.agent, Host.agent, activity_turn_request]

private theorem goesOn_take {s : Surroundings}
    (running : (h.takeOne s).host.reactor? = some after) :
    GoesOn h (h.takeOne s) after := by
  unfold Host.takeOne at running ⊢
  split at running
  · exact goesOn_same rfl rfl running
  · exact goesOn_react running

private theorem fresh_of_setup {s : Surroundings} {agent : Agent} {settings : ReactorSettings}
    {nodeId hostAddress : String} {process : ProcessIdentity}
    {publisher : Except FileFault PublisherAddress}
    (started : (Reactor.setup s agent settings nodeId hostAddress process publisher).2 = .ok r) :
    Fresh r ∧ r.agent = agent := by
  unfold Reactor.setup at started
  split at started
  · cases started
  dsimp only at started
  split at started
  · cases started
  split at started
  · cases started
  · cases started
    exact ⟨⟨rfl, rfl, rfl⟩, rfl⟩

section Launch
variable {agent : Agent} {reactor : Reactor}

/-- The host once its reactor has been set up, which an expiry beyond the clock loses at once. -/
private def launched (h : Host) (agent : Agent) (reactor : Reactor) (beyond : Bool) : Host :=
  { h with activity := if beyond then .lost agent else .running reactor, queue := [] }

private theorem agent_launched (same : reactor.agent = agent) (beyond : Bool) :
    (launched h agent reactor beyond).agent = agent := by
  cases beyond with
  | true => rfl
  | false => exact same

private theorem eq_of_reactor?_launched {beyond : Bool}
    (running : (launched h agent reactor beyond).reactor? = some r) : r = reactor := by
  cases beyond with
  | true => cases running
  | false => exact (Option.some.inj running).symm

end Launch

/-- What is refused leaves the host as it was, and it cannot be started while it is running. -/
private theorem start_cases {s : Surroundings} {temporary hostAddress : String}
    {process : ProcessIdentity} {publisher : Except FileFault PublisherAddress} {effects : List Effect}
    {started : Except AgentFault Host}
    (tried : h.start s temporary hostAddress process publisher = (effects, started)) :
    (∃ fault, started = .error fault ∧ (h.isRunning = true → effects = [])) ∨
      ∃ next, started = .ok next ∧ next.agent = h.agent ∧ h.reactor? = none ∧
        ∀ r, next.reactor? = some r → Fresh r := by
  unfold Host.start at tried
  split at tried
  · cases tried
    exact .inl ⟨_, rfl, fun _ => rfl⟩
  · cases tried
    exact .inl ⟨_, rfl, fun _ => rfl⟩
  next agent idle =>
    have kept : h.agent = agent := by rw [Host.agent, idle]
    dsimp only at tried
    generalize result : Reactor.setup s agent _ h.nodeId hostAddress process publisher = made at tried
    obtain ⟨told, outcome⟩ := made
    obtain ⟨-, rfl⟩ := Prod.mk.inj tried
    cases outcome with
    | error fault =>
      refine .inl ⟨fault, rfl, fun running => ?_⟩
      simp [Host.isRunning, Host.reactor?, idle] at running
    | ok reactor =>
      obtain ⟨fresh, same⟩ := fresh_of_setup (congrArg Prod.snd result)
      refine .inr ⟨launched h agent reactor _, rfl, (agent_launched same _).trans kept.symm,
        by rw [Host.reactor?, idle], ?_⟩
      intro r running
      rw [eq_of_reactor?_launched running]
      exact fresh

/-- Only a host without a reactor starts one. -/
private theorem goesOn_or_started {t : Turn} (running : (h.turn t).host.reactor? = some after) :
    GoesOn h (h.turn t) after ∨ h.reactor? = none ∧ Fresh after := by
  cases t with
  | edit e =>
    refine .inl ?_
    unfold Host.turn at running ⊢
    dsimp only at running ⊢
    split at running
    next step done => exact goesOn_edit done running
    next => exact goesOn_same rfl rfl running
  | start s temporary hostAddress process publisher =>
    unfold Host.turn at running ⊢
    dsimp only at running ⊢
    generalize tried : h.start s temporary hostAddress process publisher = outcome at running ⊢
    obtain ⟨effects, started⟩ := outcome
    rcases start_cases tried with ⟨fault, rfl, quiet⟩ | ⟨next, rfl, -, stopped, fresh⟩
    · refine .inl (goesOn_same rfl (quiet ?_) running)
      change h.reactor? = some after at running
      rw [Host.isRunning, running]
      rfl
    · exact .inr ⟨stopped, fresh after running⟩
  | request control =>
    refine .inl (goesOn_same ?_ rfl running)
    rw [Host.reactor?, Host.reactor?, activity_turn_request]
  | take s => exact .inl (goesOn_take running)
  | happen s stimulus =>
    refine .inl ?_
    cases stimulus with
    | control control => exact goesOn_same rfl rfl running
    | _ => exact goesOn_react running

/-- A reactor is there after a turn because it went on or because it was started. -/
theorem turn_cases {t : Turn} (running : (h.turn t).host.reactor? = some after) :
    GoesOn h (h.turn t) after ∨ Fresh after := (goesOn_or_started running).imp id And.right

/-- A reactor that is there before and after a turn has gone on. -/
theorem goesOn_of_running {t : Turn} (before : h.reactor? = some r)
    (running : (h.turn t).host.reactor? = some after) : GoesOn h (h.turn t) after :=
  (goesOn_or_started running).resolve_right fun started => by
    rw [before] at started
    cases started.1

private theorem stopReason_react {s : Surroundings} {stimulus : Stimulus}
    (running : (h.react s stimulus).host.reactor? = some after) : after.stopReason = none := by
  unfold Host.react Host.settle at running
  dsimp only at running
  split at running
  · split at running
    · cases running
    next goesOn =>
      cases running
      exact Option.not_isSome_iff_eq_none.mp goesOn
  next stopped => rw [stopped] at running; cases running

private theorem stopReason_turn {t : Turn} (kept : ∀ r, h.reactor? = some r → r.stopReason = none)
    (running : (h.turn t).host.reactor? = some after) : after.stopReason = none := by
  cases t with
  | edit e =>
    unfold Host.turn at running
    dsimp only at running
    split at running
    next step done =>
      obtain ⟨r, edited, same, -, rfl, -⟩ := reactor_of_edit done running
      exact kept r same
    next => exact kept after running
  | start s temporary hostAddress process publisher =>
    unfold Host.turn at running
    dsimp only at running
    generalize tried : h.start s temporary hostAddress process publisher = outcome at running
    obtain ⟨effects, started⟩ := outcome
    rcases start_cases tried with ⟨fault, rfl, -⟩ | ⟨next, rfl, -, -, fresh⟩
    · exact kept after running
    · exact (fresh after running).stopReason
  | request control =>
    refine kept after ?_
    rwa [Host.reactor?, activity_turn_request] at running
  | take s =>
    change (h.takeOne s).host.reactor? = some after at running
    unfold Host.takeOne at running
    split at running
    · exact kept after running
    · exact stopReason_react running
  | happen s stimulus =>
    cases stimulus with
    | control control => exact kept after running
    | _ => exact stopReason_react running

theorem Run.stopReason {history : List HostStep} (run : Run h history)
    (running : h.reactor? = some r) : r.stopReason = none := by
  induction run generalizing r with
  | new => cases running
  | turn run t ih => exact stopReason_turn (fun _ => ih) running

/-- What a running host makes of a reaction that gives no reason to stop. -/
theorem react_of_running {s : Surroundings} {stimulus : Stimulus} (running : h.reactor? = some r)
    (goesOn : (r.react s stimulus).reactor.stopReason = none) :
    h.react s stimulus = ⟨{ h with activity := .running (r.react s stimulus).reactor },
      (r.react s stimulus).effects⟩ := by
  unfold Host.react Host.settle
  rw [running]
  dsimp only
  rw [goesOn]
  rfl

section Turns
variable {s : Surroundings} {e : Edit}

theorem turn_edit {edited : Edited} (running : h.reactor? = some r)
    (applied : e.apply r.agent = .ok edited) :
    h.turn (.edit e) = ⟨{ h with
        activity := .running (r.setAgent edited.agent)
        queue := h.queue ++ (edited.notice.map Control.notice).toList },
      (edited.published.map Effect.publish).toList ++ edited.told.map Effect.notify⟩ := by
  rw [← agent_of_reactor? running] at applied
  simp only [Host.turn, Host.edit, applied, Except.map, Host.isRunning, running, Option.isSome_some,
    if_true, Host.setAgent, activity_of_reactor? running]

theorem turn_refused {fault : AgentFault} (refused : e.apply h.agent = .error fault) :
    h.turn (.edit e) = ⟨h, []⟩ := by
  simp only [Host.turn, Host.edit, refused, Except.map]

/-- An edit that has nothing to change. -/
theorem turn_unchanged (applied : e.apply h.agent = .ok (.silent h.agent)) :
    h.turn (.edit e) = ⟨h, []⟩ := by
  have same : h.setAgent h.agent = h := by
    obtain ⟨config, nodeId, activity, queue⟩ := h
    cases activity <;> rfl
  simp only [Host.turn, Host.edit, applied, Except.map, Edited.silent, same]
  split
  · rw [Option.map_none, Option.map_none, Option.toList_none, Option.toList_none, List.append_nil]
    rfl
  · rfl

theorem turn_edit_refused {fault : AgentFault} (running : h.reactor? = some r)
    (refused : e.apply r.agent = .error fault) : h.turn (.edit e) = ⟨h, []⟩ := by
  rw [← agent_of_reactor? running] at refused
  exact turn_refused refused

theorem turn_take_nothing (empty : h.queue = []) : h.turn (.take s) = ⟨h, []⟩ := by
  simp only [Host.turn, Host.takeOne, empty]

theorem turn_take {command : Command} {rest : List Control} (running : h.reactor? = some r)
    (calm : r.stopReason = none) (waits : h.queue = .notice command :: rest) :
    h.turn (.take s) = ⟨{ h with queue := rest }, r.shoutNotice s command⟩ := by
  have taken : h.turn (.take s) =
      Host.react s { h with queue := rest } (.control (.notice command)) := by
    simp only [Host.turn, Host.takeOne, waits]
  have still : Host.reactor? { h with queue := rest } = some r := running
  have goesOn : (r.react s (.control (.notice command))).reactor.stopReason = none := calm
  rw [taken, react_of_running still goesOn]
  change HostStep.mk { h with activity := .running r, queue := rest } _ = _
  rw [← activity_of_reactor? running]
  rfl

/-- A command that gives no reason to stop is logged, and the host goes on. -/
theorem settle_handleCommand {command : Command} {peer : String}
    (goesOn : (r.execute s peer (r.peerName peer) command).reaction.reactor.stopReason = none) :
    ∃ log, h.settle (r.handleCommand s peer command) =
      ⟨{ h with activity :=
          .running (r.execute s peer (r.peerName peer) command).reaction.reactor },
        (r.execute s peer (r.peerName peer) command).reaction.effects ++ [.log log]⟩ := by
  obtain ⟨log, handled⟩ := handleCommand_eq s peer command r
  refine ⟨log, ?_⟩
  rw [handled]
  unfold Host.settle
  dsimp only [Reaction.andThen, Reactor.tell]
  rw [goesOn]
  rfl

theorem turn_whisper {frames : List Bytes} {command : Command} {sender : String}
    (running : h.reactor? = some r) (read : Command.ofFrames frames = .ok command)
    (goesOn : (r.execute s sender (r.peerName sender) command).reaction.reactor.stopReason = none)
    (name : String) :
    ∃ log, h.turn (.happen s (.presence (.whisper sender name frames))) =
      ⟨{ h with activity :=
          .running (r.execute s sender (r.peerName sender) command).reaction.reactor },
        (r.execute s sender (r.peerName sender) command).reaction.effects ++ [.log log]⟩ := by
  have whispered : h.turn (.happen s (.presence (.whisper sender name frames))) =
      h.settle (r.handleCommand s sender command) := by
    simp only [Host.turn, Host.react, running, Reactor.react, Reactor.handlePresence,
      Reactor.handleWhisper, read]
  rw [whispered]
  exact settle_handleCommand goesOn

end Turns

/-- One change of a host's agent, or one of the two announcements, that of the mapping only when it
may be made. -/
inductive Evolution (fires : Prop) : Agent → Agent → Prop where
  | change {a b : Agent} (change : Change a b) : Evolution fires a b
  | announceDefinition (a : Agent) :
      Evolution fires a { a.clearDefinitionDirty with mappingDirty := true }
  | announceMapping (a : Agent) (due : fires) : Evolution fires a a.clearMappingDirty

abbrev Evolves (fires : Prop) : Agent → Agent → Prop := Relation.ReflTransGen (Evolution fires)

variable {fires : Prop} {s : Surroundings} {cause : Stimulus} {reaction : Reaction}

theorem Evolution.imp {others : Prop} {a b : Agent} (weaker : fires → others)
    (evolution : Evolution fires a b) : Evolution others a b := by
  cases evolution with
  | change change => exact .change change
  | announceDefinition => exact .announceDefinition a
  | announceMapping due => exact .announceMapping a (weaker due)

theorem evolves_of_changes {a b : Agent} (changes : Changes a b) : Evolves fires a b :=
  changes.lift id fun _ _ change => .change change

theorem evolves_of_rewires (rewired : Rewires r reaction) :
    Evolves fires r.agent reaction.reactor.agent := by
  obtain ⟨subscribers, same⟩ := rewired
  rw [same]

theorem evolves_of_move (move : Move s cause r reaction) :
    Evolves (cause = .mappingTimer) r.agent reaction.reactor.agent := by
  cases move with
  | tell | stop | enter | exit | group | arrive | note => exact .refl
  | change changes => exact evolves_of_changes changes
  | ensure peer => exact evolves_of_rewires (rewires_ensureSubscriber peer r)
  | drop peer => exact evolves_of_rewires (rewires_dropSubscriber peer r)
  | poll peer => exact evolves_of_rewires (rewires_requestOutputs peer r)
  | @takeIn peer => exact evolves_of_rewires (rewires_resolve peer _)
  | announceDefinition =>
    unfold Reactor.announceDefinition
    split
    · exact .single (.announceDefinition r.agent)
    · exact .refl
  | announceMapping due =>
    cases dirty : r.agent.mappingDirty with
    | true =>
      rw [reactor_announceMapping dirty]
      exact .head (.announceMapping r.agent due)
        (evolves_of_rewires (rewires_resolveAll _ (r.setAgent r.agent.clearMappingDirty)))
    | false =>
      rw [Reactor.announceMapping, dirty]
      exact .refl

theorem evolves_of_moves (moves : Moves s cause r reaction) :
    Evolves (cause = .mappingTimer) r.agent reaction.reactor.agent := by
  induction moves with
  | idle => exact .refl
  | @tail _ next _ move ih => exact ih.trans (@evolves_of_move _ _ _ next move)

theorem agent_settle (h : Host) (reaction : Reaction) :
    (h.settle reaction).host.agent = reaction.reactor.agent := by
  unfold Host.settle
  dsimp only
  split <;> rfl

theorem agent_react (running : h.reactor? = some r) (s : Surroundings) (stimulus : Stimulus) :
    (h.react s stimulus).host.agent = (r.react s stimulus).reactor.agent := by
  unfold Host.react
  rw [running]
  exact agent_settle h _

theorem agent_edit {e : Edit} {edited : Edited} (applied : e.apply h.agent = .ok edited) :
    (h.turn (.edit e)).host.agent = edited.agent := by
  have kept : (h.setAgent edited.agent).agent = edited.agent := by
    cases same : h.activity <;> simp [Host.setAgent, Host.agent, same, Reactor.setAgent]
  simp only [Host.turn, Host.edit, applied, Except.map]
  split
  · exact kept
  · exact kept

theorem agent_turn_start (s : Surroundings) (temporary hostAddress : String) (process : ProcessIdentity)
    (publisher : Except FileFault PublisherAddress) :
    (h.turn (.start s temporary hostAddress process publisher)).host.agent = h.agent := by
  unfold Host.turn
  dsimp only
  generalize tried : h.start s temporary hostAddress process publisher = outcome
  obtain ⟨effects, started⟩ := outcome
  rcases start_cases tried with ⟨fault, rfl, -⟩ | ⟨next, rfl, kept, -, -⟩
  · rfl
  · exact kept

private theorem evolves_react (h : Host) (s : Surroundings) (stimulus : Stimulus) :
    Evolves (stimulus = .mappingTimer) h.agent (h.react s stimulus).host.agent := by
  cases running : h.reactor? with
  | some r =>
    rw [agent_react running, agent_of_reactor? running]
    exact evolves_of_moves (moves_react stimulus)
  | none =>
    rw [Host.react, running]

/-- Whatever a turn brings, the agent goes on from where it was. -/
theorem evolves_turn (t : Turn) : Evolves t.FiresMapping h.agent (h.turn t).host.agent := by
  cases t with
  | edit e =>
    cases applied : e.apply h.agent with
    | ok edited =>
      rw [agent_edit applied]
      exact evolves_of_changes (changes_of_edit applied)
    | error fault => rw [turn_refused applied]
  | start => rw [agent_turn_start]
  | request control => rw [agent_turn_request]
  | take s =>
    change Evolves _ h.agent (h.takeOne s).host.agent
    unfold Host.takeOne
    split
    · exact .refl
    next control rest _ =>
      exact (evolves_react { h with queue := rest } s (.control control)).lift id
        fun _ _ evolution => evolution.imp fun other => by cases other
  | happen s stimulus =>
    cases stimulus with
    | control control => exact .refl
    | _ => exact (evolves_react h s _).lift id fun _ _ evolution => evolution.imp fun same =>
        ⟨s, by rw [same]⟩

/-- An agent that a new one, with a sanitized name, can become. -/
def Reachable (a : Agent) : Prop :=
  ∃ (name : String) (permitted : Bool),
    Evolves True { Agent.new (Name.sanitize name) with canBeFrozen := permitted } a

theorem Reachable.evolve {a b : Agent} (reachable : Reachable a) (evolves : Evolves fires a b) :
    Reachable b := by
  obtain ⟨name, permitted, before⟩ := reachable
  exact ⟨name, permitted, before.trans
    (evolves.lift id fun _ _ evolution => evolution.imp fun _ => trivial)⟩

theorem Run.reachable {history : List HostStep} (run : Run h history) : Reachable h.agent := by
  induction run with
  | new name config nodeId => exact ⟨name, config.canBeFrozen, .refl⟩
  | turn run t ih => exact ih.evolve (evolves_turn t)

/-- What the start of a reactor brings about and every move and every edit keep holds of every
reactor. -/
theorem Run.keep {property : Reactor → Prop} (fresh : ∀ {r}, Fresh r → property r)
    (step : ∀ {s cause r reaction}, Move s cause r reaction → property r → property reaction.reactor)
    {history : List HostStep} (run : Run h history) (running : h.reactor? = some r) : property r := by
  induction run generalizing r with
  | new => cases running
  | turn run t ih =>
    rcases turn_cases running with ⟨s, cause, before, same, moves⟩ | started
    · exact moves.keep step (ih same)
    · exact fresh started

end Proofs.HostRuns
end PeerMesh
