import PeerMesh.Proofs.HostRuns
import PeerMesh.Proofs.Resolution

/-! The filters of a reactor follow its agent. A change of the definition or the mapping is marked, and
as long as nothing is marked every subscriber filters for what is wanted of its peer: under the
pruning policy for exactly that, otherwise for at least that. A replacement of the mapping stays
marked until the next pass, which then makes all filters exact. -/

namespace PeerMesh.Proofs.FilterSync
open AgentChanges HostRuns Outcomes ReactorMoves Resolution

def Exact (a : Agent) (subscriber : Subscriber) : Prop := subscriber.filters = a.wanted subscriber

/-- What a policy promises of the filters once they have been brought in line. -/
def Follows (policy : FilterPolicy) (a : Agent) (subscriber : Subscriber) : Prop :=
  match policy with
  | .prune => Exact a subscriber
  | .retain => ∀ output, Table.contains (a.wanted subscriber) output = true →
      Table.contains subscriber.filters output = true

def Everywhere (property : Subscriber → Prop) (r : Reactor) : Prop :=
  ∀ peer subscriber, r.subscribers.get? peer = some subscriber → property subscriber

/-- While nothing is marked as changed, every subscriber is in line with the agent. -/
def InLine (r : Reactor) : Prop :=
  r.agent.definitionDirty = false → r.agent.mappingDirty = false →
    Everywhere (Follows r.settings.filterPolicy r.agent) r

theorem Exact.follows {a : Agent} {subscriber : Subscriber} (exact : Exact a subscriber)
    (policy : FilterPolicy) : Follows policy a subscriber := by
  cases policy with
  | prune => exact exact
  | retain =>
    intro output wanted
    rw [exact, wanted]

theorem Follows.congr {policy : FilterPolicy} {a b : Agent} {subscriber : Subscriber}
    (same : b.wanted subscriber = a.wanted subscriber) (follows : Follows policy a subscriber) :
    Follows policy b subscriber := by
  cases policy with
  | prune => exact Eq.trans follows same.symm
  | retain => exact fun output wanted => follows output (same ▸ wanted)

structure Alike (one two : Subscriber) : Prop where
  peerName : one.peerName = two.peerName
  definition : one.definition = two.definition
  filters : one.filters = two.filters

theorem Follows.alike {policy : FilterPolicy} {a : Agent} {one two : Subscriber}
    (alike : Alike one two) (follows : Follows policy a two) : Follows policy a one := by
  have same : a.wanted one = a.wanted two := by
    rw [Agent.wanted, Agent.wanted, alike.peerName, alike.definition]
  cases policy with
  | prune => exact alike.filters.trans (Eq.trans follows same.symm)
  | retain =>
    intro output wanted
    rw [alike.filters]
    exact follows output (same ▸ wanted)

theorem exact_new (a : Agent) (id name : String) : Exact a (Subscriber.new id name) := rfl

theorem exact_of_resolved {a : Agent} {policy : FilterPolicy} {before after : Subscriber}
    (resolved : Resolved a policy before after) (pruned : prunes before policy) : Exact a after := by
  rw [Exact, resolved.filters, filters_resolve_prune pruned, Agent.wanted, resolved.peerName,
    resolved.definition]

theorem follows_of_resolved {a : Agent} {policy : FilterPolicy} {before after : Subscriber}
    (resolved : Resolved a policy before after) : Follows policy a after := by
  cases policy with
  | prune => exact exact_of_resolved resolved (.inr rfl)
  | retain =>
    intro output wanted
    rw [Agent.wanted, resolved.peerName, resolved.definition] at wanted
    rw [resolved.filters]
    exact contains_resolve before _ _ _ wanted

variable {s : Surroundings} {cause : Stimulus} {r : Reactor}

def Passed (replaced : Bool) (policy : FilterPolicy) (a : Agent) (subscriber : Subscriber) : Prop :=
  if replaced then Exact a subscriber else Follows policy a subscriber

/-- One step of the pass: its peer's subscriber is in order, and the others are as before. -/
private theorem passed_step {replaced : Bool} {peer other : String} {after : Subscriber}
    (found : ((if replaced then r.markReset peer else r).resolve s peer).reactor.subscribers.get? other =
      some after) :
    (other ≠ peer ∧ r.subscribers.get? other = some after) ∨
      Passed replaced r.settings.filterPolicy r.agent after := by
  cases replaced with
  | false =>
    rcases resolve_cases found with untouched | ⟨-, before, -, resolved⟩
    · exact .inl untouched
    · exact .inr (follows_of_resolved resolved)
  | true =>
    rcases resolve_cases (r := r.markReset peer) found with ⟨different, same⟩ | ⟨-, before, marked, resolved⟩
    · refine .inl ⟨different, ?_⟩
      simpa [Reactor.markReset, Ne.symm different] using same
    · refine .inr (exact_of_resolved resolved (.inl ?_))
      simp only [Reactor.markReset, Table.get?_modify, if_true] at marked
      obtain ⟨original, -, rfl⟩ := Option.map_eq_some_iff.mp marked
      rfl

/-- The invariant of the pass is that those whose turn is over are in order. -/
theorem passed_resolveAll (s : Surroundings) (replaced : Bool) (r : Reactor) :
    Everywhere (Passed replaced r.settings.filterPolicy r.agent) (resolveAll s replaced r).reactor := by
  have loop : ∀ (peers : List String) (reaction : Reaction), Rewires r reaction →
      (∀ peer subscriber, reaction.reactor.subscribers.get? peer = some subscriber →
        peer ∈ peers ∨ Passed replaced r.settings.filterPolicy r.agent subscriber) →
      Everywhere (Passed replaced r.settings.filterPolicy r.agent)
        (peers.foldl (fun reaction peer => reaction.andThen fun r =>
          (if replaced then r.markReset peer else r).resolve s peer) reaction).reactor := by
    intro peers
    induction peers with
    | nil =>
      intro reaction _ left peer subscriber found
      exact (left peer subscriber found).resolve_left (by simp)
    | cons first peers ih =>
      intro reaction rewired left
      have step := rewires_resolveOne (s := s) replaced first reaction.reactor
      refine ih _ (rewired.append step) fun peer subscriber found => ?_
      rcases passed_step found with ⟨different, same⟩ | passed
      · exact (left peer subscriber same).imp
          (fun member => (List.mem_cons.mp member).resolve_left different) id
      · obtain ⟨subscribers, same⟩ := rewired
        rw [same] at passed
        exact .inr passed
  refine loop _ r.idle ⟨r.subscribers, rfl⟩ fun peer subscriber found => .inl ?_
  exact Table.mem_keys.mpr ⟨subscriber, found⟩

private theorem inLine_of_same {after : Reactor} (agent : after.agent = r.agent)
    (settings : after.settings = r.settings)
    (subscribers : ∀ peer subscriber, after.subscribers.get? peer = some subscriber →
      (∃ before, r.subscribers.get? peer = some before ∧ Alike subscriber before) ∨
        Exact r.agent subscriber)
    (inLine : InLine r) : InLine after := by
  intro definition mapping peer subscriber found
  rw [agent] at definition mapping ⊢
  rw [settings]
  rcases subscribers peer subscriber found with ⟨before, same, alike⟩ | exact
  · exact (inLine definition mapping peer before same).alike alike
  · exact exact.follows _

private theorem Alike.refl (subscriber : Subscriber) : Alike subscriber subscriber := ⟨rfl, rfl, rfl⟩

private theorem inLine_ensure (peer : String) (inLine : InLine r) :
    InLine (r.ensureSubscriber peer).reactor := by
  rcases ensureSubscriber_cases peer r with ⟨-, same⟩ | ⟨known, endpoint, entry, -, -, same⟩
  · rw [same]
    exact inLine
  · rw [same]
    refine inLine_of_same (r := r) rfl rfl (fun other subscriber found => ?_) inLine
    rw [Table.get?_insert] at found
    split at found
    · cases found
      exact .inr (exact_new r.agent peer known.name)
    · exact .inl ⟨subscriber, found, .refl subscriber⟩

private theorem inLine_drop (peer : String) (inLine : InLine r) :
    InLine (r.dropSubscriber peer).reactor := by
  rcases dropSubscriber_cases peer r with same | ⟨changes, same⟩
  · rw [same]
    exact inLine
  · rw [same]
    refine inLine_of_same (r := r) rfl rfl (fun other subscriber found => ?_) inLine
    rw [Table.get?_erase] at found
    split at found
    · cases found
    · exact .inl ⟨subscriber, found, .refl subscriber⟩

private theorem inLine_poll (peer : String) (inLine : InLine r) :
    InLine (r.requestOutputs s peer).reactor := by
  rcases requestOutputs_cases s peer r with same | ⟨before, after, effects, present, taken, same⟩
  · rw [same]
    exact inLine
  · rw [same]
    refine inLine_of_same (r := r) rfl rfl (fun other subscriber found => ?_) inLine
    rw [Table.get?_insert] at found
    split at found
    next equal =>
      subst equal
      cases found
      refine .inl ⟨before, present, ?_⟩
      rcases taken with ⟨rfl, -⟩ | ⟨rfl, -⟩
      · exact .refl _
      · exact ⟨rfl, rfl, rfl⟩
    next => exact .inl ⟨subscriber, found, .refl subscriber⟩

private theorem inLine_takeIn (peer : String) (next : Subscriber) (inLine : InLine r) :
    InLine ({ r with subscribers := r.subscribers.insert peer next }.resolve s peer).reactor := by
  obtain ⟨subscribers, same⟩ :=
    rewires_resolve (s := s) peer { r with subscribers := r.subscribers.insert peer next }
  intro definition mapping other subscriber found
  rw [same] at definition mapping ⊢
  rcases resolve_cases found with ⟨different, kept⟩ | ⟨-, before, -, resolved⟩
  · rw [Table.get?_insert, if_neg (Ne.symm different)] at kept
    exact inLine definition mapping other subscriber kept
  · exact follows_of_resolved resolved

theorem inLine_change {agent : Agent} (changes : Changes r.agent agent) (inLine : InLine r) :
    InLine (r.setAgent agent) := by
  intro definition mapping peer subscriber found
  have noted := noted_of_changes changes
  obtain ⟨unmarked, outline⟩ := noted.definition definition
  obtain ⟨still, same⟩ := noted.mapping mapping
  exact (inLine unmarked still peer subscriber found).congr (wanted_congr outline same subscriber)

private theorem inLine_announceDefinition (inLine : InLine r) :
    InLine (r.announceDefinition s).reactor := by
  unfold Reactor.announceDefinition
  split
  · intro _ mapping
    cases mapping
  · exact inLine

private theorem passed_announceMapping (s : Surroundings) (dirty : r.agent.mappingDirty = true) :
    (r.announceMapping s).reactor.settings = r.settings ∧
      Everywhere
        (Passed r.agent.mappingReplaced r.settings.filterPolicy (r.announceMapping s).reactor.agent)
        (r.announceMapping s).reactor := by
  have passed := passed_resolveAll s r.agent.mappingReplaced (r.setAgent r.agent.clearMappingDirty)
  obtain ⟨subscribers, same⟩ :=
    rewires_resolveAll (s := s) r.agent.mappingReplaced (r.setAgent r.agent.clearMappingDirty)
  rw [reactor_announceMapping dirty]
  rw [same] at passed ⊢
  exact ⟨rfl, passed⟩

private theorem inLine_announceMapping (inLine : InLine r) :
    InLine (r.announceMapping s).reactor := by
  cases dirty : r.agent.mappingDirty with
  | false =>
    rw [Reactor.announceMapping, dirty]
    exact inLine
  | true =>
    intro _ _ peer subscriber found
    obtain ⟨settings, passed⟩ := passed_announceMapping s dirty
    have result := passed peer subscriber found
    rw [settings]
    unfold Passed at result
    split at result
    · exact result.follows _
    · exact result

theorem inLine_move {reaction : Reaction} (move : Move s cause r reaction) (inLine : InLine r) :
    InLine reaction.reactor := by
  cases move with
  | tell | stop | enter | exit | group | arrive | note => exact inLine
  | change changes => exact inLine_change changes inLine
  | ensure peer => exact inLine_ensure peer inLine
  | drop peer => exact inLine_drop peer inLine
  | poll peer => exact inLine_poll peer inLine
  | @takeIn peer _ _ next => exact inLine_takeIn peer next inLine
  | announceDefinition => exact inLine_announceDefinition inLine
  | announceMapping => exact inLine_announceMapping inLine

variable {h : Host} {history : List HostStep}

theorem inLine_of_run (run : Run h history) (running : h.reactor? = some r) : InLine r :=
  run.keep (fun fresh _ _ peer subscriber found => by rw [fresh.subscribers] at found; cases found)
    inLine_move running

theorem mappingDirty_of_evolves {fires : Prop} {a b : Agent} (evolves : Evolves fires a b)
    (start : a.mappingReplaced = true → a.mappingDirty = true) :
    b.mappingReplaced = true → b.mappingDirty = true := by
  induction evolves with
  | refl => exact start
  | tail _ evolution ih =>
    intro replaced
    cases evolution with
    | change change =>
      have noted := noted_of_change change
      rcases noted.due replaced with before | marked
      · cases dirty : Agent.mappingDirty _ with
        | true => rfl
        | false => rw [← (noted.mapping dirty).1]; exact ih before
      · exact marked
    | announceDefinition => rfl
    | announceMapping => cases replaced

/-- A replacement of the mapping is never forgotten. -/
theorem mappingDirty_of_run (run : Run h history) :
    h.agent.mappingReplaced = true → h.agent.mappingDirty = true := by
  obtain ⟨name, permitted, evolves⟩ := run.reachable
  exact mappingDirty_of_evolves evolves fun replaced => by cases replaced

theorem replaced_of_evolves {fires : Prop} (silent : ¬fires) {a b : Agent}
    (evolves : Evolves fires a b) (replaced : a.mappingReplaced = true) :
    b.mappingReplaced = true := by
  induction evolves with
  | refl => exact replaced
  | tail _ evolution ih =>
    cases evolution with
    | change change => exact (noted_of_change change).kept ih
    | announceDefinition => exact ih
    | announceMapping due => exact absurd due silent

inductive ReplacesMapping (h : Host) : Turn → Prop where
  | clear : ReplacesMapping h (.edit .clearMapping)
  | load {text : String} {mapping : Mapping} (path : Option String)
      (read : Mapping.ofText text = .ok mapping) :
      ReplacesMapping h (.edit (.load .mapping text path))
  | commandedClear {r : Reactor} {frames : List Bytes} (s : Surroundings) (peer name : String)
      (running : h.reactor? = some r) (command : Command.ofFrames frames = .ok (.order .clearMapping)) :
      ReplacesMapping h (.happen s (.presence (.whisper peer name frames)))
  | commandedLoad {r : Reactor} {frames : List Bytes} {text : String} {mapping : Mapping}
      (s : Surroundings) (peer name : String) (running : h.reactor? = some r)
      (command : Command.ofFrames frames = .ok (.enclosure .loadMapping text))
      (read : Mapping.ofText text = .ok mapping) :
      ReplacesMapping h (.happen s (.presence (.whisper peer name frames)))

theorem replaced_turn {t : Turn} (replaces : ReplacesMapping h t) :
    (h.turn t).host.agent.mappingReplaced = true := by
  cases replaces with
  | clear => rw [agent_edit rfl]; rfl
  | @load text mapping path read =>
    have applied : Edit.apply h.agent (.load .mapping text path) =
        .ok (.silent { h.agent.replaceMapping mapping with mappingPath := path.or h.agent.mappingPath }) := by
      simp only [Edit.apply, Agent.load, Agent.loadMapping, read]
      rfl
    rw [agent_edit applied]
    rfl
  | commandedClear s peer name running command =>
    change (h.react s _).host.agent.mappingReplaced = true
    rw [agent_react running, Reactor.react, Reactor.handlePresence, Reactor.handleWhisper]
    simp only [command]
    rfl
  | commandedLoad s peer name running command read =>
    change (h.react s _).host.agent.mappingReplaced = true
    rw [agent_react running, Reactor.react, Reactor.handlePresence, Reactor.handleWhisper]
    simp only [command, Reactor.handleCommand, Reactor.execute, Agent.loadMapping, read]
    rfl

theorem replaced_after {turns : List Turn} (silent : ∀ t ∈ turns, ¬t.FiresMapping)
    (replaced : h.agent.mappingReplaced = true) : (h.after turns).agent.mappingReplaced = true := by
  induction turns generalizing h with
  | nil => exact replaced
  | cons t turns ih =>
    obtain ⟨first, others⟩ := List.forall_mem_cons.mp silent
    exact ih others (replaced_of_evolves first (evolves_turn t) replaced)

/-- The pass after a replacement makes all filters exact. -/
theorem exact_of_mappingTimer {after : Reactor} (run : Run h history)
    (replaced : h.agent.mappingReplaced = true)
    (running : (h.turn (.happen s .mappingTimer)).host.reactor? = some after) :
    Everywhere (Exact after.agent) after := by
  cases same : h.reactor? with
  | none =>
    simp only [Host.turn, Host.react, same] at running
    cases running
  | some r =>
    simp only [Host.turn, Host.react, same] at running
    obtain ⟨-, rfl⟩ := reactor?_settle running
    have dirty := mappingDirty_of_run run replaced
    rw [agent_of_reactor? same] at dirty replaced
    have passed := (passed_announceMapping s dirty).2
    rw [replaced] at passed
    exact passed

/-- A definition that is accepted makes the filters for its peer exact. -/
theorem exact_of_externalDefinition {peer name text : String} {remark : Option Remark}
    (accepted : (r.execute s peer name (.enclosure .externalDefinition text)).outcome = .ok remark) :
    let after := (r.execute s peer name (.enclosure .externalDefinition text)).reaction.reactor
    ∃ subscriber definition, after.subscribers.get? peer = some subscriber ∧
      Definition.ofText text = .ok definition ∧ subscriber.definition = some definition ∧
        Exact after.agent subscriber := by
  simp only [Reactor.execute, Reactor.executeExternal] at accepted ⊢
  split at accepted
  · cases accepted
  next before found =>
    split at accepted
    · cases accepted
    next next applied =>
      obtain ⟨definition, read, rfl⟩ := map_eq_ok.mp applied
      obtain ⟨after, subscribers, same, found, resolved⟩ :=
        resolve_taken s (r.ensureSubscriber peer).reactor peer
          { before with definition := some definition, resetPending := true }
      refine ⟨after, definition, ?_, read, resolved.definition, ?_⟩
      · simp only [Execution.accepted, Reaction.andThen, same, found]
      · simp only [Execution.accepted, Reaction.andThen, same]
        exact exact_of_resolved resolved (.inl rfl)

/-- In every run, filters are in line whenever neither mark is set. They are exact after a pass that
follows a replacement, be it of the peer's definition or of the mapping, and no replacement is
forgotten before its pass. -/
theorem filters_follow_agent {h : Host} {history : List HostStep} (run : Run h history) :
    (∀ r, h.reactor? = some r → r.agent.definitionDirty = false → r.agent.mappingDirty = false →
      Everywhere (Follows r.settings.filterPolicy r.agent) r) ∧
    (∀ (r : Reactor) (s : Surroundings) (peer name text : String) (frames : List Bytes)
        (remark : Option Remark), h.reactor? = some r →
      Command.ofFrames frames = .ok (.enclosure .externalDefinition text) →
      (r.execute s peer (r.peerName peer) (.enclosure .externalDefinition text)).outcome =
        .ok remark →
      let after := (r.react s (.presence (.whisper peer name frames))).reactor
      ∃ subscriber definition, after.subscribers.get? peer = some subscriber ∧
        Definition.ofText text = .ok definition ∧ subscriber.definition = some definition ∧
          Exact after.agent subscriber) ∧
    (∀ (t : Turn) (turns : List Turn) (s : Surroundings) (r : Reactor), ReplacesMapping h t →
      (∀ t ∈ turns, ¬t.FiresMapping) →
      (h.after (t :: turns ++ [.happen s .mappingTimer])).reactor? = some r →
      Everywhere (Exact r.agent) r) ∧
    (h.agent.mappingReplaced = true → h.agent.mappingDirty = true) := by
  refine ⟨fun r running => inLine_of_run run running, ?_, ?_, mappingDirty_of_run run⟩
  · intro r s peer name text frames remark _ command accepted
    have exact := exact_of_externalDefinition accepted
    rw [Reactor.react, Reactor.handlePresence, Reactor.handleWhisper]
    simp only [command]
    exact exact
  · intro t turns s r replaces silent running
    obtain ⟨longer, later⟩ := run_after turns (run.turn t)
    have replaced := replaced_after silent (replaced_turn replaces)
    rw [Host.after, List.cons_append, List.foldl_cons, List.foldl_append] at running
    exact exact_of_mappingTimer (s := s) later replaced running

private def pumpText : String :=
  "\x7b\"definition\":\x7b\"name\":\"pump\",\"outputs\":[\x7b\"name\":\"flow\"," ++
    "\"type\":\"INTEGER\"\x7d]\x7d\x7d"

private def tankTurns : List Turn := [
  .start .calm "" "host" ⟨"1", "tank", none⟩ (.ok ⟨4000, none⟩),
  .edit (.create .input "level" .integer none),
  .edit (.addElement "level" "pump" "flow"),
  .happen .calm (.presence (.enter "p" "pump" "host" (Table.ofList [("publisher", "5000")]))),
  .happen .calm (.presence (.join "p" "pump" privateChannel)),
  .happen .calm (.presence (.whisper "p" "pump"
    (Command.enclosure .externalDefinition pumpText).toFrames)),
  .happen .calm .definitionTimer,
  .happen .calm .mappingTimer]

private def tank : Host := (Host.new "tank" Config.empty "t").after tankTurns

private def pumpFilters (h : Host) : Option (Bool × Bool × Option (List String)) :=
  h.reactor?.map fun r => (r.agent.definitionDirty, r.agent.mappingDirty,
    (r.subscribers.get? "p").map (·.filters.toList))

theorem filters_follow_tank :
    (pumpFilters tank = some (false, false, some ["flow"]) ∧
      ∀ r, tank.reactor? = some r → Everywhere (Follows r.settings.filterPolicy r.agent) r) ∧
    pumpFilters (tank.after [.edit .clearMapping, .happen .calm .mappingTimer]) =
      some (false, false, some []) ∧
    ∀ r, (tank.after [.edit .clearMapping, .happen .calm .mappingTimer]).reactor? = some r →
      Everywhere (Exact r.agent) r := by
  obtain ⟨history, run⟩ := run_after tankTurns (.new "tank" Config.empty "t")
  have settled : pumpFilters tank = some (false, false, some ["flow"]) := by decide +kernel
  refine ⟨⟨settled, fun r running => ?_⟩, by decide +kernel, fun r running => ?_⟩
  · rw [pumpFilters, running] at settled
    obtain ⟨definition, mapping⟩ := Prod.mk.inj (Option.some.inj settled)
    exact (filters_follow_agent run).1 r running definition (Prod.mk.inj mapping).1
  · exact (filters_follow_agent run).2.2.1 _ [] .calm r .clear (fun _ member => by cases member) running

end PeerMesh.Proofs.FilterSync
