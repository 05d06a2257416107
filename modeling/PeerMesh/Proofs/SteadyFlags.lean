import PeerMesh.Proofs.InputTypes
import PeerMesh.Proofs.Notices
import PeerMesh.Proofs.Writes

/-! What leaves the flags of an agent alone. Only an edit of the host or an order of a peer sets one, and
only the host permits that the agent is frozen. In any other turn flags and permission stay as they are,
and the host is told nothing of flags. -/

namespace PeerMesh

def HostEvent.flag? : HostEvent → Option (Flag × Bool)
  | .muteChanged on => some (.muted, on)
  | .freezeChanged on => some (.frozen, on)
  | _ => none

def Effect.flag? : Effect → Option (Flag × Bool)
  | .notify event => event.flag?
  | _ => none

def Effect.flags (effects : List Effect) : List (Flag × Bool) := effects.filterMap Effect.flag?

/-- The flag that a turn is to set, and how: by an edit of the host or by a peer's order. -/
def Turn.sets? : Turn → Option (Flag × Bool)
  | .edit e => e.flag?
  | .happen _ (.presence (.whisper _ _ frames)) =>
    match Command.ofFrames frames with
    | .ok (.order order) => order.flag?
    | _ => none
  | _ => none

def Turn.permits? : Turn → Option Bool
  | .edit (.permitFreezing permitted) => some permitted
  | _ => none

structure Agent.Alike (a b : Agent) : Prop where
  muted : b.muted = a.muted
  frozen : b.frozen = a.frozen
  canBeFrozen : b.canBeFrozen = a.canBeFrozen

namespace Proofs.SteadyFlags
open HostRuns Outcomes ReactorMoves

variable {h : Host} {r : Reactor} {s : Surroundings} {a b c : Agent} {reaction : Reaction}

theorem flags_append (one two : List Effect) :
    Effect.flags (one ++ two) = Effect.flags one ++ Effect.flags two := List.filterMap_append

theorem flags_of_silent {effects : List Effect} (silent : ∀ e ∈ effects, e.flag? = none) :
    Effect.flags effects = [] := List.filterMap_eq_nil_iff.mpr silent

theorem alike_refl (a : Agent) : a.Alike a := ⟨rfl, rfl, rfl⟩

theorem alike_trans (first : a.Alike b) (last : b.Alike c) : a.Alike c :=
  ⟨last.muted.trans first.muted, last.frozen.trans first.frozen,
    last.canBeFrozen.trans first.canBeFrozen⟩

theorem flag_of_alike (alike : a.Alike b) (flag : Flag) : b.flag flag = a.flag flag := by
  cases flag with
  | muted => exact alike.muted
  | frozen => exact alike.frozen

private theorem alike_of_map {α : Type} {x : Except ModelFault α} {make : α → Agent}
    (done : x.map make = .ok b) (each : ∀ value, a.Alike (make value)) : a.Alike b := by
  obtain ⟨value, -, rfl⟩ := map_eq_ok.mp done
  exact each value

private theorem alike_addElement {input agent output : String} {id : UInt64}
    (done : a.addElement input agent output = .ok (b, id)) : a.Alike b := by
  obtain ⟨_, -, same⟩ := map_eq_ok.mp done
  cases same
  exact ⟨rfl, rfl, rfl⟩

private theorem alike_setOutputMuted {output : String} {muted : Bool}
    (done : a.setOutputMuted output muted = .ok b) : a.Alike b := by
  unfold Agent.setOutputMuted at done
  split at done
  · cases done
    exact ⟨rfl, rfl, rfl⟩
  · cases done

private theorem alike_deliver (a : Agent) (peerName : String) (m : DataMessage) :
    a.Alike (a.deliver peerName m).agent := by
  obtain ⟨inputs, same⟩ := (InputTypes.delivered_deliver a peerName m).rest
  rw [same]
  exact ⟨rfl, rfl, rfl⟩

private theorem alike_load {text : String} {path : Option String} {document : Document}
    (done : a.load text path document = .ok b) : a.Alike b := by
  cases document with
  | definition | mapping =>
    obtain ⟨loaded, read, rfl⟩ := map_eq_ok.mp done
    exact alike_trans (alike_of_map read fun _ => ⟨rfl, rfl, rfl⟩) ⟨rfl, rfl, rfl⟩

/-- An edit of anything else changes neither flags nor permission, and the host is told nothing of
flags. -/
private theorem alike_of_edit {e : Edit} {edited : Edited} (other : e.flag? = none)
    (plain : ∀ permitted, e ≠ .permitFreezing permitted) (done : e.apply a = .ok edited) :
    a.Alike edited.agent ∧ ∀ event ∈ edited.told, event.flag? = none := by
  have silent {b : Agent} (alike : a.Alike b) :
      a.Alike (Edited.silent b).agent ∧ ∀ event ∈ (Edited.silent b).told, event.flag? = none :=
    ⟨alike, fun _ member => by cases member⟩
  cases e with
  | create | remove | removeElement | removeElementById =>
    obtain ⟨b, changed, rfl⟩ := map_eq_ok.mp done
    exact silent (alike_of_map (lift_eq_ok.mp changed) fun _ => ⟨rfl, rfl, rfl⟩)
  | write kind name value =>
    have written := lift_eq_ok.mp done
    rw [Writes.write_eq] at written
    obtain ⟨⟨definition, stored⟩, -, rfl⟩ := map_eq_ok.mp written
    exact ⟨⟨rfl, rfl, rfl⟩, List.forall_mem_singleton.mpr rfl⟩
  | load document text path =>
    obtain ⟨b, loaded, rfl⟩ := map_eq_ok.mp done
    exact silent (alike_load (lift_eq_ok.mp loaded))
  | addElement input agent output =>
    obtain ⟨⟨b, id⟩, added, rfl⟩ := map_eq_ok.mp done
    exact silent (alike_addElement (lift_eq_ok.mp added))
  | muteOutput output muted =>
    obtain ⟨b, set, rfl⟩ := map_eq_ok.mp done
    exact ⟨alike_setOutputMuted (lift_eq_ok.mp set), List.forall_mem_singleton.mpr rfl⟩
  | clearMapping | setState =>
    cases done
    exact ⟨⟨rfl, rfl, rfl⟩, fun _ member => by cases member⟩
  | mute | freeze => cases other
  | permitFreezing permitted => exact absurd rfl (plain permitted)

/-- Leaves flags and permission as the agent has them, and tells the host nothing of flags. What becomes
of the peers and their subscribers does not matter to it. -/
structure Still (reaction : Reaction) (a : Agent) : Prop where
  alike : a.Alike reaction.reactor.agent
  silent : ∀ e ∈ reaction.effects, e.flag? = none

theorem Still.idle : Still r.idle r.agent := ⟨alike_refl _, fun _ member => by cases member⟩

theorem Still.append {more : Reaction} (first : Still reaction a)
    (last : Still more reaction.reactor.agent) :
    Still ⟨more.reactor, reaction.effects ++ more.effects⟩ a :=
  ⟨alike_trans first.alike last.alike, List.forall_mem_append.mpr ⟨first.silent, last.silent⟩⟩

theorem Still.forEach {α : Type} {step : α → Reactor → Reaction}
    (each : ∀ item r, Still (step item r) r.agent) (items : List α) (r : Reactor) :
    Still (r.forEach items step) r.agent :=
  forEach_keep (Still · r.agent) .idle fun item _ reaction sofar =>
    sofar.append (each item reaction.reactor)

theorem Still.ofRewires (rewired : Rewires r reaction)
    (silent : ∀ e ∈ reaction.effects, e.flag? = none) : Still reaction r.agent := by
  obtain ⟨subscribers, same⟩ := rewired
  exact ⟨by rw [same]; exact alike_refl _, silent⟩

private theorem silent_send (r : Reactor) (request : Presence.Request) (action target : String)
    (command : Command) : ∀ e ∈ r.send s request action target command, e.flag? = none :=
  forall_send rfl fun _ => rfl

theorem silent_shoutNotice (r : Reactor) (command : Command) :
    ∀ e ∈ r.shoutNotice s command, e.flag? = none := silent_send r _ _ _ command

private theorem silent_cons {first : Effect} {effects : List Effect} (one : first.flag? = none)
    (others : ∀ e ∈ effects, e.flag? = none) : ∀ e ∈ first :: effects, e.flag? = none :=
  List.forall_mem_cons.mpr ⟨one, others⟩

private theorem silent_nil : ∀ e ∈ ([] : List Effect), e.flag? = none := fun _ member => by
  cases member

private theorem silent_whispers (r : Reactor) (peer : String) (commands : List Command) :
    ∀ e ∈ commands.flatMap (r.whisper s peer), e.flag? = none := by
  intro e member
  obtain ⟨command, -, sent⟩ := List.mem_flatMap.mp member
  exact silent_send r _ _ _ command e sent

private theorem silent_whisperJoined (r : Reactor) (command : Command) :
    ∀ e ∈ r.whisperJoined s command, e.flag? = none := by
  intro e member
  obtain ⟨peer, -, sent⟩ := List.mem_flatMap.mp member
  exact silent_send r _ _ _ command e sent

private theorem still_ensureSubscriber (peer : String) (r : Reactor) :
    Still (r.ensureSubscriber peer) r.agent :=
  .ofRewires (rewires_ensureSubscriber peer r) (forall_ensureSubscriber r (fun _ => rfl) fun _ => rfl)

private theorem still_dropSubscriber (peer : String) (r : Reactor) :
    Still (r.dropSubscriber peer) r.agent :=
  .ofRewires (rewires_dropSubscriber peer r) (forall_dropSubscriber r (fun _ => rfl) rfl)

private theorem still_resolve (peer : String) (r : Reactor) : Still (r.resolve s peer) r.agent :=
  .ofRewires (rewires_resolve peer r) (forall_resolve r (fun _ => rfl) fun _ => rfl)

private theorem still_requestOutputs (peer : String) (r : Reactor) :
    Still (r.requestOutputs s peer) r.agent := by
  refine .ofRewires (rewires_requestOutputs peer r) ?_
  rcases requestOutputs_cases s peer r with
    same | ⟨before, after, effects, -, ⟨-, rfl⟩ | ⟨-, rfl⟩, same⟩
  · rw [same]
    exact silent_nil
  · rw [same]
    exact silent_nil
  · rw [same]
    exact silent_send r _ _ _ _

private theorem still_deliver (peerName : String) (m : DataMessage) (r : Reactor) :
    Still (r.deliver peerName m) r.agent :=
  ⟨alike_deliver r.agent peerName m, forall_deliver r (fun _ _ => rfl) fun _ => rfl⟩

private theorem still_muteOutput (output : String) (muted : Bool) :
    Still (r.muteOutput s output muted).reaction r.agent := by
  unfold Reactor.muteOutput
  split
  · exact .idle
  next set => exact ⟨alike_setOutputMuted set, silent_cons rfl (silent_shoutNotice _ _)⟩

private theorem still_save (document : Document) : Still (r.save s document).reaction r.agent := by
  unfold Reactor.save
  split
  · exact .idle
  split
  · exact .idle
  · exact ⟨alike_refl _, silent_cons rfl silent_nil⟩

private theorem still_set (kind : SlotKind) (name text : String) :
    Still (r.set kind name text).reaction r.agent := by
  cases set : r.agent.setText kind name text with
  | error fault =>
    rw [Writes.set_of_refused set]
    exact .idle
  | ok result =>
    obtain ⟨remark, carriedOut⟩ := Writes.set_of_setText set
    obtain ⟨value, definition, -, same⟩ := write_of_setText set
    rw [carriedOut]
    refine ⟨?_, silent_cons rfl fun e member => ?_⟩
    · change r.agent.Alike result.1
      rw [same]
      exact ⟨rfl, rfl, rfl⟩
    · obtain ⟨message, -, rfl⟩ := Option.map_eq_some_iff.mp (Option.mem_toList.mp member)
      rfl

private theorem still_change {result : Except ModelFault Agent}
    (alike : ∀ {agent}, result = .ok agent → r.agent.Alike agent) :
    Still (r.change result).reaction r.agent := by
  cases result with
  | error fault => exact .idle
  | ok agent => exact ⟨alike rfl, silent_nil⟩

private theorem still_order (peer name : String) {order : Order} (other : order.flag? = none) :
    Still (r.executeOrder s peer name order).reaction r.agent := by
  cases order with
  | stop | clearMapping => exact ⟨⟨rfl, rfl, rfl⟩, silent_nil⟩
  | freeze | unfreeze | muteAll | unmuteAll => cases other
  | requestOutputs | getCurrentInputs | getCurrentParameters =>
    exact ⟨alike_refl _, silent_send _ _ _ _ _⟩
  | saveDefinition => exact still_save .definition
  | saveMapping => exact still_save .mapping

private theorem still_notice (peer : String) (notice : Command) :
    Still (r.executeNotice peer notice).reaction r.agent := by
  unfold Reactor.executeNotice
  split
  · exact ⟨alike_refl _, silent_nil⟩
  · exact .idle

private theorem still_external (peer : String) (apply : Subscriber → Except ModelFault Subscriber) :
    Still (r.executeExternal s peer apply).reaction r.agent := by
  unfold Reactor.executeExternal
  dsimp only
  split
  · exact .idle
  split
  · exact still_ensureSubscriber peer r
  · exact (still_ensureSubscriber peer r).append (still_resolve peer _)

private theorem still_outputs (peer name : String) (values : List DataMessage) :
    Still (r.executeOutputs peer name values).reaction r.agent := by
  unfold Reactor.executeOutputs
  split
  · exact .idle
  · exact .forEach (fun m r => still_deliver name m r) _ r

/-- No command but the orders of the flags does anything to them. -/
private theorem still_execute (peer name : String) {command : Command}
    (other : ∀ order, command = .order order → order.flag? = none) :
    Still (r.execute s peer name command).reaction r.agent := by
  cases command with
  | order order => exact still_order peer name (other order rfl)
  | topic topic text =>
    cases topic with
    | mute => exact still_muteOutput text true
    | unmute => exact still_muteOutput text false
    | setLogPath | setDefinitionPath | setMappingPath =>
      exact ⟨⟨rfl, rfl, rfl⟩, silent_shoutNotice _ _⟩
    | outputMuted | outputUnmuted | logFilePath | definitionFilePath | mappingFilePath =>
      exact still_notice peer _
  | flag | state => exact still_notice peer _
  | enclosure enclosure text =>
    cases enclosure with
    | externalDefinition | externalMapping => exact still_external peer _
    | loadDefinition | loadMapping =>
      exact still_change fun done => alike_of_map done fun _ => ⟨rfl, rfl, rfl⟩
  | listing listing values =>
    cases listing with
    | outputs => exact still_outputs peer name values
    | currentInputs | currentParameters => exact .idle
  | set kind slot text => exact still_set kind slot text
  | map input agent output =>
    refine still_change fun done => ?_
    obtain ⟨⟨_, id⟩, added, rfl⟩ := map_eq_ok.mp done
    exact alike_addElement added
  | unmap => exact still_change fun done => alike_of_map done fun _ => ⟨rfl, rfl, rfl⟩
  | bus => exact ⟨alike_refl _, silent_cons rfl silent_nil⟩

private theorem still_handleCommand (peer : String) {command : Command}
    (other : ∀ order, command = .order order → order.flag? = none) :
    Still (r.handleCommand s peer command) r.agent := by
  obtain ⟨log, handled⟩ := handleCommand_eq s peer command r
  rw [handled]
  exact (still_execute peer _ other).append ⟨alike_refl _, silent_cons rfl silent_nil⟩

private theorem still_exit (peer name : String) : Still (r.handleExit peer name) r.agent := by
  unfold Reactor.handleExit
  dsimp only
  split
  · exact ⟨alike_refl _, silent_nil⟩
  · exact ⟨alike_refl _, silent_cons rfl silent_nil⟩
  · exact Still.append (still_dropSubscriber peer _)
      ⟨alike_refl _, silent_cons rfl (silent_cons rfl silent_nil)⟩

private theorem still_join (peer name group : String) :
    Still (r.handleJoin s peer name group) r.agent := by
  unfold Reactor.handleJoin
  dsimp only
  split
  · split
    · exact Still.append ⟨alike_refl _, silent_whispers _ peer _⟩ (still_ensureSubscriber peer _)
    · exact ⟨alike_refl _, silent_nil⟩
  · exact ⟨alike_refl _, silent_cons rfl silent_nil⟩

private theorem still_shout (peer name group : String) (frames : List Bytes) :
    Still (r.handleShout s peer name group frames) r.agent := by
  unfold Reactor.handleShout
  split
  · exact ⟨alike_refl _, silent_cons rfl silent_nil⟩
  split
  · exact ⟨alike_refl _, silent_cons rfl silent_nil⟩
  split
  next notice =>
    refine still_handleCommand peer ?_
    rintro order rfl
    cases notice
  · exact ⟨alike_refl _, silent_cons rfl silent_nil⟩

private theorem still_control (control : Control) : Still (r.handleControl s control) r.agent := by
  cases control with
  | terminate => exact ⟨alike_refl _, silent_nil⟩
  | notice command => exact ⟨alike_refl _, silent_shoutNotice _ _⟩
  | busJoin | busLeave | busShout => exact ⟨alike_refl _, forall_busRequest rfl fun _ => rfl⟩
  | busWhisper peer frames =>
    simp only [Reactor.handleControl]
    split
    · exact ⟨alike_refl _, silent_send _ _ _ _ _⟩
    · exact ⟨alike_refl _, silent_cons rfl silent_nil⟩

private theorem still_announceDefinition (r : Reactor) : Still (r.announceDefinition s) r.agent := by
  unfold Reactor.announceDefinition
  split
  · exact ⟨⟨rfl, rfl, rfl⟩, silent_whisperJoined _ _⟩
  · exact .idle

private theorem still_announceMapping (r : Reactor) : Still (r.announceMapping s) r.agent := by
  cases dirty : r.agent.mappingDirty with
  | true =>
    rw [announceMapping_of_dirty dirty]
    refine Still.append ⟨⟨rfl, rfl, rfl⟩, silent_whisperJoined _ _⟩ (.forEach (fun peer r => ?_) _ _)
    exact .ofRewires (rewires_resolveOne _ peer r) (still_resolve peer _).silent
  | false =>
    rw [Reactor.announceMapping, dirty]
    exact .idle

/-- Whatever a reactor meets with, it does nothing to the flags unless a peer orders that. -/
private theorem still_react {stimulus : Stimulus}
    (other : (Turn.happen s stimulus).sets? = none) : Still (r.react s stimulus) r.agent := by
  cases stimulus with
  | presence event =>
    cases event with
    | enter peer name address headers =>
      simp only [Reactor.react, Reactor.handlePresence, Reactor.handleEnter]
      split
      · exact ⟨alike_refl _, silent_cons rfl (silent_cons rfl silent_nil)⟩
      · exact ⟨alike_refl _, silent_cons rfl silent_nil⟩
    | exit peer name => exact still_exit peer name
    | join peer name group => exact still_join peer name group
    | leave peer name group =>
      simp only [Reactor.react, Reactor.handlePresence, Reactor.handleLeave]
      split
      · exact ⟨alike_refl _, silent_nil⟩
      · exact ⟨alike_refl _, silent_cons rfl silent_nil⟩
    | whisper peer name frames =>
      simp only [Reactor.react, Reactor.handlePresence, Reactor.handleWhisper]
      split
      next read =>
        refine still_handleCommand peer ?_
        rintro order rfl
        simpa only [Turn.sets?, read] using other
      · exact ⟨alike_refl _, silent_cons rfl silent_nil⟩
    | shout peer name group frames => exact still_shout peer name group frames
  | published peer m =>
    simp only [Reactor.react, Reactor.handlePublished]
    split
    · exact .idle
    · exact still_deliver _ m r
  | control control => exact still_control control
  | definitionTimer => exact still_announceDefinition r
  | mappingTimer => exact still_announceMapping r
  | outputsTimer => exact .forEach (fun peer r => still_requestOutputs peer r) _ r
  | expired | presenceLost => exact ⟨alike_refl _, silent_nil⟩

private theorem silent_teardown (r : Reactor) : ∀ e ∈ r.teardown, e.flag? = none := by
  have dropped := (Still.forEach still_dropSubscriber r.subscribers.keys r).silent
  unfold Reactor.teardown
  dsimp only
  simp only [List.forall_mem_append]
  refine ⟨⟨⟨dropped, silent_cons rfl (silent_cons rfl silent_nil)⟩, ?_⟩, silent_cons rfl silent_nil⟩
  split
  · refine silent_cons rfl ?_
    split
    · exact silent_cons rfl silent_nil
    · exact silent_nil
  · exact silent_nil

private theorem silent_setup (agent : Agent) (settings : ReactorSettings) (nodeId hostAddress : String)
    (process : ProcessIdentity) (publisher : Except FileFault PublisherAddress) :
    ∀ e ∈ (Reactor.setup s agent settings nodeId hostAddress process publisher).1, e.flag? = none := by
  unfold Reactor.setup
  split
  · exact silent_nil
  next address =>
    have announced : ∀ e ∈ (Reactor.announcements agent process address).map Effect.request,
        e.flag? = none := List.forall_mem_map.mpr fun _ _ => rfl
    have joining : ∀ e ∈ (Reactor.announcements agent process address).map Effect.request ++
        [.request .start, .request (.join privateChannel)], e.flag? = none :=
      List.forall_mem_append.mpr ⟨announced, silent_cons rfl (silent_cons rfl silent_nil)⟩
    dsimp only
    split
    · exact List.forall_mem_append.mpr ⟨announced, silent_cons rfl silent_nil⟩
    split
    · exact List.forall_mem_append.mpr ⟨joining, silent_cons rfl silent_nil⟩
    · exact List.forall_mem_append.mpr ⟨joining, silent_cons rfl silent_nil⟩

private theorem silent_start (temporary hostAddress : String) (process : ProcessIdentity)
    (publisher : Except FileFault PublisherAddress) :
    ∀ e ∈ (h.turn (.start s temporary hostAddress process publisher)).effects, e.flag? = none := by
  unfold Host.turn Host.start
  dsimp only
  split
  · exact silent_nil
  · exact silent_nil
  · exact silent_setup _ _ _ _ _ _

/-- The end of a reactor tells the host nothing of flags. -/
theorem flags_settle (h : Host) (reaction : Reaction) :
    Effect.flags (h.settle reaction).effects = Effect.flags reaction.effects := by
  unfold Host.settle
  dsimp only
  split
  · rw [flags_append, flags_of_silent (silent_teardown _), List.append_nil]
  · rfl

theorem flags_edit {e : Edit} {edited : Edited} (applied : e.apply h.agent = .ok edited) :
    Effect.flags (h.turn (.edit e)).effects = edited.told.filterMap HostEvent.flag? := by
  have events : Effect.flags (edited.told.map Effect.notify) = edited.told.filterMap HostEvent.flag? :=
    List.filterMap_map
  simp only [Host.turn, Host.edit, applied, Except.map]
  split
  · have published : Effect.flags (edited.published.map Effect.publish).toList = [] := by
      cases edited.published <;> rfl
    rw [flags_append, published, events, List.nil_append]
  · exact events

structure Steady (h : Host) (t : Turn) : Prop where
  flags : ∀ flag, (h.turn t).host.agent.flag flag = h.agent.flag flag
  canBeFrozen : (h.turn t).host.agent.canBeFrozen = t.permits?.getD h.agent.canBeFrozen
  silent : Effect.flags (h.turn t).effects = []

private theorem steady_of_alike {t : Turn} (plain : t.permits? = none)
    (alike : h.agent.Alike (h.turn t).host.agent) (silent : Effect.flags (h.turn t).effects = []) :
    Steady h t :=
  ⟨flag_of_alike alike, by rw [plain]; exact alike.canBeFrozen, silent⟩

private theorem alike_react (h : Host) (s : Surroundings) (stimulus : Stimulus)
    (other : (Turn.happen s stimulus).sets? = none) :
    h.agent.Alike (h.react s stimulus).host.agent ∧
      Effect.flags (h.react s stimulus).effects = [] := by
  cases running : h.reactor? with
  | none =>
    rw [Host.react, running]
    exact ⟨alike_refl _, rfl⟩
  | some r =>
    have still : Still (r.react s stimulus) r.agent := still_react other
    rw [agent_react running, agent_of_reactor? running]
    refine ⟨still.alike, ?_⟩
    rw [Host.react, running]
    exact (flags_settle h _).trans (flags_of_silent still.silent)

private theorem steady_edit {e : Edit} (other : e.flag? = none) : Steady h (.edit e) := by
  cases applied : e.apply h.agent with
  | error fault =>
    have same : h.turn (.edit e) = ⟨h, []⟩ := turn_refused applied
    have plain : (Turn.edit e).permits? = none := by
      cases e with
      | permitFreezing => cases applied
      | _ => rfl
    exact steady_of_alike plain (by rw [same]; exact alike_refl _) (by rw [same]; rfl)
  | ok edited =>
    by_cases permission : ∃ permitted, e = .permitFreezing permitted
    · obtain ⟨permitted, rfl⟩ := permission
      have agent := agent_edit applied
      have silent := flags_edit applied
      cases applied
      exact ⟨fun flag => by rw [agent]; cases flag <;> rfl, by rw [agent]; rfl, silent⟩
    · have plain : (Turn.edit e).permits? = none := by
        cases e with
        | permitFreezing permitted => exact absurd ⟨permitted, rfl⟩ permission
        | _ => rfl
      obtain ⟨alike, silent⟩ := alike_of_edit other (fun permitted same => permission ⟨permitted, same⟩)
        applied
      refine steady_of_alike plain (by rw [agent_edit applied]; exact alike) ?_
      rw [flags_edit applied]
      exact List.filterMap_eq_nil_iff.mpr silent

theorem steady_of_unset {t : Turn} (unset : t.sets? = none) : Steady h t := by
  cases t with
  | edit e => exact steady_edit unset
  | start s temporary hostAddress process publisher =>
    refine steady_of_alike rfl ?_ (flags_of_silent (silent_start _ _ _ _))
    rw [agent_turn_start]
    exact alike_refl _
  | request control =>
    refine steady_of_alike rfl ?_ rfl
    rw [agent_turn_request]
    exact alike_refl _
  | take s =>
    have taken : h.agent.Alike (h.takeOne s).host.agent ∧ Effect.flags (h.takeOne s).effects = [] := by
      unfold Host.takeOne
      split
      · exact ⟨alike_refl _, rfl⟩
      next control rest _ => exact alike_react { h with queue := rest } s (.control control) rfl
    exact steady_of_alike rfl taken.1 taken.2
  | happen s stimulus =>
    cases stimulus with
    | control => exact steady_of_alike rfl (alike_refl _) rfl
    | _ =>
      obtain ⟨alike, silent⟩ := alike_react h s _ unset
      exact steady_of_alike rfl alike silent

end Proofs.SteadyFlags
end PeerMesh
