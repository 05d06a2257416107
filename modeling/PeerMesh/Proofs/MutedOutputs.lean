import PeerMesh.Proofs.Audience

/-! Whether the peers know which outputs of an agent are muted. They are told when an output is muted
or unmuted. Nobody tells them when a muted output is removed, or replaced with the whole definition,
so they go on showing it as muted until an output of that name is muted or unmuted again. -/

namespace PeerMesh

/-- The host edits the agent and the notice goes out, or a peer sends a command. -/
inductive Deed where
  | edit (e : Edit) (s : Surroundings)
  | command (frames : List Bytes) (s : Surroundings) (sender name : String)

namespace Deed

def turns : Deed → List Turn
  | .edit e s => [.edit e, .take s]
  | .command frames s sender name => [.happen s (.presence (.whisper sender name frames))]

def mutes? : Deed → Option (String × Bool)
  | .edit (.muteOutput output muted) _ => some (output, muted)
  | .command frames .. =>
    match Command.ofFrames frames with
    | .ok (.topic .mute output) => some (output, true)
    | .ok (.topic .unmute output) => some (output, false)
    | _ => none
  | _ => none

inductive OfOutputs : Deed → Prop where
  | create (kind : SlotKind) (name : String) (type : ValueType) (value : Option Value)
      (s : Surroundings) : OfOutputs (.edit (.create kind name type value) s)
  | remove (kind : SlotKind) (name : String) (s : Surroundings) :
      OfOutputs (.edit (.remove kind name) s)
  | load (text : String) (path : Option String) (s : Surroundings) :
      OfOutputs (.edit (.load .definition text path) s)
  | mute (output : String) (muted : Bool) (s : Surroundings) :
      OfOutputs (.edit (.muteOutput output muted) s)
  | askMute {frames : List Bytes} {output : String}
      (read : Command.ofFrames frames = .ok (.topic .mute output)) (s : Surroundings)
      (sender name : String) : OfOutputs (.command frames s sender name)
  | askUnmute {frames : List Bytes} {output : String}
      (read : Command.ofFrames frames = .ok (.topic .unmute output)) (s : Surroundings)
      (sender name : String) : OfOutputs (.command frames s sender name)
  | askLoad {frames : List Bytes} {text : String}
      (read : Command.ofFrames frames = .ok (.enclosure .loadDefinition text)) (s : Surroundings)
      (sender name : String) : OfOutputs (.command frames s sender name)

end Deed

namespace Host

/-- A deed mutes or unmutes an output that is there, so that the peers are told. -/
def announces (output : String) (h : Host) (deed : Deed) : Bool :=
  deed.mutes?.any (·.1 = output) && (h.agent.definition.output? output).isSome

/-- Whether an output was muted when it went, and the peers have not been told of that name since. -/
def dropped (output : String) : Host → Bool → List Deed → Bool
  | _, stale, [] => stale
  | h, stale, deed :: deeds =>
    (h.after deed.turns).dropped output
      (!h.announces output deed &&
        (stale || h.agent.mutes output && !(h.after deed.turns).agent.mutes output)) deeds

end Host

namespace Proofs.MutedOutputs
open Audience CatchUp CommandCodec HostRuns Outcomes

variable {h : Host} {r : Reactor} {a b : Agent} {peer output name : String} {on : Bool}

def Unmutes (a b : Agent) : Prop := ∀ output, b.mutes output = true → a.mutes output = true

private theorem unmutes_of_kept
    (kept : ∀ {output slot}, b.definition.output? output = some slot → slot.muted = true →
      a.definition.output? output = some slot) : Unmutes a b := by
  intro output muted
  obtain ⟨slot, found, mute⟩ := (Option.any_eq_true _ _).mp muted
  exact (Option.any_eq_true _ _).mpr ⟨slot, kept found mute, mute⟩

theorem unmutes_create {kind : SlotKind} {type : ValueType} {value : Option Value}
    (done : a.create kind name type value = .ok b) : Unmutes a b := by
  obtain ⟨⟨definition, slot⟩, created, rfl⟩ := map_eq_ok.mp done
  obtain ⟨-, -, unmuted, rfl⟩ := Definitions.create_cases created
  refine unmutes_of_kept fun {output other} found mute => ?_
  have present := (Definitions.get?_insert _ _ .output _ output slot).symm.trans found
  split at present
  · cases present
    rw [unmuted] at mute
    cases mute
  · exact present

theorem unmutes_remove {kind : SlotKind} (done : a.remove kind name = .ok b) : Unmutes a b := by
  obtain ⟨⟨definition, slot⟩, removed, rfl⟩ := map_eq_ok.mp done
  refine unmutes_of_kept fun {output slot} found _ => ?_
  have left : definition.get? .output output = some slot := found
  exact Definitions.get?_of_remove removed left

theorem unmutes_loadDefinition {text : String} (done : a.loadDefinition text = .ok b) :
    Unmutes a b := by
  obtain ⟨definition, read, rfl⟩ := map_eq_ok.mp done
  refine unmutes_of_kept fun {output slot} found mute => ?_
  have present : definition.get? .output output = some slot := found
  rw [Definitions.muted_of_ofText read present] at mute
  cases mute

theorem unmutes_load {text : String} {path : Option String}
    (done : a.load text path .definition = .ok b) : Unmutes a b := by
  obtain ⟨loaded, read, rfl⟩ := map_eq_ok.mp done
  exact fun output muted => unmutes_loadDefinition read output muted

theorem setOutputMuted_cases (a : Agent) (name : String) (on : Bool) :
    a.definition.output? name = none ∧ a.setOutputMuted name on = .error (.unknownSlot .output name) ∨
      (a.definition.output? name).isSome = true ∧ ∃ b, a.setOutputMuted name on = .ok b ∧
        ∀ output, b.mutes output = if name = output then on else a.mutes output := by
  unfold Agent.setOutputMuted Definition.setOutputMuted?
  cases found : a.definition.output? name with
  | none => exact .inl ⟨rfl, rfl⟩
  | some slot =>
    refine .inr ⟨rfl, _, rfl, fun output => ?_⟩
    have placed := Definitions.get?_insert a.definition .output .output name output
      { slot with muted := on }
    by_cases same : name = output
    · rw [if_pos ⟨rfl, same⟩] at placed
      rw [if_pos same]
      exact congrArg (Option.any (·.muted)) placed
    · rw [if_neg fun both => same both.2] at placed
      rw [if_neg same]
      exact congrArg (Option.any (·.muted)) placed

inductive Echo (output peer : String) (h : Host) (deed : Deed) : Prop where
  | told (announces : h.announces output deed = true)
      (heard : (Facet.outputMuted output).heard peer ((h.trace deed.turns).flatMap (·.effects)) =
        [(h.after deed.turns).agent.mutes output])
  | untold (announces : h.announces output deed = false)
      (unmutes : (h.after deed.turns).agent.mutes output = true → h.agent.mutes output = true)
      (heard : (Facet.outputMuted output).heard peer ((h.trace deed.turns).flatMap (·.effects)) = [])

structure Echoes (peer : String) (h : Host) (deed : Deed) : Prop where
  running : ∃ after, (h.after deed.turns).reactor? = some after
  drained : (h.after deed.turns).queue = []
  echo : ∀ output, Echo output peer h deed

/-- How a deed ends: with which agent, and with which notice to the peers. -/
structure Ends (peer : String) (h : Host) (deed : Deed) (agent : Agent) (notice : Option Command) :
    Prop where
  running : ∃ after, (h.after deed.turns).reactor? = some after ∧ after.agent = agent
  drained : (h.after deed.turns).queue = []
  heard : ∀ f : Facet, f.heard peer ((h.trace deed.turns).flatMap (·.effects)) =
    notice.toList.flatMap (tells f)

inductive EndsWith (peer : String) (h : Host) (deed : Deed) (notice : Option Command) :
    Except ModelFault Agent → Prop where
  | done {agent : Agent} (ends : Ends peer h deed agent notice) :
      EndsWith peer h deed notice (.ok agent)
  | refused {fault : ModelFault} (ends : Ends peer h deed h.agent none) :
      EndsWith peer h deed notice (.error fault)

section Endings
variable {history : List HostStep} {deed : Deed} {e : Edit} {result : Except ModelFault Agent}
  {notice : Option Command}

private theorem ends_refused {fault : AgentFault} (running : h.reactor? = some r)
    (drained : h.queue = []) (refused : e.apply r.agent = .error fault) (s : Surroundings) :
    Ends peer h (.edit e s) h.agent none := by
  have first := turn_edit_refused running refused
  have second : h.turn (.take s) = ⟨h, []⟩ := turn_take_nothing drained
  have after : h.after (Deed.edit e s).turns = h := by
    change ((h.turn (.edit e)).host.turn (.take s)).host = h
    rw [first, second]
  refine ⟨⟨r, by rw [after]; exact running, (agent_of_reactor? running).symm⟩,
    by rw [after]; exact drained, fun f => ?_⟩
  change f.heard peer ((h.turn (.edit e)).effects ++
    (((h.turn (.edit e)).host.turn (.take s)).effects ++ [])) = _
  rw [first, second]
  rfl

private theorem ends_edit {edited : Edited} (run : Run h history) (running : h.reactor? = some r)
    (drained : h.queue = []) (applied : e.apply r.agent = .ok edited) (s : Surroundings) :
    Ends peer h (.edit e s) edited.agent edited.notice := by
  have first := turn_edit running applied
  rw [drained, List.nil_append] at first
  have goesOn : (h.turn (.edit e)).host.reactor? = some (r.setAgent edited.agent) := by rw [first]; rfl
  have queue : (h.turn (.edit e)).host.queue = (edited.notice.map Control.notice).toList := by
    rw [first]
  have silent (f : Facet) : f.heard peer (h.turn (.edit e)).effects = [] := by
    rw [first]
    exact heard_edit _ _
  have calm : r.stopReason = none := run.stopReason running
  have second : (∃ next, ((h.turn (.edit e)).host.turn (.take s)).host.reactor? = some next ∧
        next.agent = edited.agent) ∧
      ((h.turn (.edit e)).host.turn (.take s)).host.queue = [] ∧
      ∀ f : Facet, f.heard peer ((h.turn (.edit e)).host.turn (.take s)).effects =
        edited.notice.toList.flatMap (tells f) := by
    cases told : edited.notice with
    | none =>
      rw [told] at queue
      rw [turn_take_nothing queue]
      exact ⟨⟨_, goesOn, rfl⟩, queue, fun _ => rfl⟩
    | some command =>
      rw [told] at queue
      rw [turn_take goesOn calm queue]
      refine ⟨⟨_, goesOn, rfl⟩, rfl, fun f => ?_⟩
      exact (heard_shoutNotice s _ peer command).trans (List.append_nil _).symm
  obtain ⟨after, empty, heard⟩ := second
  refine ⟨after, empty, fun f => ?_⟩
  change f.heard peer ((h.turn (.edit e)).effects ++
    (((h.turn (.edit e)).host.turn (.take s)).effects ++ [])) = _
  rw [heard_append, silent, List.append_nil, heard, List.nil_append]

private theorem endsWith_edit (make : Agent → Edited) (run : Run h history)
    (running : h.reactor? = some r) (drained : h.queue = [])
    (applies : e.apply r.agent = (AgentFault.lift result).map make)
    (made : ∀ b, (make b).agent = b ∧ (make b).notice = notice) (s : Surroundings) :
    EndsWith peer h (.edit e s) notice result := by
  cases result with
  | error fault => exact .refused (ends_refused running drained applies s)
  | ok b =>
    have ends : Ends peer h (.edit e s) (make b).agent (make b).notice :=
      ends_edit run running drained applies s
    rw [(made b).1, (made b).2] at ends
    exact .done ends

private theorem ends_command {frames : List Bytes} {command : Command} {effects : List Effect}
    {s : Surroundings} {sender : String} (run : Run h history) (running : h.reactor? = some r)
    (drained : h.queue = []) (read : Command.ofFrames frames = .ok command)
    (executed : (r.execute s sender (r.peerName sender) command).reaction =
      (r.setAgent a).tell effects)
    (heard : ∀ (f : Facet) log, f.heard peer (effects ++ [.log log]) =
      notice.toList.flatMap (tells f)) (name : String) :
    Ends peer h (.command frames s sender name) a notice := by
  have calm : r.stopReason = none := run.stopReason running
  have goesOn : (r.execute s sender (r.peerName sender) command).reaction.reactor.stopReason =
      none := by
    rw [executed]
    exact calm
  obtain ⟨log, same⟩ := turn_whisper running read goesOn name
  rw [executed] at same
  have after : h.after (Deed.command frames s sender name).turns =
      { h with activity := .running (r.setAgent a) } := congrArg HostStep.host same
  refine ⟨⟨_, by rw [after]; rfl, rfl⟩, by rw [after]; exact drained, fun f => ?_⟩
  change f.heard peer ((h.turn _).effects ++ []) = _
  rw [same, List.append_nil]
  exact heard f log

private theorem endsWith_command {frames : List Bytes} {command : Command} {s : Surroundings}
    {sender : String} (told : Agent → List Effect) (run : Run h history)
    (running : h.reactor? = some r) (drained : h.queue = [])
    (read : Command.ofFrames frames = .ok command)
    (executed : (r.execute s sender (r.peerName sender) command).reaction =
      match result with
      | .ok b => (r.setAgent b).tell (told b)
      | .error _ => r.idle)
    (heard : ∀ (f : Facet) b log, f.heard peer (told b ++ [.log log]) =
      notice.toList.flatMap (tells f)) (name : String) :
    EndsWith peer h (.command frames s sender name) notice result := by
  cases result with
  | error fault =>
    have idle : (r.execute s sender (r.peerName sender) command).reaction =
        (r.setAgent r.agent).tell [] := executed
    refine .refused ?_
    rw [agent_of_reactor? running]
    exact ends_command run running drained read idle (fun _ _ => rfl) name
  | ok b => exact .done (ends_command run running drained read executed (fun f => heard f b) name)

private theorem agent_of_ends (ends : Ends peer h deed a notice) : (h.after deed.turns).agent = a := by
  obtain ⟨after, goesOn, same⟩ := ends.running
  rw [agent_of_reactor? goesOn, same]

private theorem echoes_of_untold (ends : Ends peer h deed a none)
    (silent : ∀ output, h.announces output deed = false) (unmutes : Unmutes h.agent a) :
    Echoes peer h deed where
  running := ends.running.imp fun _ both => both.1
  drained := ends.drained
  echo output := by
    refine .untold (silent output) (fun muted => unmutes output ?_) (ends.heard _)
    rw [← agent_of_ends ends]
    exact muted

private theorem echoes_of_told (mutes : deed.mutes? = some (name, on))
    (sound : h.agent.definition.Sound) (present : (h.agent.definition.output? name).isSome = true)
    (ends : Ends peer h deed a (some (Agent.muteNotice name on)))
    (set : ∀ output, a.mutes output = if name = output then on else h.agent.mutes output) :
    Echoes peer h deed where
  running := ends.running.imp fun _ both => both.1
  drained := ends.drained
  echo output := by
    have heard := (ends.heard (.outputMuted output)).trans
      ((List.append_nil _).trans (tells_muteNotice sound present on output))
    by_cases same : name = output
    · subst same
      rw [if_pos rfl] at heard
      refine .told (by simp [Host.announces, mutes, present]) (heard.trans ?_)
      rw [agent_of_ends ends, set, if_pos rfl]
    · rw [if_neg same] at heard
      refine .untold (by simp [Host.announces, mutes, same]) (fun muted => ?_) heard
      rw [agent_of_ends ends, set, if_neg same] at muted
      exact muted

private theorem echoes_of_silent (silent : deed.mutes? = none)
    (ends : EndsWith peer h deed none result)
    (unmutes : ∀ {b}, result = .ok b → Unmutes h.agent b) : Echoes peer h deed := by
  have unannounced (output : String) : h.announces output deed = false := by
    rw [Host.announces, silent]
    rfl
  cases ends with
  | done ends => exact echoes_of_untold ends unannounced (unmutes rfl)
  | refused ends => exact echoes_of_untold ends unannounced fun _ muted => muted

private theorem echoes_of_mute (run : Run h history) (mutes : deed.mutes? = some (name, on))
    (ends : EndsWith peer h deed (some (Agent.muteNotice name on)) (h.agent.setOutputMuted name on)) :
    Echoes peer h deed := by
  rcases setOutputMuted_cases h.agent name on with ⟨absent, refused⟩ | ⟨present, b, done, set⟩
  · rw [refused] at ends
    obtain - | ends := ends
    refine echoes_of_untold ends (fun output => ?_) fun _ muted => muted
    by_cases same : name = output
    · simp [Host.announces, ← same, absent]
    · simp [Host.announces, mutes, same]
  · rw [done] at ends
    obtain ends | - := ends
    have sound := (Models.sound_of_reachable run.reachable).definition
    exact echoes_of_told mutes sound present ends set

private theorem echoes_edit {s : Surroundings} (run : Run h history)
    (running : h.reactor? = some r) (drained : h.queue = [])
    (applies : e.apply r.agent = (AgentFault.lift result).map .silent)
    (unmutes : ∀ {b}, result = .ok b → Unmutes r.agent b)
    (silent : (Deed.edit e s).mutes? = none) : Echoes peer h (.edit e s) := by
  refine echoes_of_silent silent
    (endsWith_edit .silent run running drained applies (fun _ => ⟨rfl, rfl⟩) s) ?_
  rw [agent_of_reactor? running]
  exact unmutes

private theorem echoes_command {frames : List Bytes} {command : Command} {s : Surroundings}
    {sender : String} (run : Run h history) (running : h.reactor? = some r)
    (drained : h.queue = []) (read : Command.ofFrames frames = .ok command)
    (mutes : (Deed.command frames s sender name).mutes? = some (output, on))
    (executes : r.execute s sender (r.peerName sender) command = r.muteOutput s output on) :
    Echoes peer h (.command frames s sender name) := by
  let told (b : Agent) : List Effect := .notify (.outputMuteChanged output on) ::
    (r.setAgent b).shoutNotice s (Agent.muteNotice output on)
  refine echoes_of_mute run mutes (endsWith_command told run running drained read ?_
    (fun f b log => ?_) name)
  · rw [executes, agent_of_reactor? running, Reactor.muteOutput]
    cases r.agent.setOutputMuted output on <;> rfl
  · exact (heard_told s _ _ _ log).trans (List.append_nil _).symm

end Endings

theorem echoes_of_deed {history : List HostStep} {deed : Deed} (outputs : deed.OfOutputs)
    (run : Run h history) (running : h.reactor? = some r) (drained : h.queue = []) :
    Echoes peer h deed := by
  cases outputs with
  | create kind name type value s =>
    have applies : (Edit.create kind name type value).apply r.agent =
        (AgentFault.lift (r.agent.create kind name type value)).map .silent := rfl
    exact echoes_edit run running drained applies unmutes_create rfl
  | remove kind name s =>
    have applies : (Edit.remove kind name).apply r.agent =
        (AgentFault.lift (r.agent.remove kind name)).map .silent := rfl
    exact echoes_edit run running drained applies unmutes_remove rfl
  | load text path s =>
    have applies : (Edit.load .definition text path).apply r.agent =
        (AgentFault.lift (r.agent.load text path .definition)).map .silent := rfl
    exact echoes_edit run running drained applies unmutes_load rfl
  | mute output muted s =>
    let make (b : Agent) : Edited :=
      .announced b (.outputMuteChanged output muted) (Agent.muteNotice output muted)
    refine echoes_of_mute run rfl ?_
    rw [agent_of_reactor? running]
    exact endsWith_edit make run running drained rfl (fun _ => ⟨rfl, rfl⟩) s
  | askMute read s sender name =>
    exact echoes_command run running drained read (by simp only [Deed.mutes?, read]) rfl
  | askUnmute read s sender name =>
    exact echoes_command run running drained read (by simp only [Deed.mutes?, read]) rfl
  | @askLoad frames text read s sender name =>
    have ends : EndsWith peer h (.command frames s sender name) none (r.agent.loadDefinition text) := by
      refine endsWith_command (fun _ => []) run running drained read ?_ (fun _ _ _ => rfl) name
      rw [Reactor.execute]
      cases r.agent.loadDefinition text <;> rfl
    refine echoes_of_silent (by simp only [Deed.mutes?, read]) ends ?_
    rw [agent_of_reactor? running]
    exact unmutes_loadDefinition

/-- What a peer shows of an output is how it is, or how it was when it went. -/
structure Agrees (shown : Bool) (a : Agent) (output : String) (stale : Bool) : Prop where
  same : shown = (a.mutes output || stale)
  gone : stale = true → a.mutes output = false

private theorem agrees_of_echo {deed : Deed} {shown stale : Bool} (echo : Echo output peer h deed)
    (agrees : Agrees shown h.agent output stale) :
    Agrees (((Facet.outputMuted output).heard peer
        ((h.trace deed.turns).flatMap (·.effects))).getLastD shown)
      (h.after deed.turns).agent output
      (!h.announces output deed &&
        (stale || h.agent.mutes output && !(h.after deed.turns).agent.mutes output)) := by
  obtain ⟨same, gone⟩ := agrees
  cases echo with
  | told announces heard =>
    rw [heard, announces]
    exact ⟨(Bool.or_false _).symm, fun stale => by cases stale⟩
  | untold announces unmutes heard =>
    rw [heard, announces, List.getLastD_nil, same]
    have goes : stale = true → (h.after deed.turns).agent.mutes output = false := fun was =>
      Bool.eq_false_iff.mpr fun muted => Bool.eq_false_iff.mp (gone was) (unmutes muted)
    constructor
    · cases muted : (h.after deed.turns).agent.mutes output with
      | true => simp [unmutes muted]
      | false => simp [Bool.or_comm]
    · intro now
      cases was : stale with
      | true => exact goes was
      | false =>
        rw [was] at now
        simp only [Bool.not_false, Bool.true_and, Bool.false_or, Bool.and_eq_true,
          Bool.not_eq_true'] at now
        exact now.2

theorem agrees_of_deeds (peer : String) {deeds : List Deed} {history : List HostStep}
    {shown stale : Bool} (outputs : ∀ deed ∈ deeds, deed.OfOutputs) (run : Run h history)
    (running : h.reactor? = some r) (drained : h.queue = []) (agrees : Agrees shown h.agent output stale) :
    (∃ after, (h.after (deeds.flatMap Deed.turns)).reactor? = some after) ∧
      Agrees (((Facet.outputMuted output).heard peer
          ((h.trace (deeds.flatMap Deed.turns)).flatMap (·.effects))).getLastD shown)
        (h.after (deeds.flatMap Deed.turns)).agent output (h.dropped output stale deeds) := by
  induction deeds generalizing h history r shown stale with
  | nil => exact ⟨⟨r, running⟩, agrees⟩
  | cons deed deeds ih =>
    have echoes : Echoes peer h deed :=
      echoes_of_deed (outputs deed List.mem_cons_self) run running drained
    obtain ⟨next, goesOn⟩ := echoes.running
    obtain ⟨longer, reached⟩ := run_after deed.turns run
    rw [List.flatMap_cons, after_append, trace_append, List.flatMap_append, heard_append,
      getLastD_append]
    exact ih (fun deed member => outputs deed (List.mem_cons_of_mem _ member)) reached goesOn
      echoes.drained (agrees_of_echo (echoes.echo output) agrees)

/-- A peer that has heard everything since it came knows every output that is muted. It shows an output as
it is unless it was muted when it went, and no output of that name has been muted or unmuted since. -/
theorem muted_outputs_known_unless_dropped {h : Host} {history : List HostStep} {r p last : Reactor}
    {own name peer peerName : String} {entry : Peer} {s : Surroundings} {deeds : List Deed}
    (run : Run h history) (running : h.reactor? = some r) (drained : h.queue = [])
    (arrives : (r.directory.group peer privateChannel true).2 = true)
    (outputs : ∀ deed ∈ deeds, deed.OfOutputs)
    (known : p.directory.get? own = some entry) (untold : entry.Untold)
    (hears : Hears own name peer p
      ((h.trace (.happen s (.presence (.join peer peerName privateChannel)) ::
        deeds.flatMap Deed.turns)).flatMap (·.effects)) last) :
    let joined := (h.turn (.happen s (.presence (.join peer peerName privateChannel)))).host
    ∃ after shown, (joined.after (deeds.flatMap Deed.turns)).reactor? = some after ∧
      last.directory.get? own = some shown ∧
      ∀ output, (after.agent.mutes output = true → Table.contains shown.mutedOutputs output = true) ∧
        (Table.contains shown.mutedOutputs output = after.agent.mutes output ↔
          joined.dropped output false deeds = false) := by
  intro joined
  obtain ⟨shown, found, facets⟩ := shown_of_arrival run running arrives known untold hears
  obtain ⟨⟨r', goesOn, agent⟩, queue, -⟩ := arrive_turn run running arrives s peerName
  have empty : joined.queue = [] := queue.trans drained
  have start (output : String) :
      Agrees (r.agent.mutes output) joined.agent output false := by
    rw [agent_of_reactor? goesOn, agent]
    exact ⟨(Bool.or_false _).symm, fun stale => by cases stale⟩
  obtain ⟨after, still⟩ := (agrees_of_deeds peer outputs (run.turn _) goesOn empty (start "")).1
  refine ⟨after, shown, still, found, fun output => ?_⟩
  obtain ⟨same, gone⟩ :=
    (agrees_of_deeds peer outputs (run.turn _) goesOn empty (start output)).2
  rw [agent_of_reactor? still] at same gone
  have told : Table.contains shown.mutedOutputs output =
      (after.agent.mutes output || joined.dropped output false deeds) :=
    (facets (.outputMuted output)).trans same
  rw [told]
  refine ⟨fun muted => by rw [muted, Bool.true_or], ?_⟩
  cases dropped : joined.dropped output false deeds with
  | true => simp [gone dropped]
  | false => simp

private def pressTurns : List Turn := [
  .start .calm "" "host" ⟨"1", "press", none⟩ (.ok ⟨4000, none⟩),
  .edit (.create .output "juice" .integer none),
  .happen .calm (.presence (.enter "s" "shop" "host" Table.empty))]

private def press : Host := (Host.new "press" Config.empty "p").after pressTurns

private def pressEntry : Peer := Peer.new "p" "press" "host" Table.empty

private def shop : Host := (Host.new "shop" Config.empty "s").after [
  .start .calm "" "host" ⟨"2", "shop", none⟩ (.ok ⟨5000, none⟩),
  .happen .calm (.presence (.enter "p" "press" "host" Table.empty))]

private def shopComes : Turn := .happen .calm (.presence (.join "s" "shop" privateChannel))

private def pressText : String :=
  "\x7b\"definition\":\x7b\"name\":\"press\",\"outputs\":[\x7b\"name\":\"juice\"," ++
    "\"type\":\"INTEGER\"\x7d]\x7d\x7d"

private def refitting : List Deed := [
  .edit (.muteOutput "juice" true) .calm, .edit (.load .definition pressText none) .calm]

private theorem refitted :
    (press.reactor?.map fun r => (r.directory.group "s" privateChannel true).2) = some true ∧
      press.queue = [] ∧
      (((press.turn shopComes).host.after (refitting.flatMap Deed.turns)).agent.definition.output?
        "juice").isSome = true ∧
      ((press.turn shopComes).host.after (refitting.flatMap Deed.turns)).agent.mutes "juice" = false ∧
      (press.turn shopComes).host.dropped "juice" false refitting = true ∧
      (shop.reactor?.bind (·.directory.get? "p")) = some pressEntry := by
  decide +kernel

theorem shop_shows_dropped_output : ∃ (p after last : Reactor) (shown : Peer),
    shop.reactor? = some p ∧
      Hears "p" "press" "s" p
        ((press.trace (shopComes :: refitting.flatMap Deed.turns)).flatMap (·.effects)) last ∧
      ((press.turn shopComes).host.after (refitting.flatMap Deed.turns)).reactor? = some after ∧
      (after.agent.definition.output? "juice").isSome = true ∧
      after.agent.mutes "juice" = false ∧
      last.directory.get? "p" = some shown ∧
      Table.contains shown.mutedOutputs "juice" = true := by
  obtain ⟨history, run⟩ : ∃ history, Run press history :=
    run_after pressTurns (.new "press" Config.empty "p")
  obtain ⟨arrives, drained, present, unmuted, dropped, entered⟩ := refitted
  obtain ⟨r, running, comes⟩ := Option.map_eq_some_iff.mp arrives
  obtain ⟨p, listening, known⟩ := Option.bind_eq_some_iff.mp entered
  obtain ⟨last, hears⟩ := exists_hears "p" "press" "s" p
    ((press.trace (shopComes :: refitting.flatMap Deed.turns)).flatMap (·.effects))
  have outputs : ∀ deed ∈ refitting, deed.OfOutputs := by
    intro deed member
    simp only [refitting, List.mem_cons, List.not_mem_nil, or_false] at member
    rcases member with rfl | rfl
    · exact .mute "juice" true .calm
    · exact .load pressText none .calm
  have untold : pressEntry.Untold := ⟨rfl, rfl, rfl, rfl, rfl⟩
  obtain ⟨after, shown, still, found, knows⟩ :=
    muted_outputs_known_unless_dropped run running drained comes outputs known untold hears
  have goesOn : ((press.turn shopComes).host.after (refitting.flatMap Deed.turns)).reactor? =
      some after := still
  rw [agent_of_reactor? goesOn] at present unmuted
  refine ⟨p, after, last, shown, listening, hears, goesOn, present, unmuted, found, ?_⟩
  have differs : ¬Table.contains shown.mutedOutputs "juice" = after.agent.mutes "juice" := fun equal => by
    have kept : (press.turn shopComes).host.dropped "juice" false refitting = false :=
      (knows "juice").2.mp equal
    rw [dropped] at kept
    cases kept
  rw [unmuted] at differs
  exact Bool.of_not_eq_false differs

end Proofs.MutedOutputs
end PeerMesh
