import PeerMesh.Proofs.HostRuns
import PeerMesh.Proofs.Writes

/-! What both the host of an agent and its peers can do to it. The two ways are written apart, but
they lead to the same state, and the host's observers and the peers learn the same of it. -/

namespace PeerMesh

/-- An operation that the host of an agent and its peers can both ask for. -/
inductive Operation where
  | clearMapping
  | map (input agent output : String)
  | unmap (input agent output : String)
  | mute (muted : Bool)
  | muteOutput (output : String) (muted : Bool)
  | freeze (frozen : Bool)
  | load (document : Document) (text : String)
  | set (kind : SlotKind) (name text : String)

namespace Operation

def command : Operation → Command
  | .clearMapping => .order .clearMapping
  | .map input agent output => .map input agent output
  | .unmap input agent output => .unmap input agent output
  | .mute muted => .order (if muted then .muteAll else .unmuteAll)
  | .muteOutput output muted => .topic (if muted then .mute else .unmute) output
  | .freeze frozen => .order (if frozen then .freeze else .unfreeze)
  | .load .definition text => .enclosure .loadDefinition text
  | .load .mapping text => .enclosure .loadMapping text
  | .set kind name text => .set kind name text

def edit : Operation → Edit
  | .clearMapping => .clearMapping
  | .map input agent output => .addElement input agent output
  | .unmap input agent output => .removeElement input agent output
  | .mute muted => .mute muted
  | .muteOutput output muted => .muteOutput output muted
  | .freeze frozen => .freeze frozen
  | .load document text => .load document text none
  | .set kind name text => .write kind name (.string text)

/-- Only the host may unfreeze an agent that does not permit freezing, and to data a text means other
bytes when it comes from a peer. -/
def Common (a : Agent) : Operation → Prop
  | .freeze false => a.canBeFrozen = true
  | .set kind name _ => ∀ slot, a.definition.get? kind name = some slot → slot.type ≠ .data
  | _ => True

end Operation

/-- Carries out an edit and shouts its notice at once, before anything that waits in the queue. -/
def Host.call (s : Surroundings) (h : Host) (e : Edit) : Except AgentFault HostStep :=
  (Host.edit { h with queue := [] } e).map fun step =>
    let told := Host.settled s step
    ⟨{ told.host with queue := h.queue }, told.effects⟩

namespace Proofs.Operations
open HostRuns Outcomes Writes

variable {s : Surroundings} {h : Host} {r : Reactor} {e : Edit} {edited : Edited}
  {operation : Operation}

def carriedOut (s : Surroundings) (r : Reactor) (edited : Edited) : Reaction :=
  let next := r.setAgent edited.agent
  next.tell (edited.told.map .notify ++ (edited.published.map .publish).toList ++
    edited.notice.toList.flatMap (next.shoutNotice s))

/-- The command of an operation does what its edit does, or both are refused for the same reason. -/
inductive Agree (s : Surroundings) (r : Reactor) (operation : Operation) (execution : Execution) :
    Prop where
  | accepted (edited : Edited) (remark : Option Remark)
      (applied : operation.edit.apply r.agent = .ok edited)
      (executed : execution = ⟨carriedOut s r edited, .ok remark⟩)
  | refused (fault : AgentFault) (refusal : Refusal)
      (applied : operation.edit.apply r.agent = .error fault)
      (executed : execution = .refused r refusal) (same : refusal.message = fault.message)

/-- Where a command changes the state in silence, so does the edit. -/
private theorem agree_change {result : Except ModelFault Agent}
    (applied : operation.edit.apply r.agent = (AgentFault.lift result).map .silent) :
    Agree s r operation (r.change result) := by
  cases result with
  | error fault => exact .refused (.model fault) (.model fault) applied rfl rfl
  | ok next => exact .accepted (.silent next) none applied rfl

private theorem agree_map (input agent output : String) :
    Agree s r (.map input agent output)
      (r.change ((r.agent.addElement input agent output).map (·.1))) := by
  apply agree_change
  dsimp only [Operation.edit, Edit.apply]
  cases r.agent.addElement input agent output <;> rfl

private theorem agree_load (document : Document) (text : String) (peer name : String) :
    Agree s r (.load document text)
      (r.execute s peer name (Operation.load document text).command) := by
  cases document with
  | definition =>
    apply agree_change
    change (AgentFault.lift (r.agent.load text none .definition)).map Edited.silent = _
    unfold Agent.load
    cases r.agent.loadDefinition text <;> rfl
  | mapping =>
    apply agree_change
    change (AgentFault.lift (r.agent.load text none .mapping)).map Edited.silent = _
    unfold Agent.load
    cases r.agent.loadMapping text <;> rfl

private theorem agree_unchanged (applied : operation.edit.apply r.agent = .ok (.silent r.agent)) :
    Agree s r operation (.accepted r.idle) :=
  .accepted (.silent r.agent) none applied rfl

/-- Where a command tells of a flag, so does the edit. -/
private theorem agree_announced {next : Agent} {event : HostEvent} {notice : Command}
    (applied : operation.edit.apply r.agent = .ok (.announced next event notice)) :
    Agree s r operation (.accepted ((r.setAgent next).tell
      (.notify event :: (r.setAgent next).shoutNotice s notice))) := by
  refine .accepted (.announced next event notice) none applied ?_
  simp [carriedOut, Edited.announced, Execution.accepted]

private theorem agree_mute (muted : Bool) : Agree s r (.mute muted) (r.mute s muted) := by
  have applied : (Edit.mute muted).apply r.agent = .ok (r.agent.mute muted) := rfl
  unfold Agent.mute at applied
  unfold Reactor.mute
  split
  next same =>
    rw [if_pos same] at applied
    exact agree_unchanged applied
  next other =>
    rw [if_neg other] at applied
    exact agree_announced applied

private theorem agree_muteOutput (output : String) (muted : Bool) :
    Agree s r (.muteOutput output muted) (r.muteOutput s output muted) := by
  have applied : (Edit.muteOutput output muted).apply r.agent =
      (AgentFault.lift (r.agent.setOutputMuted output muted)).map fun a =>
        .announced a (.outputMuteChanged output muted) (Agent.muteNotice output muted) := rfl
  unfold Reactor.muteOutput
  cases set : r.agent.setOutputMuted output muted with
  | error fault =>
    rw [set] at applied
    exact .refused (.model fault) (.model fault) applied rfl rfl
  | ok next =>
    rw [set] at applied
    exact agree_announced applied

private theorem agree_freeze {frozen : Bool}
    (permitted : frozen = false → r.agent.canBeFrozen = true) :
    Agree s r (.freeze frozen) (r.freeze s frozen) := by
  have applied : (Edit.freeze frozen).apply r.agent = r.agent.freeze frozen := rfl
  unfold Agent.freeze at applied
  unfold Reactor.freeze
  split
  next forbidden =>
    have freezing : frozen = true := by
      cases frozen with
      | true => rfl
      | false => simp [permitted rfl] at forbidden
    rw [if_pos (by rw [freezing, forbidden]; rfl)] at applied
    exact .refused .cannotBeFrozen .cannotBeFrozen applied rfl rfl
  next allowed =>
    rw [if_neg (by simp [allowed])] at applied
    split
    next same =>
      rw [if_pos same] at applied
      exact agree_unchanged applied
    next other =>
      rw [if_neg other] at applied
      exact agree_announced applied

private theorem agree_set {kind : SlotKind} {name : String} (text : String)
    (plain : ∀ slot, r.agent.definition.get? kind name = some slot → slot.type ≠ .data) :
    Agree s r (.set kind name text) (r.set kind name text) := by
  have applied : (Edit.write kind name (.string text)).apply r.agent =
      AgentFault.lift (r.agent.write kind name (.string text)) := rfl
  rw [write_eq] at applied
  have set : r.agent.setText kind name text = _ := setText_eq_write plain
  cases written : r.agent.definition.write kind name (.string text) with
  | error fault =>
    rw [written] at applied set
    exact .refused (.model fault) (.model fault) applied (set_of_refused set) rfl
  | ok result =>
    rw [written] at applied set
    obtain ⟨remark, executed⟩ := set_of_setText set
    refine .accepted _ remark applied (executed.trans ?_)
    simp [carriedOut]

/-- Whichever operation it is. -/
theorem agree_of_common (common : operation.Common r.agent) (peer name : String) :
    Agree s r operation (r.execute s peer name operation.command) := by
  cases operation with
  | clearMapping => exact @agree_change s r .clearMapping (.ok r.agent.clearMapping) rfl
  | map input agent output => exact agree_map input agent output
  | unmap input agent output => exact agree_change rfl
  | mute muted => cases muted <;> exact agree_mute _
  | muteOutput output muted => cases muted <;> exact agree_muteOutput output _
  | freeze frozen =>
    cases frozen with
    | false => exact agree_freeze fun _ => common
    | true => exact agree_freeze nofun
  | load document text => exact agree_load document text peer name
  | set kind name text => exact agree_set text common

private theorem takeAll_nothing (empty : h.queue = []) : h.takeAll s = ⟨h, []⟩ := by
  unfold Host.takeAll
  rw [empty]
  rfl

private theorem takeAll_notice {command : Command} (running : h.reactor? = some r)
    (calm : r.stopReason = none) (waits : h.queue = [.notice command]) :
    h.takeAll s = ⟨{ h with queue := [] }, r.shoutNotice s command⟩ := by
  have taken : h.takeOne s = ⟨{ h with queue := [] }, r.shoutNotice s command⟩ :=
    turn_take running calm waits
  unfold Host.takeAll
  rw [waits, List.foldl_cons, List.foldl_nil]
  dsimp only
  rw [taken, List.nil_append]

theorem call_of_refused {fault : AgentFault} (running : h.reactor? = some r)
    (refused : e.apply r.agent = .error fault) : h.call s e = .error fault := by
  have same : Host.agent { h with queue := [] } = r.agent := agent_of_reactor? running
  unfold Host.call Host.edit
  rw [same, refused]
  rfl

/-- An edit that is carried out publishes first, then tells, and then shouts. -/
theorem call_of_applied (running : h.reactor? = some r) (calm : r.stopReason = none)
    (applied : e.apply r.agent = .ok edited) :
    h.call s e = .ok ⟨{ h with activity := .running (r.setAgent edited.agent) },
      (edited.published.map .publish).toList ++ edited.told.map .notify ++
        edited.notice.toList.flatMap ((r.setAgent edited.agent).shoutNotice s)⟩ := by
  have still : Host.reactor? { h with queue := [] } = some r := running
  have edits : Host.edit { h with queue := [] } e =
      .ok (Host.turn { h with queue := [] } (.edit e)) := by
    have same : Host.agent { h with queue := [] } = r.agent := agent_of_reactor? running
    simp only [Host.turn, Host.edit, same, applied, Except.map]
  unfold Host.call
  rw [edits, turn_edit still applied]
  dsimp only [Except.map, Host.settled]
  cases noticed : edited.notice with
  | none =>
    rw [takeAll_nothing rfl]
    simp
  | some command =>
    have next : Host.reactor? { h with
        activity := .running (r.setAgent edited.agent), queue := [.notice command] } =
        some (r.setAgent edited.agent) := rfl
    simp only [Option.map_some, Option.toList_some, List.nil_append]
    rw [takeAll_notice next calm rfl]
    simp

/-- A peer's command and a call of the host lead to the same state, or both are refused with the same
message. They tell the host's observers, publish and shout the same; only what is told and what is
published change places, and the command is logged. -/
theorem host_and_peers_agree {history : List HostStep} (run : Run h history)
    (running : h.reactor? = some r) (common : operation.Common r.agent) (s : Surroundings)
    (peer : String) :
    let answer := r.execute s peer (r.peerName peer) operation.command
    let asked := h.settle (r.handleCommand s peer operation.command)
    (∃ (edited : Edited) (remark : Option Remark) (log : Log.Entry),
      h.call s operation.edit = .ok ⟨{ h with activity := .running (r.setAgent edited.agent) },
        (edited.published.map .publish).toList ++ edited.told.map .notify ++
          edited.notice.toList.flatMap ((r.setAgent edited.agent).shoutNotice s)⟩ ∧
      answer.outcome = .ok remark ∧
      asked = ⟨{ h with activity := .running (r.setAgent edited.agent) },
        edited.told.map .notify ++ (edited.published.map .publish).toList ++
          edited.notice.toList.flatMap ((r.setAgent edited.agent).shoutNotice s) ++ [.log log]⟩) ∨
    ∃ (fault : AgentFault) (refusal : Refusal) (log : Log.Entry),
      h.call s operation.edit = .error fault ∧
      answer.outcome = .error refusal ∧ refusal.message = fault.message ∧
      asked = ⟨h, [.log log]⟩ := by
  intro answer asked
  have calm : r.stopReason = none := run.stopReason running
  have settles := @settle_handleCommand h r s operation.command peer
  rcases agree_of_common common peer (r.peerName peer) with
    ⟨edited, remark, applied, executed⟩ | ⟨fault, refusal, applied, executed, same⟩
  · apply Or.inl
    rw [executed] at settles
    obtain ⟨log, settled⟩ := settles calm
    refine ⟨edited, remark, log, call_of_applied running calm applied, ?_, settled⟩
    exact congrArg Execution.outcome executed
  · apply Or.inr
    rw [executed] at settles
    obtain ⟨log, settled⟩ := settles calm
    have unchanged : { h with activity := .running r } = h := by
      rw [← activity_of_reactor? running]
    refine ⟨fault, refusal, log, call_of_refused running applied, ?_, same, ?_⟩
    · exact congrArg Execution.outcome executed
    · refine settled.trans ?_
      change HostStep.mk { h with activity := .running r } [.log log] = _
      rw [unchanged]

private def ovenTurns : List Turn := [
  .edit (.create .output "heat" .integer none),
  .start .calm "" "host" ⟨"1", "oven", none⟩ (.ok ⟨4000, none⟩)]

private def oven : Host := (Host.new "oven" Config.empty "o").after ovenTurns

private def heating : Operation := .set .output "heat" "5"

/-- The oven is heated by its host and by a peer alike. -/
theorem oven_heats_either_way : ∃ (r : Reactor) (called : HostStep), oven.reactor? = some r ∧
    oven.call .calm heating.edit = .ok called ∧
    called.host.agent.read? .output "heat" = some (.integer 5) ∧
    (oven.settle (r.handleCommand .calm "p" heating.command)).host = called.host := by
  obtain ⟨history, run⟩ : ∃ history, Run oven history :=
    run_after ovenTurns (.new "oven" Config.empty "o")
  have starts : oven.reactor?.isSome = true := by decide +kernel
  have typed : (oven.agent.definition.get? .output "heat").map (·.type) = some .integer := by
    decide +kernel
  have heats : (oven.call .calm heating.edit).toOption.bind (·.host.agent.read? .output "heat") =
      some (.integer 5) := by decide +kernel
  obtain ⟨r, running⟩ := Option.isSome_iff_exists.mp starts
  have common : heating.Common r.agent := by
    intro slot found data
    rw [agent_of_reactor? running, found, Option.map_some, data] at typed
    cases typed
  rcases host_and_peers_agree run running common .calm "p" with
    ⟨edited, remark, log, called, -, asked⟩ | ⟨fault, refusal, log, called, -⟩
  · refine ⟨r, _, running, called, ?_, ?_⟩
    · rw [called] at heats
      exact heats
    · rw [asked]
  · rw [called] at heats
    cases heats

end Proofs.Operations
end PeerMesh
