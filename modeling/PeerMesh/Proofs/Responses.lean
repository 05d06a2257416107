import PeerMesh.Proofs.Audience
import PeerMesh.Proofs.Profiles
import PeerMesh.Proofs.Writes

/-! How a reactor responds to its peers. What it knows of them goes by the events of its node alone.
What a peer whispers either stays within the agent, or is a notice, or concerns the subscriber of that
very peer, and the only whispers in return are listings. -/

namespace PeerMesh

/-- Two entries that differ at most in what notices tell. -/
def Peer.AlikeButNotices (p q : Peer) : Prop :=
  q = { p with
    muted := q.muted
    frozen := q.frozen
    state := q.state
    mutedOutputs := q.mutedOutputs
    logFilePath := q.logFilePath
    definitionPath := q.definitionPath
    mappingPath := q.mappingPath }

def Peer.notes (p : Peer) (frames : List Bytes) : Peer :=
  match Command.notice? frames with
  | some notice => p.note notice
  | none => p

namespace Directory

/-- Keeps what a peer tells of itself, if its frames spell a notice. -/
def note (d : Directory) (peer : String) (frames : List Bytes) : Directory :=
  match Command.notice? frames with
  | some notice => d.modify peer fun p => p.note notice
  | none => d

def hear (d : Directory) : Presence.Event → Directory
  | .whisper peer _ frames => d.note peer frames
  | .shout peer _ group frames => if group = privateChannel then d.note peer frames else d
  | event => d.learn event

end Directory

/-- The peer that an effect is about: it is whispered to, or its socket is worked, or the host is told
that it comes or goes. -/
def Effect.about? : Effect → Option String
  | .request (.whisper peer _) => some peer
  | .notify (.peerEntered peer _) | .notify (.peerExited peer _) => some peer
  | .connect peer _ | .filter peer _ | .disconnect peer => some peer
  | _ => none

/-- Is about no peer, or whispers a listing to the one that is answered. -/
def Effect.Answers (peer : String) (e : Effect) : Prop :=
  e.about? = none ∨ ∃ listing values,
    e = .request (.whisper peer (Command.listing listing values).toFrames)

namespace Proofs.Responses
open Audience CatchUp ReactorMoves

variable {s : Surroundings} {r : Reactor} {peer name : String}

theorem alikeButNotices_note (p : Peer) (notice : Command) : p.AlikeButNotices (p.note notice) := by
  cases notice with
  | flag flag => cases flag <;> rfl
  | topic topic => cases topic <;> rfl
  | _ => rfl

theorem alikeButNotices_notes (p : Peer) (frames : List Bytes) :
    p.AlikeButNotices (p.notes frames) := by
  unfold Peer.notes
  split
  · exact alikeButNotices_note p _
  · rfl

theorem get?_note (d : Directory) (peer : String) (frames : List Bytes) :
    (d.note peer frames).get? peer = (d.get? peer).map (·.notes frames) := by
  unfold Directory.note Peer.notes
  split
  · exact (Table.get?_modify ..).trans (if_pos rfl)
  · exact Option.map_id'.symm

theorem modify_of_absent {d : Directory} (absent : d.get? peer = none) (change : Peer → Peer) :
    d.modify peer change = d := by
  have unknown : d.peers.get? peer = none := absent
  rw [Directory.modify, Table.modify, unknown]

/-- Nothing is kept of a notice whose sender is not known. -/
theorem directory_executeNotice (notice : Command) :
    (r.executeNotice peer notice).reaction.reactor.directory =
      r.directory.modify peer fun p => p.note notice := by
  unfold Reactor.executeNotice
  cases known : r.directory.get? peer with
  | some p => rfl
  | none => exact (modify_of_absent known _).symm

theorem directory_handleCommand (command : Command) :
    (r.handleCommand s peer command).reactor.directory =
      if command.isNotice then r.directory.modify peer fun p => p.note command else r.directory := by
  obtain ⟨log, handled⟩ := handleCommand_eq s peer command r
  rw [handled]
  change (r.execute s peer (r.peerName peer) command).reaction.reactor.directory = _
  cases notice : command.isNotice with
  | true =>
    rw [execute_notice notice]
    exact directory_executeNotice command
  | false => exact directory_execute notice

/-- Of its peers a reactor knows what it hears of them. -/
theorem directory_handlePresence (event : Presence.Event) :
    (r.handlePresence s event).reactor.directory = r.directory.hear event := by
  cases event with
  | enter id name address headers =>
    simp only [Reactor.handlePresence, Reactor.handleEnter]
    split <;> rfl
  | exit id name =>
    simp only [Reactor.handlePresence, Reactor.handleExit]
    split
    · rfl
    · rfl
    · exact (rewires_dropSubscriber id _).directory
  | join id name group =>
    simp only [Reactor.handlePresence, Reactor.handleJoin]
    split
    · split
      · exact (rewires_ensureSubscriber id _).directory
      · rfl
    · rfl
  | leave id name group =>
    simp only [Reactor.handlePresence, Reactor.handleLeave]
    split <;> rfl
  | whisper id name frames =>
    simp only [Reactor.handlePresence, Reactor.handleWhisper, Directory.hear, Directory.note,
      Command.notice?]
    cases Command.ofFrames frames with
    | error fault => rfl
    | ok command =>
      dsimp only
      rw [directory_handleCommand]
      split <;> rfl
  | shout id name group frames =>
    simp only [Reactor.handlePresence, Reactor.handleShout, Directory.hear, Directory.note,
      Command.notice?]
    by_cases channel : group = privateChannel
    · rw [if_neg (not_not_intro channel), if_pos channel]
      cases Command.ofFrames frames with
      | error fault => rfl
      | ok command =>
        dsimp only
        cases notice : command.isNotice with
        | true =>
          rw [if_pos rfl, directory_handleCommand, notice]
          rfl
        | false => rfl
    · rw [if_pos channel, if_neg channel]
      rfl

/-- Whatever a reactor meets with, its directory goes by the events of its node alone. -/
theorem directory_react (r : Reactor) (s : Surroundings) (stimulus : Stimulus) :
    (r.react s stimulus).reactor.directory =
      match stimulus with
      | .presence event => r.directory.hear event
      | _ => r.directory := by
  cases stimulus with
  | presence event => exact directory_handlePresence event
  | published peer message =>
    simp only [Reactor.react, Reactor.handlePublished]
    split <;> rfl
  | control control =>
    cases control with
    | busWhisper peer frames =>
      simp only [Reactor.react, Reactor.handleControl]
      split <;> rfl
    | _ => rfl
  | definitionTimer =>
    simp only [Reactor.react, Reactor.announceDefinition]
    split <;> rfl
  | mappingTimer =>
    simp only [Reactor.react]
    cases dirty : r.agent.mappingDirty with
    | true =>
      rw [reactor_announceMapping dirty]
      exact (rewires_resolveAll _ (r.setAgent r.agent.clearMappingDirty)).directory
    | false => rw [Reactor.announceMapping, dirty]; rfl
  | outputsTimer =>
    have polled : Rewires r (r.requestDueOutputs s) :=
      .forEach (fun peer r => rewires_requestOutputs peer r) _ r
    exact polled.directory
  | expired | presenceLost => rfl

/-- The ways in which a reactor carries out what a peer whispers. -/
inductive Response (s : Surroundings) (peer : String) (r : Reactor) : Reaction → Prop where
  /-- The agent changes, or the reactor is to stop, and the peer may be answered. -/
  | inward {agent : Agent} {stopReason : Option StopReason} {effects : List Effect}
      (answers : ∀ e ∈ effects, e.Answers peer) :
      Response s peer r ⟨{ r with agent := agent, stopReason := stopReason }, effects⟩
  | noted (notice : Command) :
      Response s peer r { r with directory := r.directory.modify peer fun p => p.note notice }.idle
  /-- The peer has a subscriber, which has not taken in the peer's document. -/
  | subscribed : Response s peer r (r.ensureSubscriber peer)
  | tookIn {before next : Subscriber}
      (found : (r.ensureSubscriber peer).reactor.subscribers.get? peer = some before)
      (same : next.peerName = before.peerName) :
      Response s peer r ((r.ensureSubscriber peer).andThen fun r =>
        { r with subscribers := r.subscribers.insert peer next }.resolve s peer)

private theorem answers_nil : ∀ e ∈ ([] : List Effect), e.Answers peer := fun _ member => by
  cases member

private theorem answers_cons {first : Effect} {effects : List Effect} (one : first.Answers peer)
    (others : ∀ e ∈ effects, e.Answers peer) : ∀ e ∈ first :: effects, e.Answers peer :=
  List.forall_mem_cons.mpr ⟨one, others⟩

private theorem answers_send {request : Presence.Request} (action target : String)
    (command : Command) (one : (Effect.request request).Answers peer) :
    ∀ e ∈ r.send s request action target command, e.Answers peer :=
  forall_send one fun _ => .inl rfl

private theorem answers_shoutNotice (command : Command) :
    ∀ e ∈ r.shoutNotice s command, e.Answers peer :=
  answers_send "shout_failed" privateChannel command (.inl rfl)

private theorem answers_listing (listing : Listing) (values : List DataMessage) :
    ∀ e ∈ r.whisper s peer (.listing listing values), e.Answers peer :=
  answers_send "whisper_failed" peer _ (.inr ⟨listing, values, rfl⟩)

private theorem answers_deliver (peerName : String) (m : DataMessage) (r : Reactor) :
    ∀ e ∈ (r.deliver peerName m).effects, e.Answers peer :=
  forall_deliver r (fun _ _ => .inl rfl) fun _ => .inl rfl

/-- Nothing comes of it. -/
theorem Response.idle : Response s peer r r.idle := .inward answers_nil

private theorem response_freeze (frozen : Bool) : Response s peer r (r.freeze s frozen).reaction := by
  unfold Reactor.freeze
  split
  · exact .idle
  split
  · exact .idle
  · exact .inward (answers_cons (.inl rfl) (answers_shoutNotice _))

private theorem response_mute (muted : Bool) : Response s peer r (r.mute s muted).reaction := by
  unfold Reactor.mute
  split
  · exact .idle
  · exact .inward (answers_cons (.inl rfl) (answers_shoutNotice _))

private theorem response_muteOutput (output : String) (muted : Bool) :
    Response s peer r (r.muteOutput s output muted).reaction := by
  unfold Reactor.muteOutput
  split
  · exact .idle
  · exact .inward (answers_cons (.inl rfl) (answers_shoutNotice _))

private theorem response_save (document : Document) :
    Response s peer r (r.save s document).reaction := by
  unfold Reactor.save
  split
  · exact .idle
  split
  · exact .idle
  · exact .inward (answers_cons (.inl rfl) answers_nil)

private theorem response_set (kind : SlotKind) (slot text : String) :
    Response s peer r (r.set kind slot text).reaction := by
  cases set : r.agent.setText kind slot text with
  | error fault =>
    rw [Writes.set_of_refused set]
    exact .idle
  | ok result =>
    obtain ⟨remark, carriedOut⟩ := Writes.set_of_setText set
    rw [carriedOut]
    refine .inward (answers_cons (.inl rfl) fun e member => ?_)
    obtain ⟨message, -, rfl⟩ := Option.map_eq_some_iff.mp (Option.mem_toList.mp member)
    exact .inl rfl

private theorem response_change (result : Except ModelFault Agent) :
    Response s peer r (r.change result).reaction := by
  cases result with
  | error fault => exact .idle
  | ok agent => exact .inward answers_nil

private theorem response_order (order : Order) :
    Response s peer r (r.executeOrder s peer name order).reaction := by
  cases order with
  | stop | clearMapping => exact .inward answers_nil
  | freeze => exact response_freeze true
  | unfreeze => exact response_freeze false
  | muteAll => exact response_mute true
  | unmuteAll => exact response_mute false
  | requestOutputs | getCurrentInputs | getCurrentParameters => exact .inward (answers_listing _ _)
  | saveDefinition => exact response_save .definition
  | saveMapping => exact response_save .mapping

private theorem response_notice (notice : Command) :
    Response s peer r (r.executeNotice peer notice).reaction := by
  unfold Reactor.executeNotice
  split
  · exact .noted notice
  · exact .idle

private theorem response_external {apply : Subscriber → Except ModelFault Subscriber}
    (same : ∀ {before next}, apply before = .ok next → next.peerName = before.peerName) :
    Response s peer r (r.executeExternal s peer apply).reaction := by
  unfold Reactor.executeExternal
  dsimp only
  split
  · exact .idle
  next before found =>
    split
    · exact .subscribed
    next next applied => exact .tookIn found (same applied)

private def Delivers (peer : String) (r : Reactor) (reaction : Reaction) : Prop :=
  ∃ agent, reaction.reactor = { r with agent := agent } ∧ ∀ e ∈ reaction.effects, e.Answers peer

/-- The deliveries of a listing change the agent one after the other. -/
private theorem response_outputs (values : List DataMessage) :
    Response s peer r (r.executeOutputs peer name values).reaction := by
  unfold Reactor.executeOutputs
  split
  · exact .idle
  next subscriber _ =>
    have delivered : Delivers peer r (r.forEach
        (values.filter fun m => subscriber.filters.contains m.name) (Reactor.deliver name)) := by
      refine forEach_keep (Delivers peer r) ⟨r.agent, rfl, answers_nil⟩ fun m _ reaction => ?_
      rintro ⟨agent, same, answers⟩
      refine ⟨(reaction.reactor.agent.deliver name m).agent, ?_, ?_⟩
      · simp only [Reaction.andThen, Reactor.deliver, Reactor.setAgent, same]
      · exact List.forall_mem_append.mpr ⟨answers, answers_deliver name m _⟩
    obtain ⟨agent, same, answers⟩ := delivered
    change Response s peer r (r.forEach _ _)
    generalize r.forEach _ (Reactor.deliver name) = reaction at same answers
    obtain ⟨after, effects⟩ := reaction
    obtain rfl : after = { r with agent := agent } := same
    exact .inward answers

/-- Whatever command a peer whispers. -/
theorem response_execute (s : Surroundings) (peer name : String) (r : Reactor) (command : Command) :
    Response s peer r (r.execute s peer name command).reaction := by
  cases command with
  | order order => exact response_order order
  | topic topic text =>
    cases topic with
    | mute => exact response_muteOutput text true
    | unmute => exact response_muteOutput text false
    | setLogPath | setDefinitionPath | setMappingPath => exact .inward (answers_shoutNotice _)
    | outputMuted | outputUnmuted | logFilePath | definitionFilePath | mappingFilePath =>
      exact response_notice _
  | flag | state => exact response_notice _
  | enclosure enclosure text =>
    cases enclosure with
    | externalDefinition =>
      refine response_external fun applied => ?_
      obtain ⟨d, -, rfl⟩ := Outcomes.map_eq_ok.mp applied
      rfl
    | externalMapping =>
      refine response_external fun applied => ?_
      obtain ⟨m, -, rfl⟩ := Outcomes.map_eq_ok.mp applied
      rfl
    | loadDefinition | loadMapping => exact response_change _
  | listing listing values =>
    cases listing with
    | outputs => exact response_outputs values
    | currentInputs | currentParameters => exact .idle
  | set kind slot text => exact response_set kind slot text
  | map | unmap => exact response_change _
  | bus => exact .inward (answers_cons (.inl rfl) answers_nil)

end Proofs.Responses
end PeerMesh
