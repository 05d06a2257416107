import PeerMesh.Proofs.Isolation

/-! Shouts and bus messages command nothing. Whatever the frames spell, a shout can at most tell
something about its sender, and the frames of a bus message are the host's to read. -/

namespace PeerMesh

/-- Nothing goes out to the peers, to a socket or to a file. -/
def Effect.Inward : Effect → Prop
  | .log _ | .notify _ => True
  | _ => False

/-- A shout of a peer, or a whisper in which a bus message is wrapped. -/
inductive Incident.Talk : Incident → Prop where
  | shout (s : Surroundings) (peer name group : String) (frames : List Bytes) :
      Talk (.happen s (.presence (.shout peer name group frames)))
  | bus (s : Surroundings) (peer name : String) (frames : List Bytes) :
      Talk (.happen s (.presence (.whisper peer name (Command.bus frames).toFrames)))

namespace Proofs.Shouts
open CatchUp CommandCodec Isolation ReactorMoves Responses

/-- What is known of a peer, before and after, is the same but for what notices tell. -/
inductive Updated : Option Peer → Option Peer → Prop where
  | unknown : Updated none none
  | known {p q : Peer} (alike : p.AlikeButNotices q) : Updated (some p) (some q)

/-- A reaction that takes no command: nothing changes but what notices tell of the peers that are
known, and nothing goes out. -/
structure Uncommanded (r : Reactor) (reaction : Reaction) : Prop where
  kept : reaction.reactor = { r with directory := reaction.reactor.directory }
  updated : ∀ id, Updated (r.directory.get? id) (reaction.reactor.directory.get? id)
  inward : ∀ e ∈ reaction.effects, e.Inward

variable {s : Surroundings} {r : Reactor} {peer name group : String} {frames : List Bytes}
  {reaction : Reaction}

theorem alikeButNotices_trans {p q last : Peer} (first : p.AlikeButNotices q)
    (second : q.AlikeButNotices last) : p.AlikeButNotices last := by
  unfold Peer.AlikeButNotices at *
  rw [second, first]

theorem Updated.refl (known : Option Peer) : Updated known known := by
  cases known with
  | none => exact .unknown
  | some p => exact .known rfl

theorem Updated.trans {before middle after : Option Peer} (first : Updated before middle)
    (second : Updated middle after) : Updated before after := by
  cases first with
  | unknown => exact second
  | known alike =>
    cases second with
    | known further => exact .known (alikeButNotices_trans alike further)

theorem Uncommanded.append {more : Reaction} (first : Uncommanded r reaction)
    (last : Uncommanded reaction.reactor more) :
    Uncommanded r ⟨more.reactor, reaction.effects ++ more.effects⟩ where
  kept := by
    rw [last.kept, first.kept]
  updated id := (first.updated id).trans (last.updated id)
  inward := List.forall_mem_append.mpr ⟨first.inward, last.inward⟩

theorem uncommanded_tell {effects : List Effect} (inward : ∀ e ∈ effects, e.Inward) :
    Uncommanded r (r.tell effects) :=
  ⟨rfl, fun _ => .refl _, inward⟩

/-- Outside of the private channel a shout is for the host. -/
theorem shout_other (other : group ≠ privateChannel) :
    r.react s (.presence (.shout peer name group frames)) =
      r.tell [.notify (.busShout peer name group frames)] :=
  if_pos other

private theorem executeNotice_eq (notice : Command) : (r.executeNotice peer notice).reaction =
    { r with directory := r.directory.modify peer fun p => p.note notice }.idle := by
  unfold Reactor.executeNotice
  cases known : r.directory.get? peer with
  | some p => rfl
  | none =>
    rw [modify_of_absent known]
    rfl

/-- In the private channel a shout is logged, and a notice in it is kept. -/
theorem shout_private (s : Surroundings) (r : Reactor) (peer name : String) (frames : List Bytes) :
    ∃ entry, r.react s (.presence (.shout peer name privateChannel frames)) =
      { r with directory := r.directory.note peer frames }.tell [.log entry] := by
  rw [Reactor.react, Reactor.handlePresence, Reactor.handleShout, if_neg (not_not_intro rfl),
    Directory.note, Command.notice?]
  cases Command.ofFrames frames with
  | error fault => exact ⟨_, rfl⟩
  | ok command =>
    dsimp only
    cases notice : command.isNotice with
    | false => exact ⟨_, rfl⟩
    | true =>
      obtain ⟨log, handled⟩ := handleCommand_eq s peer command r
      rw [if_pos rfl, if_pos rfl, handled, execute_notice notice, executeNotice_eq]
      exact ⟨log, rfl⟩

private theorem updated_note (d : Directory) (peer : String) (frames : List Bytes) (id : String) :
    Updated (d.get? id) ((d.note peer frames).get? id) := by
  by_cases same : peer = id
  · subst same
    rw [get?_note]
    cases d.get? peer with
    | none => exact .unknown
    | some p => exact .known (alikeButNotices_notes p frames)
  · have apart : (Presence.Event.whisper peer "" frames).peer ≠ id := same
    have kept : (d.note peer frames).get? id = d.get? id := get?_hear_of_ne apart d
    rw [kept]
    exact .refl _

theorem uncommanded_shout (s : Surroundings) (r : Reactor) (peer name group : String)
    (frames : List Bytes) :
    Uncommanded r (r.react s (.presence (.shout peer name group frames))) := by
  by_cases channel : group = privateChannel
  · subst channel
    obtain ⟨entry, shouted⟩ := shout_private s r peer name frames
    rw [shouted]
    refine ⟨rfl, updated_note r.directory peer frames, fun e member => ?_⟩
    cases List.mem_singleton.mp member
    trivial
  · rw [shout_other channel]
    refine uncommanded_tell fun e member => ?_
    cases List.mem_singleton.mp member
    trivial

/-- A bus message that is whispered goes to the host as it is. -/
theorem bus_whispered (s : Surroundings) (r : Reactor) (peer name : String) (frames : List Bytes) :
    ∃ entry, r.react s (.presence (.whisper peer name (Command.bus frames).toFrames)) =
      r.tell [.notify (.busWhisper peer (r.peerName peer) frames), .log entry] := by
  have read : Command.ofFrames (Command.bus frames).toFrames = .ok (.bus frames) :=
    ofFrames_toFrames trivial
  obtain ⟨log, handled⟩ := handleCommand_eq s peer (.bus frames) r
  refine ⟨log, ?_⟩
  rw [Reactor.react, Reactor.handlePresence, Reactor.handleWhisper, read]
  exact handled

theorem uncommanded_bus (s : Surroundings) (r : Reactor) (peer name : String) (frames : List Bytes) :
    Uncommanded r (r.react s (.presence (.whisper peer name (Command.bus frames).toFrames))) := by
  obtain ⟨entry, whispered⟩ := bus_whispered s r peer name frames
  rw [whispered]
  refine uncommanded_tell fun e member => ?_
  rcases List.mem_cons.mp member with rfl | member
  · trivial
  · cases List.mem_singleton.mp member
    trivial

/-- What the host asks to be whispered goes to the peer that it means, and nothing changes by it. -/
theorem bus_requested {target : String} {found : Peer} (known : r.directory.find? target = some found)
    (s : Surroundings) (frames : List Bytes) :
    (r.react s (.control (.busWhisper target frames))).reactor = r ∧
      whispered found.id (r.react s (.control (.busWhisper target frames))).effects =
        [(Command.bus frames).toFrames] := by
  have asked : r.react s (.control (.busWhisper target frames)) =
      r.tell (r.whisper s found.id (.bus frames)) := by
    rw [Reactor.react, Reactor.handleControl, known]
  rw [asked]
  exact ⟨rfl, whispered_whisper s r found.id (.bus frames)⟩

theorem uncommanded_meet {incident : Incident} (talk : incident.Talk) (r : Reactor) :
    Uncommanded r (r.meet incident) := by
  cases talk with
  | shout s peer name group frames => exact uncommanded_shout s r peer name group frames
  | bus s peer name frames => exact uncommanded_bus s r peer name frames

theorem uncommanded_meetAll {incidents : List Incident} (talk : ∀ i ∈ incidents, i.Talk)
    (r : Reactor) : Uncommanded r (r.meetAll incidents) :=
  forEach_keep (Uncommanded r) (uncommanded_tell fun _ member => by cases member)
    fun incident member reaction sofar =>
      sofar.append (uncommanded_meet (talk incident member) reaction.reactor)

/-- A shout takes no command, whatever its frames. Outside of the private channel the host gets it and
that is all. In the private channel it is logged, and nothing changes unless it is a notice, which
concerns the entry of its sender. A bus message that is whispered goes to the other host as it was
given, and changes nothing. So no series of shouts and bus messages takes a command. -/
theorem talk_commands_nothing (r : Reactor) :
    (∀ (s : Surroundings) (peer name group : String) (frames : List Bytes),
      let shouted := r.react s (.presence (.shout peer name group frames))
      Uncommanded r shouted ∧
      (∀ other, other ≠ peer →
        shouted.reactor.directory.get? other = r.directory.get? other) ∧
      (group ≠ privateChannel → shouted = r.tell [.notify (.busShout peer name group frames)]) ∧
      (group = privateChannel → ∃ entry, shouted.effects = [.log entry]) ∧
      (Command.notice? frames = none → shouted.reactor = r)) ∧
    (∀ (s : Surroundings) (target : String) (found : Peer) (frames : List Bytes),
      r.directory.find? target = some found →
      (r.react s (.control (.busWhisper target frames))).reactor = r ∧
      whispered found.id (r.react s (.control (.busWhisper target frames))).effects =
        [(Command.bus frames).toFrames]) ∧
    (∀ (s : Surroundings) (peer name : String) (frames : List Bytes), ∃ entry,
      r.react s (.presence (.whisper peer name (Command.bus frames).toFrames)) =
        r.tell [.notify (.busWhisper peer (r.peerName peer) frames), .log entry]) ∧
    ∀ incidents : List Incident, (∀ i ∈ incidents, i.Talk) →
      Uncommanded r (r.meetAll incidents) := by
  refine ⟨fun s peer name group frames => ?_,
    fun s target found frames known => bus_requested known s frames,
    fun s => bus_whispered s r, fun incidents talk => uncommanded_meetAll talk r⟩
  intro shouted
  refine ⟨uncommanded_shout s r peer name group frames, fun other apart => ?_, shout_other, ?_, ?_⟩
  · exact get?_react_of_ne fun same => apart (Option.some.inj same).symm
  · rintro rfl
    obtain ⟨entry, logged⟩ := shout_private s r peer name frames
    exact ⟨entry, congrArg Reaction.effects logged⟩
  · intro silent
    by_cases channel : group = privateChannel
    · subst channel
      obtain ⟨entry, logged⟩ := shout_private s r peer name frames
      rw [Directory.note, silent] at logged
      exact congrArg Reaction.reactor logged
    · exact congrArg Reaction.reactor (shout_other (s := s) channel)

private def tower : Reactor where
  agent := Agent.new "tower"
  settings := Config.empty.reactorSettings "tmp"
  hostAddress := "127.0.0.1"
  directory := ((Directory.empty.enter "f" "foe" "127.0.0.1" Table.empty).1.enter "n" "friend"
    "127.0.0.1" Table.empty).1
  subscribers := Table.empty
  stopReason := none

private def stopFrames : List Bytes := (Command.order .stop).toFrames

private def muteFrames : List Bytes := (Command.flag .muted true).toFrames

/-- The foe stops the tower by a whisper, and by no shout. -/
theorem foe_shouts_in_vain :
    (tower.react .calm (.presence (.whisper "f" "foe" stopFrames))).reactor.stopReason =
      some (.forced "foe") ∧
    (tower.react .calm (.presence (.shout "f" "foe" privateChannel stopFrames))).reactor = tower ∧
    tower.react .calm (.presence (.shout "f" "foe" "town" stopFrames)) =
      tower.tell [.notify (.busShout "f" "foe" "town" stopFrames)] ∧
    (tower.react .calm (.presence (.shout "f" "foe" privateChannel muteFrames))).reactor ≠ tower ∧
    (tower.react .calm (.presence (.shout "f" "foe" privateChannel
      muteFrames))).reactor.directory.get? "n" = tower.directory.get? "n" ∧
    ∃ found : Peer, found.id = "f" ∧
      whispered found.id (tower.react .calm (.control (.busWhisper "foe" stopFrames))).effects =
        [(Command.bus stopFrames).toFrames] := by
  obtain ⟨shouts, requests, -, -⟩ := talk_commands_nothing tower
  have plain : Command.notice? stopFrames = none := by decide +kernel
  have meant : (tower.directory.find? "foe").map (·.id) = some "f" := by decide +kernel
  obtain ⟨found, known, id⟩ := Option.map_eq_some_iff.mp meant
  have friend : "n" ≠ "f" := by decide
  have town : "town" ≠ privateChannel := by decide
  obtain ⟨-, -, -, -, silent⟩ := shouts .calm "f" "foe" privateChannel stopFrames
  obtain ⟨-, -, host, -⟩ := shouts .calm "f" "foe" "town" stopFrames
  obtain ⟨-, others, -⟩ := shouts .calm "f" "foe" privateChannel muteFrames
  exact ⟨by decide +kernel, silent plain, host town, by decide +kernel, others "n" friend, found, id,
    (requests .calm "foe" found stopFrames known).2⟩

end Proofs.Shouts
end PeerMesh
