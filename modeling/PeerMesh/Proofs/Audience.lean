import PeerMesh.Proofs.CatchUp

/-! What a peer in the private channel makes of what it hears. It hears what is whispered to it and
what is shouted, and notes the notices among it. Of a facet, something that an agent shows as yes or
no, it keeps the last that was told, and when it arrives it is told how every facet is. -/

namespace PeerMesh

/-- The notice that frames spell. -/
def Command.notice? (frames : List Bytes) : Option Command :=
  match Command.ofFrames frames with
  | .ok command => if command.isNotice then some command else none
  | .error _ => none

/-- What an effect of a node brings to a peer in the private channel. -/
def Effect.brings? (own name peer : String) : Effect → Option Presence.Event
  | .request (.whisper target frames) =>
    if target = peer then some (.whisper own name frames) else none
  | .request (.shout group frames) =>
    if group = privateChannel then some (.shout own name group frames) else none
  | _ => none

def Effect.notice? (peer : String) : Effect → Option Command
  | .request (.whisper target frames) => if target = peer then Command.notice? frames else none
  | .request (.shout group frames) =>
    if group = privateChannel then Command.notice? frames else none
  | _ => none

def Effect.notices (peer : String) (effects : List Effect) : List Command :=
  effects.filterMap (·.notice? peer)

/-- Something of an agent that is so or not, and that is shown to the peers by notices of flags or of
outputs. -/
structure Facet where
  actual : Agent → Bool
  shown : Peer → Bool
  /-- What a command tells of it. -/
  told : Command → Option Bool
  note : ∀ p command, shown (p.note command) = (told command).getD (shown p)
  shows : ∀ {p a}, p.Shows a → shown p = actual a
  documents : ∀ enclosure text, told (.enclosure enclosure text) = none
  topics : ∀ topic text, topic ≠ .outputMuted → topic ≠ .outputUnmuted →
    told (.topic topic text) = none

def Agent.flag (a : Agent) : Flag → Bool
  | .muted => a.muted
  | .frozen => a.frozen

def Agent.mutes (a : Agent) (output : String) : Bool :=
  (a.definition.output? output).any (·.muted)

def Peer.flag (p : Peer) : Flag → Bool
  | .muted => p.muted
  | .frozen => p.frozen

namespace Facet

def heard (f : Facet) (peer : String) (effects : List Effect) : List Bool :=
  (Effect.notices peer effects).filterMap f.told

def flag (flag : Flag) : Facet where
  actual a := a.flag flag
  shown p := p.flag flag
  told
    | .flag other on => if other = flag then some on else none
    | _ => none
  note p command := by
    cases command with
    | flag other on => cases other <;> cases flag <;> rfl
    | topic topic => cases topic <;> cases flag <;> rfl
    | _ => cases flag <;> rfl
  shows shows := by
    cases flag with
    | muted => exact shows.muted
    | frozen => exact shows.frozen
  documents _ _ := rfl
  topics _ _ _ _ := rfl

def outputMuted (output : String) : Facet where
  actual a := a.mutes output
  shown p := Table.contains p.mutedOutputs output
  told
    | .topic .outputMuted other => if other = output then some true else none
    | .topic .outputUnmuted other => if other = output then some false else none
    | _ => none
  note p command := by
    cases command with
    | topic topic other =>
      cases topic with
      | outputMuted =>
        by_cases same : other = output <;> simp [Peer.note, NameSet.contains_add, same]
      | outputUnmuted =>
        by_cases same : other = output <;> simp [Peer.note, Table.contains_erase, same]
      | _ => rfl
    | flag other => cases other <;> rfl
    | _ => rfl
  shows {p a} shows := by
    rw [Bool.eq_iff_iff]
    exact (shows.mutedOutputs output).trans (Option.any_eq_true _ _).symm
  documents _ _ := rfl
  topics topic _ muted unmuted := by
    cases topic with
    | outputMuted => exact absurd rfl muted
    | outputUnmuted => exact absurd rfl unmuted
    | _ => rfl

end Facet

namespace Proofs.Audience
open CatchUp CommandCodec HostRuns ReactorMoves

/-- A peer takes in what effects bring it, in their order and each in surroundings of its own. What
else it does meanwhile leaves what it knows of the sender as it is. -/
inductive Hears (own name peer : String) : Reactor → List Effect → Reactor → Prop where
  | done (p : Reactor) : Hears own name peer p [] p
  | meanwhile {p next last : Reactor} {effects : List Effect}
      (same : next.directory.get? own = p.directory.get? own)
      (rest : Hears own name peer next effects last) : Hears own name peer p effects last
  | nothing {p last : Reactor} {effect : Effect} {effects : List Effect}
      (quiet : effect.brings? own name peer = none) (rest : Hears own name peer p effects last) :
      Hears own name peer p (effect :: effects) last
  | event {p last : Reactor} {effect : Effect} {effects : List Effect} {event : Presence.Event}
      (s : Surroundings) (brought : effect.brings? own name peer = some event)
      (rest : Hears own name peer (p.react s (.presence event)).reactor effects last) :
      Hears own name peer p (effect :: effects) last

variable {s : Surroundings} {r p : Reactor} {own name peer : String} {entry : Peer}

theorem exists_hears (own name peer : String) (p : Reactor) (effects : List Effect) :
    ∃ last, Hears own name peer p effects last := by
  induction effects generalizing p with
  | nil => exact ⟨p, .done p⟩
  | cons effect effects ih =>
    cases brought : effect.brings? own name peer with
    | none =>
      obtain ⟨last, rest⟩ := ih p
      exact ⟨last, .nothing brought rest⟩
    | some event =>
      obtain ⟨last, rest⟩ := ih (p.react .calm (.presence event)).reactor
      exact ⟨last, .event .calm brought rest⟩

private theorem directory_change (result : Except ModelFault Agent) :
    (r.change result).reaction.reactor.directory = r.directory := by
  cases result <;> rfl

private theorem directory_executeOrder (order : Order) :
    (r.executeOrder s peer name order).reaction.reactor.directory = r.directory := by
  cases order with
  | freeze | unfreeze =>
    simp only [Reactor.executeOrder, Reactor.freeze]
    split
    · rfl
    · split <;> rfl
  | muteAll | unmuteAll =>
    simp only [Reactor.executeOrder, Reactor.mute]
    split <;> rfl
  | saveDefinition | saveMapping =>
    simp only [Reactor.executeOrder, Reactor.save]
    split
    · rfl
    · split <;> rfl
  | _ => rfl

private theorem directory_executeExternal (apply : Subscriber → Except ModelFault Subscriber) :
    (r.executeExternal s peer apply).reaction.reactor.directory = r.directory := by
  have ensured := rewires_ensureSubscriber peer r
  unfold Reactor.executeExternal
  dsimp only
  split
  · rfl
  split
  · exact ensured.directory
  · obtain ⟨present, same⟩ := ensured
    have resolved := (rewires_resolve (s := s) peer
      { (r.ensureSubscriber peer).reactor with
        subscribers := (r.ensureSubscriber peer).reactor.subscribers.insert peer ‹_› }).directory
    exact resolved.trans (by rw [same])

private theorem directory_executeOutputs (values : List DataMessage) :
    (r.executeOutputs peer name values).reaction.reactor.directory = r.directory := by
  unfold Reactor.executeOutputs
  split
  · rfl
  · exact forEach_same Reactor.directory fun _ _ _ => rfl

theorem directory_execute {command : Command} (plain : command.isNotice = false) :
    (r.execute s peer name command).reaction.reactor.directory = r.directory := by
  cases command with
  | order order => exact directory_executeOrder order
  | topic topic text =>
    cases topic with
    | mute | unmute =>
      simp only [Reactor.execute, Reactor.muteOutput]
      split <;> rfl
    | setLogPath | setDefinitionPath | setMappingPath => rfl
    | _ => cases plain
  | flag | state => cases plain
  | enclosure enclosure text =>
    cases enclosure with
    | externalDefinition => exact directory_executeExternal _
    | externalMapping => exact directory_executeExternal _
    | loadDefinition => exact directory_change _
    | loadMapping => exact directory_change _
  | listing listing values =>
    cases listing with
    | outputs => exact directory_executeOutputs values
    | _ => rfl
  | set kind slot text =>
    simp only [Reactor.execute, Reactor.set]
    split
    · rfl
    · split
      · split <;> rfl
      · rfl
  | map | unmap => exact directory_change _
  | bus => rfl

/-- Of all commands only a notice changes what is known of its sender. -/
theorem get?_execute (known : r.directory.get? own = some entry) (command : Command) :
    (r.execute s own name command).reaction.reactor.directory.get? own =
      some (if command.isNotice then entry.note command else entry) := by
  cases notice : command.isNotice with
  | false =>
    rw [directory_execute notice]
    exact known
  | true =>
    have found : r.directory.peers.get? own = some entry := known
    rw [execute_notice notice, Reactor.executeNotice, known]
    simp [Execution.accepted, Reactor.idle, Reactor.tell, Directory.get?, Directory.modify, found]

private theorem get?_handleWhisper (known : r.directory.get? own = some entry) (frames : List Bytes) :
    (r.handleWhisper s own frames).reactor.directory.get? own =
      some ((Command.notice? frames).elim entry entry.note) := by
  unfold Reactor.handleWhisper Command.notice?
  cases Command.ofFrames frames with
  | error fault => exact known
  | ok command =>
    refine (get?_execute known command).trans ?_
    dsimp only
    split <;> rfl

private theorem get?_handleShout (known : r.directory.get? own = some entry) (frames : List Bytes) :
    (r.handleShout s own name privateChannel frames).reactor.directory.get? own =
      some ((Command.notice? frames).elim entry entry.note) := by
  unfold Reactor.handleShout Command.notice?
  rw [if_neg (not_not_intro rfl)]
  cases Command.ofFrames frames with
  | error fault => exact known
  | ok command =>
    dsimp only
    split
    next notice =>
      refine (get?_execute known command).trans ?_
      rw [if_pos notice]
      rfl
    next => exact known

theorem notice?_of_brings?_none {effect : Effect} (quiet : effect.brings? own name peer = none) :
    effect.notice? peer = none := by
  unfold Effect.brings? at quiet
  unfold Effect.notice?
  split at quiet
  · split at quiet
    · cases quiet
    next other => exact if_neg other
  · split at quiet
    · cases quiet
    next other => exact if_neg other
  · rfl

theorem get?_react {effect : Effect} {event : Presence.Event}
    (known : p.directory.get? own = some entry)
    (brought : effect.brings? own name peer = some event) :
    (p.react s (.presence event)).reactor.directory.get? own =
      some ((effect.notice? peer).elim entry entry.note) := by
  unfold Effect.brings? at brought
  unfold Effect.notice?
  split at brought
  · split at brought
    next same =>
      cases brought
      rw [if_pos same]
      exact get?_handleWhisper known _
    · cases brought
  · split at brought
    next same =>
      cases brought
      rw [if_pos same, same]
      exact get?_handleShout known _
    · cases brought
  · cases brought

/-- After all that effects bring it, a peer has noted the notices among it one by one. -/
theorem get?_of_hears {last : Reactor} {effects : List Effect}
    (hears : Hears own name peer p effects last) (known : p.directory.get? own = some entry) :
    last.directory.get? own = some ((Effect.notices peer effects).foldl Peer.note entry) := by
  induction hears generalizing entry with
  | done => exact known
  | meanwhile same _ ih => exact ih (same.trans known)
  | nothing quiet _ ih =>
    rw [Effect.notices, List.filterMap_cons_none (notice?_of_brings?_none quiet)]
    exact ih known
  | @event _ _ effect _ _ s brought _ ih =>
    refine (ih (get?_react known brought)).trans ?_
    rw [Effect.notices, Effect.notices, List.filterMap_cons]
    cases effect.notice? peer <;> rfl

variable {f : Facet}

theorem getLastD_append {α : Type} (one two : List α) (a : α) :
    (one ++ two).getLastD a = two.getLastD (one.getLastD a) := by
  induction one generalizing a with
  | nil => rfl
  | cons b one ih => rw [List.cons_append, List.getLastD_cons, List.getLastD_cons, ih]

theorem shown_foldl (f : Facet) (commands : List Command) (entry : Peer) :
    f.shown (commands.foldl Peer.note entry) =
      (commands.filterMap f.told).getLastD (f.shown entry) := by
  induction commands generalizing entry with
  | nil => rfl
  | cons command commands ih =>
    rw [List.foldl_cons, ih, f.note, List.filterMap_cons]
    cases f.told command with
    | none => rfl
    | some on => rw [List.getLastD_cons, Option.getD_some]

/-- A peer shows of a facet what it was told last. -/
theorem shown_of_hears {last : Reactor} {effects : List Effect}
    (hears : Hears own name peer p effects last) (known : p.directory.get? own = some entry) :
    ∃ shown, last.directory.get? own = some shown ∧
      ∀ f : Facet, f.shown shown = (f.heard peer effects).getLastD (f.shown entry) :=
  ⟨_, get?_of_hears hears known, fun f => shown_foldl f _ entry⟩

theorem heard_append (one two : List Effect) :
    f.heard peer (one ++ two) = f.heard peer one ++ f.heard peer two := by
  rw [Facet.heard, Effect.notices, List.filterMap_append, List.filterMap_append]
  rfl

theorem heard_of_silent {effects : List Effect} (silent : ∀ e ∈ effects, e.notice? peer = none) :
    f.heard peer effects = [] := by
  rw [Facet.heard, Effect.notices, List.filterMap_eq_nil_iff.mpr silent]
  rfl

def tells (f : Facet) (command : Command) : List Bool :=
  ((Command.notice? command.toFrames).bind f.told).toList

private theorem heard_request {request : Presence.Request} {command : Command}
    {action target : String}
    (brings : (Effect.request request).notice? peer = Command.notice? command.toFrames) :
    f.heard peer (r.send s request action target command) = tells f command := by
  have rest : ∀ e ∈ (r.send s request action target command).tail, e.notice? peer = none := by
    unfold Reactor.send
    rw [List.tail_cons]
    split
    · exact fun _ member => by cases member
    · intro e member
      cases List.mem_singleton.mp member
      rfl
  change f.heard peer ([Effect.request request] ++ (r.send s request action target command).tail) = _
  rw [heard_append, heard_of_silent rest, List.append_nil, Facet.heard, Effect.notices, tells]
  simp only [List.filterMap_cons, List.filterMap_nil, brings]
  cases Command.notice? command.toFrames with
  | none => rfl
  | some notice =>
    rw [List.filterMap_cons, Option.bind_some]
    cases f.told notice <;> rfl

theorem heard_whisper (s : Surroundings) (r : Reactor) (peer : String) (command : Command) :
    f.heard peer (r.whisper s peer command) = tells f command :=
  heard_request (by rw [Effect.notice?, if_pos rfl])

theorem heard_shoutNotice (s : Surroundings) (r : Reactor) (peer : String) (command : Command) :
    f.heard peer (r.shoutNotice s command) = tells f command :=
  heard_request (by rw [Effect.notice?, if_pos rfl])

/-- Of what comes with a notice and its log, a peer hears the notice. -/
theorem heard_told (s : Surroundings) (r : Reactor) (event : HostEvent) (command : Command)
    (log : Log.Entry) :
    f.heard peer (.notify event :: r.shoutNotice s command ++ [.log log]) = tells f command := by
  have before : f.heard peer [.notify event] = [] := rfl
  have behind : f.heard peer [.log log] = [] := rfl
  rw [← List.singleton_append, heard_append, heard_append, before, behind, heard_shoutNotice,
    List.nil_append, List.append_nil]

theorem heard_edit (published : Option DataMessage) (told : List HostEvent) :
    f.heard peer ((published.map Effect.publish).toList ++ told.map Effect.notify) = [] := by
  refine heard_of_silent fun effect member => ?_
  rcases List.mem_append.mp member with sent | event
  · obtain ⟨message, -, rfl⟩ := Option.map_eq_some_iff.mp (Option.mem_toList.mp sent)
    rfl
  · obtain ⟨event, -, rfl⟩ := List.mem_map.mp event
    rfl

theorem notice?_toFrames {command : Command} (notice : command.isNotice = true)
    (transmissible : Transmissible command) : Command.notice? command.toFrames = some command := by
  rw [Command.notice?, ofFrames_toFrames transmissible]
  exact if_pos notice

theorem tells_of_transmissible {command : Command} (notice : command.isNotice = true)
    (transmissible : Transmissible command) : tells f command = (f.told command).toList := by
  rw [tells, notice?_toFrames notice transmissible, Option.bind_some]

theorem tells_flag (flag other : Flag) (on : Bool) :
    tells (.flag flag) (.flag other on) = if other = flag then [on] else [] := by
  have transmissible : Transmissible (.flag other on) := trivial
  rw [tells_of_transmissible rfl transmissible, Facet.flag]
  dsimp only
  split <;> rfl

theorem tells_muteNotice {d : Definition} {name : String} (sound : d.Sound)
    (present : (d.output? name).isSome = true) (on : Bool) (output : String) :
    tells (.outputMuted output) (Agent.muteNotice name on) = if name = output then [on] else [] := by
  obtain ⟨slot, found⟩ := Option.isSome_iff_exists.mp present
  have notice : (Agent.muteNotice name on).isNotice = true := by cases on <;> rfl
  have told : (Facet.outputMuted output).told (Agent.muteNotice name on) =
      if name = output then some on else none := by cases on <;> rfl
  rw [tells_of_transmissible notice (transmissible_output sound found _), told]
  split <;> rfl

/-- A topic that cannot be sent is not heard of, and no other is read in its place. -/
private theorem tells_topic {topic : Topic} {text : String}
    (notice : (Command.topic topic text).isNotice = true)
    (ignored : f.told (.topic topic text) = none) : tells f (.topic topic text) = [] := by
  cases blank : Text.isAllBlank text.toList with
  | true => rw [tells, Command.notice?, ofFrames_topic_blank topic blank, Option.bind_none]; rfl
  | false =>
    rw [tells_of_transmissible notice (Words.isAllBlank_eq_false.mp blank), ignored]
    rfl

/-- The documents are no notices, and of the notices each tells what it is. -/
theorem tells_catchUp {a : Agent} (sound : a.definition.Sound) :
    a.catchUp.flatMap (tells f) = a.catchUpNotices.filterMap f.told := by
  have document (enclosure : Enclosure) (text : String) : tells f (.enclosure enclosure text) = [] := by
    rw [tells, Command.notice?, ofFrames_enclosure]
    rfl
  have each : ∀ c ∈ a.catchUpNotices, tells f c = (f.told c).toList := by
    intro c listed
    have notice := isNotice_of_mem_catchUp listed
    simp only [Agent.catchUpNotices, List.mem_append, Option.mem_toList, Option.map_eq_some_iff,
      List.mem_map, List.mem_cons, List.not_mem_nil, or_false] at listed
    rcases listed with (((((rfl | rfl) | state) | ⟨slot, muted, rfl⟩) | ⟨path, -, rfl⟩) |
      ⟨path, -, rfl⟩) | ⟨path, -, rfl⟩
    · exact tells_of_transmissible rfl trivial
    · exact tells_of_transmissible rfl trivial
    · split at state
      · cases state
      · cases List.mem_singleton.mp state
        exact tells_of_transmissible rfl trivial
    · obtain ⟨name, found⟩ := Table.mem_values.mp (List.mem_filter.mp muted).1
      have output : a.definition.get? .output name = some slot := found
      rw [(sound.slots output).named]
      exact tells_of_transmissible rfl (transmissible_output sound found .outputMuted)
    · have ignored := f.topics .logFilePath path (by decide) (by decide)
      rw [tells_topic notice ignored, ignored]
      rfl
    · have ignored := f.topics .definitionFilePath path (by decide) (by decide)
      rw [tells_topic notice ignored, ignored]
      rfl
    · have ignored := f.topics .mappingFilePath path (by decide) (by decide)
      rw [tells_topic notice ignored, ignored]
      rfl
  rw [catchUp_eq, List.flatMap_cons, List.flatMap_cons, document, document, List.nil_append,
    List.nil_append]
  generalize a.catchUpNotices = commands at each
  induction commands with
  | nil => rfl
  | cons command commands ih =>
    obtain ⟨first, others⟩ := List.forall_mem_cons.mp each
    rw [List.flatMap_cons, first, ih others, List.filterMap_cons]
    cases f.told command <;> rfl

theorem heard_welcome (sound : r.agent.definition.Sound) :
    f.heard peer (r.welcome s peer).effects = r.agent.catchUpNotices.filterMap f.told := by
  have connected (r : Reactor) : f.heard peer (r.ensureSubscriber peer).effects = [] := by
    rcases ensureSubscriber_cases peer r with ⟨-, same⟩ | ⟨known, endpoint, log, -, -, same⟩
    · rw [same]
      rfl
    · rw [same]
      rfl
  have told (commands : List Command) :
      f.heard peer (commands.flatMap (r.whisper s peer)) = commands.flatMap (tells f) := by
    induction commands with
    | nil => rfl
    | cons command commands ih =>
      rw [List.flatMap_cons, heard_append, heard_whisper, ih, List.flatMap_cons]
  rw [Reactor.welcome, Reaction.andThen, heard_append, connected, List.append_nil]
  exact (told _).trans (tells_catchUp sound)

/-- A peer that comes into the private channel hears how everything is, and nothing else comes of it
for the host. -/
theorem arrive_turn {h : Host} {history : List HostStep} (run : Run h history)
    (running : h.reactor? = some r) (arrives : (r.directory.group peer privateChannel true).2 = true)
    (s : Surroundings) (name : String) :
    let step := h.turn (.happen s (.presence (.join peer name privateChannel)))
    (∃ after, step.host.reactor? = some after ∧ after.agent = r.agent) ∧
      step.host.queue = h.queue ∧
      ∀ f : Facet, f.heard peer step.effects = r.agent.catchUpNotices.filterMap f.told := by
  intro step
  let entered : Reactor := { r with directory := (r.directory.group peer privateChannel true).1 }
  have reacts : r.react s (.presence (.join peer name privateChannel)) = entered.welcome s peer := by
    change r.handleJoin s peer name privateChannel = _
    unfold Reactor.handleJoin
    dsimp only
    rw [if_pos rfl, if_pos arrives]
  obtain ⟨subscribers, rewired⟩ : Rewires entered (entered.welcome s peer) :=
    rewires_ensureSubscriber peer entered
  have calm : r.stopReason = none := run.stopReason running
  have unstopped : (r.react s (.presence (.join peer name privateChannel))).reactor.stopReason =
      none := by
    rw [reacts, rewired]
    exact calm
  have same : step = _ := react_of_running running unstopped
  have sound : entered.agent.definition.Sound :=
    (Models.sound_of_reachable (agent_of_reactor? running ▸ run.reachable)).definition
  rw [same]
  refine ⟨⟨_, rfl, ?_⟩, rfl, fun f => ?_⟩
  · rw [reacts, rewired]
  · dsimp only
    rw [reacts]
    exact heard_welcome sound

/-- What a peer that has just entered shows of a facet, once it has come into the private channel and
heard everything since: what was told of it last, and how it was then if nothing was. -/
theorem shown_of_arrival {h : Host} {history : List HostStep} {last : Reactor} {turns : List Turn}
    (run : Run h history) (running : h.reactor? = some r)
    (arrives : (r.directory.group peer privateChannel true).2 = true)
    {s : Surroundings} {peerName : String}
    (known : p.directory.get? own = some entry) (untold : entry.Untold)
    (hears : Hears own name peer p
      ((h.trace (.happen s (.presence (.join peer peerName privateChannel)) :: turns)).flatMap
        (·.effects)) last) :
    let joined := (h.turn (.happen s (.presence (.join peer peerName privateChannel)))).host
    ∃ shown, last.directory.get? own = some shown ∧
      ∀ f : Facet, f.shown shown =
        (f.heard peer ((joined.trace turns).flatMap (·.effects))).getLastD (f.actual r.agent) := by
  obtain ⟨shown, found, facets⟩ := shown_of_hears hears known
  obtain ⟨-, -, welcomed⟩ := arrive_turn run running arrives s peerName
  have sound : r.agent.definition.Sound :=
    (Models.sound_of_reachable (agent_of_reactor? running ▸ run.reachable)).definition
  refine ⟨shown, found, fun f => ?_⟩
  rw [facets f, Host.trace, List.flatMap_cons, heard_append, getLastD_append, welcomed f,
    ← shown_foldl, f.shows (shows_of_notices sound untold)]

end Proofs.Audience
end PeerMesh
