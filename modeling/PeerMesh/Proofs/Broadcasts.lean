import PeerMesh.Proofs.CatchUp

/-! Peers in the private channel are told of every change. What such a peer has last been told since
it came is kept along a run. As long as the definition is not marked as changed it was told of the
present one, values aside, and as long as the mapping is not marked, of exactly the present one. -/

namespace PeerMesh

namespace Directory

def hasJoined (d : Directory) (peer : String) : Bool := (d.get? peer).any (·.joined)

theorem mem_joinedIds {d : Directory} {peer : String} :
    peer ∈ d.joinedIds ↔ d.hasJoined peer = true := by
  simp only [joinedIds, hasJoined, get?, List.mem_map, List.mem_filter, Prod.exists, exists_and_right,
    exists_eq_right, Table.mem_entries, Option.any_eq_true]

theorem joinedIds_nodup (d : Directory) : d.joinedIds.Nodup :=
  d.peers.keys_nodup.sublist (List.filter_sublist.map _)

theorem hasJoined_insert (d : Directory) (id other : String) (p : Peer) :
    (Directory.mk (d.peers.insert id p)).hasJoined other =
      if id = other then p.joined else d.hasJoined other := by
  simp only [hasJoined, get?, Table.get?_insert]
  split <;> rfl

/-- Entering and leaving brings nobody into the private channel. -/
theorem hasJoined_of_enter {d : Directory} {id name address other : String} {headers : Table String}
    (present : (d.enter id name address headers).1.hasJoined other = true) :
    d.hasJoined other = true := by
  unfold enter at present
  split at present
  next p known =>
    rw [hasJoined_insert] at present
    split at present
    next same =>
      subst same
      rw [hasJoined, known]
      exact present
    next => exact present
  next =>
    rw [hasJoined_insert] at present
    split at present
    · cases present
    · exact present

theorem hasJoined_of_exit {d : Directory} {id other : String}
    (present : (d.exit id).1.hasJoined other = true) : d.hasJoined other = true := by
  unfold exit at present
  split at present
  · exact present
  next p known =>
    split at present
    · rw [hasJoined_insert] at present
      split at present
      next same =>
        subst same
        rw [hasJoined, known]
        exact present
      next => exact present
    · simp only [hasJoined, get?, Table.get?_erase] at present
      split at present
      · cases present
      · exact present

/-- Who is in the private channel after someone has joined or left a group. -/
theorem hasJoined_of_group {d : Directory} {id group other : String} {joined : Bool}
    (present : (d.group id group joined).1.hasJoined other = true) :
    d.hasJoined other = true ∨
      other = id ∧ joined = true ∧ (d.group id group joined).2 = true := by
  unfold Directory.group at present ⊢
  cases known : d.get? id with
  | none => simp only [known] at present; exact .inl present
  | some p =>
    simp only [known] at present ⊢
    rw [hasJoined_insert] at present
    split at present
    next same =>
      subst same
      simp only [Peer.setGroup] at present
      cases before : p.joined with
      | true => exact .inl (by rw [hasJoined, known]; exact before)
      | false =>
        split at present
        next channel => exact .inr ⟨rfl, present, by simp [channel, present]⟩
        next => rw [before] at present; cases present
    next => exact .inl present

theorem hasJoined_of_modify {d : Directory} {id other : String} {change : Peer → Peer}
    (same : ∀ p, (change p).joined = p.joined) (present : (d.modify id change).hasJoined other = true) :
    d.hasJoined other = true := by
  simp only [hasJoined, get?, modify, Table.get?_modify] at present ⊢
  split at present
  · simpa only [Option.any_map, Function.comp_def, same] using present
  · exact present

end Directory

theorem Peer.joined_note (p : Peer) (notice : Command) : (p.note notice).joined = p.joined := by
  unfold Peer.note
  split <;> rfl

namespace Proofs.Broadcasts
open AgentChanges CatchUp HostRuns ReactorMoves

def documents (effects : List Effect) : List (String × Enclosure × String) :=
  effects.filterMap Effect.document?

/-- The last document of a kind that effects bring to a peer. -/
def lastFor (enclosure : Enclosure) (peer : String) (effects : List Effect) : Option String :=
  ((documents effects).reverse.find? fun d => d.1 == peer && d.2.1 == enclosure).map (·.2.2)

def hasJoined (h : Host) (peer : String) : Bool := h.reactor?.any (·.directory.hasJoined peer)

/-- The last document of a kind that a peer in the private channel has been told since it came. The
latest turn comes first. -/
def heard (enclosure : Enclosure) (peer : String) : List HostStep → Option String
  | [] => none
  | step :: earlier =>
    if hasJoined step.host peer then
      (lastFor enclosure peer step.effects).or (heard enclosure peer earlier)
    else none

variable {s : Surroundings} {cause : Stimulus} {r : Reactor} {reaction : Reaction}

theorem documents_append (one two : List Effect) :
    documents (one ++ two) = documents one ++ documents two :=
  List.filterMap_append

theorem documents_of_silent {effects : List Effect} (silent : ∀ e ∈ effects, e.document? = none) :
    documents effects = [] :=
  List.filterMap_eq_nil_iff.mpr silent

theorem documents_whisper (peer : String) (enclosure : Enclosure) (text : String) :
    documents (r.whisper s peer (.enclosure enclosure text)) = [(peer, enclosure, text)] := by
  have request := document?_whisper peer (.enclosure enclosure text)
  unfold documents Reactor.whisper Reactor.send
  rw [List.filterMap_cons_some request]
  split <;> rfl

theorem documents_whisperJoined (enclosure : Enclosure) (text : String) :
    documents (r.whisperJoined s (.enclosure enclosure text)) =
      r.directory.joinedIds.map fun peer => (peer, enclosure, text) := by
  unfold Reactor.whisperJoined
  induction r.directory.joinedIds with
  | nil => rfl
  | cons peer peers ih =>
    rw [List.flatMap_cons, documents_append, documents_whisper, ih, List.map_cons, List.singleton_append]

theorem documents_catchUp (a : Agent) (peer : String) :
    documents (a.catchUp.flatMap (r.whisper s peer)) =
      [(peer, .externalDefinition, a.definition.toText), (peer, .externalMapping, a.mapping.toText)] := by
  have notices : documents (a.catchUpNotices.flatMap (r.whisper s peer)) = [] := by
    refine documents_of_silent fun e member => ?_
    obtain ⟨command, listed, told⟩ := List.mem_flatMap.mp member
    refine silent_whisper (fun enclosure text same => ?_) e told
    have notice := isNotice_of_mem_catchUp listed
    rw [same] at notice
    cases notice
  rw [catchUp_eq, List.flatMap_cons, List.flatMap_cons, documents_append, documents_append,
    documents_whisper, documents_whisper, notices]
  rfl

variable {enclosure : Enclosure} {peer : String} {effects : List Effect}

theorem lastFor_append (one two : List Effect) :
    lastFor enclosure peer (one ++ two) =
      (lastFor enclosure peer two).or (lastFor enclosure peer one) := by
  rw [lastFor, documents_append, List.reverse_append, List.find?_append, Option.map_or]
  rfl

theorem lastFor_of_silent (silent : documents effects = []) : lastFor enclosure peer effects = none := by
  rw [lastFor, silent]
  rfl

/-- Of documents that all are the same, the last is any of them. -/
theorem lastFor_to {peers : List String} {sent : Enclosure} {text : String}
    (told : documents effects = peers.map fun peer => (peer, sent, text)) :
    lastFor enclosure peer effects = if peer ∈ peers ∧ sent = enclosure then some text else none := by
  rw [lastFor, told, ← List.map_reverse]
  cases found : (peers.reverse.map fun peer => (peer, sent, text)).find?
      fun d => d.1 == peer && d.2.1 == enclosure with
  | some d =>
    have matching := List.find?_some found
    obtain ⟨other, member, rfl⟩ := List.mem_map.mp (List.mem_of_find?_eq_some found)
    rw [Bool.and_eq_true, beq_iff_eq, beq_iff_eq] at matching
    obtain ⟨rfl, rfl⟩ := matching
    rw [if_pos ⟨List.mem_reverse.mp member, rfl⟩]
    rfl
  | none =>
    rw [if_neg]
    · rfl
    rintro ⟨member, rfl⟩
    have differs := List.find?_eq_none.mp found _
      (List.mem_map_of_mem (List.mem_reverse.mpr member))
    simp at differs

/-- A text that tells of a definition, values aside. -/
def Tells (text : Option String) (outline : Outline) : Prop :=
  ∃ a : Agent, Reachable a ∧ text = some a.definition.toText ∧ a.definition.outline = outline

/-- Every peer in the private channel was last told of what is not marked as changed. -/
def Told (last : Enclosure → String → Option String) (r : Reactor) : Prop :=
  ∀ peer, r.directory.hasJoined peer = true →
    (r.agent.definitionDirty = false →
      Tells (last .externalDefinition peer) r.agent.definition.outline) ∧
    (r.agent.mappingDirty = false → last .externalMapping peer = some r.agent.mapping.toText)

variable {last : Enclosure → String → Option String}

def update (last : Enclosure → String → Option String) (effects : List Effect) :
    Enclosure → String → Option String :=
  fun enclosure peer => (lastFor enclosure peer effects).or (last enclosure peer)

theorem update_append (one two : List Effect) :
    update last (one ++ two) = update (update last one) two := by
  funext enclosure peer
  rw [update, lastFor_append, Option.or_assoc]
  rfl

theorem update_of_silent (silent : documents effects = []) : update last effects = last := by
  funext enclosure peer
  rw [update, lastFor_of_silent silent, Option.none_or]

/-- Nobody is told anything, and nobody has come. -/
theorem told_of_silent {after : Reactor} (silent : documents effects = [])
    (noted : Noted r.agent after.agent)
    (joined : ∀ peer, after.directory.hasJoined peer = true → r.directory.hasJoined peer = true)
    (told : Told last r) : Told (update last effects) after := by
  rw [update_of_silent silent]
  intro peer present
  obtain ⟨definition, mapping⟩ := told peer (joined peer present)
  refine ⟨fun clean => ?_, fun clean => ?_⟩
  · obtain ⟨before, same⟩ := noted.definition clean
    rw [same]
    exact definition before
  · obtain ⟨before, same⟩ := noted.mapping clean
    rw [same]
    exact mapping before

private theorem told_arrive {directory : Directory} {arrived : String}
    (reachable : Reachable r.agent)
    (joined : ∀ other, directory.hasJoined other = true →
      r.directory.hasJoined other = true ∨ other = arrived)
    (sent : documents effects =
      [(arrived, .externalDefinition, r.agent.definition.toText),
        (arrived, .externalMapping, r.agent.mapping.toText)])
    (told : Told last r) : Told (update last effects) { r with directory := directory } := by
  intro other present
  by_cases same : other = arrived
  · subst same
    have definition : lastFor .externalDefinition other effects =
        some r.agent.definition.toText := by simp [lastFor, sent]
    have mapping : lastFor .externalMapping other effects = some r.agent.mapping.toText := by
      simp [lastFor, sent]
    refine ⟨fun _ => ⟨r.agent, reachable, ?_, rfl⟩, fun _ => ?_⟩
    · rw [update, definition, Option.some_or]
    · rw [update, mapping, Option.some_or]
  · have others (enclosure : Enclosure) : lastFor enclosure other effects = none := by
      simp [lastFor, sent, Ne.symm same]
    obtain ⟨definition, mapping⟩ := told other ((joined other present).resolve_right same)
    simp only [update, others, Option.none_or]
    exact ⟨definition, mapping⟩

theorem documents_announceDefinition (s : Surroundings) (r : Reactor) :
    documents (r.announceDefinition s).effects =
      if r.agent.definitionDirty then
        r.directory.joinedIds.map fun peer =>
          (peer, .externalDefinition, r.agent.definition.toText)
      else [] := by
  unfold Reactor.announceDefinition
  split
  · exact documents_whisperJoined _ _
  · rfl

theorem documents_announceMapping (s : Surroundings) (r : Reactor) :
    documents (r.announceMapping s).effects =
      if r.agent.mappingDirty then
        r.directory.joinedIds.map fun peer => (peer, .externalMapping, r.agent.mapping.toText)
      else [] := by
  cases dirty : r.agent.mappingDirty with
  | false =>
    rw [Reactor.announceMapping, dirty]
    rfl
  | true =>
    rw [announceMapping_of_dirty dirty, Reaction.andThen, documents_append,
      documents_of_silent (silent_resolveAll _ _), List.append_nil]
    exact documents_whisperJoined _ _

private theorem told_announceDefinition (reachable : Reachable r.agent) (told : Told last r) :
    Told (update last (r.announceDefinition s).effects) (r.announceDefinition s).reactor := by
  have sent := documents_announceDefinition s r
  cases dirty : r.agent.definitionDirty with
  | false =>
    rw [dirty] at sent
    rw [update_of_silent sent, Reactor.announceDefinition, dirty]
    exact told
  | true =>
    rw [dirty] at sent
    intro peer present
    have joined : peer ∈ r.directory.joinedIds := by
      rw [announceDefinition_of_dirty dirty] at present
      exact Directory.mem_joinedIds.mpr present
    have heard : update last (r.announceDefinition s).effects .externalDefinition peer =
        some r.agent.definition.toText := by
      rw [update, lastFor_to sent, if_pos ⟨joined, rfl⟩, Option.some_or]
    rw [heard, announceDefinition_of_dirty dirty]
    exact ⟨fun _ => ⟨r.agent, reachable, rfl, rfl⟩, fun clean => by cases clean⟩

private theorem told_announceMapping (told : Told last r) :
    Told (update last (r.announceMapping s).effects) (r.announceMapping s).reactor := by
  have sent := documents_announceMapping s r
  cases dirty : r.agent.mappingDirty with
  | false =>
    rw [dirty] at sent
    rw [update_of_silent sent, Reactor.announceMapping, dirty]
    exact told
  | true =>
    rw [dirty] at sent
    obtain ⟨subscribers, same⟩ :=
      rewires_resolveAll (s := s) r.agent.mappingReplaced (r.setAgent r.agent.clearMappingDirty)
    rw [← reactor_announceMapping dirty] at same
    rw [same]
    intro peer present
    obtain ⟨definition, -⟩ := told peer present
    have mapping : update last (r.announceMapping s).effects .externalMapping peer =
        some r.agent.mapping.toText := by
      rw [update, lastFor_to sent, if_pos ⟨Directory.mem_joinedIds.mpr present, rfl⟩, Option.some_or]
    have kept : update last (r.announceMapping s).effects .externalDefinition peer =
        last .externalDefinition peer := by
      rw [update, lastFor_to sent, if_neg (fun other => by cases other.2), Option.none_or]
    rw [mapping, kept]
    exact ⟨definition, fun _ => rfl⟩

/-- A move that touches the subscribers only tells nobody of a document. -/
private theorem told_of_rewires (rewired : Rewires r reaction)
    (silent : ∀ e ∈ reaction.effects, e.document? = none) (told : Told last r) :
    Told (update last reaction.effects) reaction.reactor := by
  obtain ⟨subscribers, same⟩ := rewired
  rw [same]
  exact told_of_silent (documents_of_silent silent) (.refl _) (fun _ => id) told

theorem told_move (move : Move s cause r reaction) (reachable : Reachable r.agent)
    (told : Told last r) : Told (update last reaction.effects) reaction.reactor := by
  cases move with
  | tell silent => exact told_of_silent (documents_of_silent silent) (.refl _) (fun _ => id) told
  | change changes => exact told_of_silent rfl (noted_of_changes changes) (fun _ => id) told
  | stop => exact told_of_silent rfl (.refl r.agent) (fun _ => id) told
  | enter => exact told_of_silent rfl (.refl r.agent) (fun _ => Directory.hasJoined_of_enter) told
  | exit => exact told_of_silent rfl (.refl r.agent) (fun _ => Directory.hasJoined_of_exit) told
  | group peer group joined outside =>
    refine told_of_silent rfl (.refl r.agent) (fun other present => ?_) told
    rcases Directory.hasJoined_of_group present with before | ⟨-, came, flipped⟩
    · exact before
    · rcases outside with left | settled
      · rw [came] at left; cases left
      · rw [flipped] at settled; cases settled
  | arrive peer flipped =>
    refine told_arrive reachable (fun other present => ?_) (documents_catchUp r.agent peer) told
    exact (Directory.hasJoined_of_group present).imp_right And.left
  | note peer notice =>
    exact told_of_silent rfl (.refl r.agent)
      (fun _ => Directory.hasJoined_of_modify fun p => p.joined_note notice) told
  | ensure peer =>
    exact told_of_rewires (rewires_ensureSubscriber peer r) (silent_ensureSubscriber peer r) told
  | drop peer =>
    exact told_of_rewires (rewires_dropSubscriber peer r) (silent_dropSubscriber peer r) told
  | poll peer =>
    exact told_of_rewires (rewires_requestOutputs peer r) (silent_requestOutputs peer r) told
  | @takeIn peer _ _ next found taken =>
    obtain ⟨subscribers, same⟩ :=
      rewires_resolve (s := s) peer { r with subscribers := r.subscribers.insert peer next }
    exact told_of_rewires ⟨subscribers, same⟩ (silent_resolve peer _) told
  | announceDefinition => exact told_announceDefinition reachable told
  | announceMapping => exact told_announceMapping told

theorem told_moves (moves : Moves s cause r reaction) (reachable : Reachable r.agent)
    (told : Told last r) : Told (update last reaction.effects) reaction.reactor := by
  induction moves with
  | idle => exact told
  | tail earlier move ih =>
    rw [update_append]
    exact told_move move (reachable.evolve (evolves_of_moves earlier)) ih

variable {h : Host} {history : List HostStep}

theorem told_of_run (run : Run h history) (running : h.reactor? = some r) :
    Told (fun enclosure peer => heard enclosure peer history) r := by
  induction run generalizing r with
  | new => cases running
  | @turn h history earlier t ih =>
    rcases turn_cases running with ⟨s, cause, before, same, moves⟩ | fresh
    · have reachable := agent_of_reactor? same ▸ earlier.reachable
      have told := told_moves moves reachable (ih same)
      intro peer present
      have joined : hasJoined (h.turn t).host peer = true := by
        rw [hasJoined, running]
        exact present
      simp only [heard, joined, if_true]
      exact told peer present
    · intro peer present
      rw [fresh.directory] at present
      cases present

def copies (enclosure : Enclosure) (peer : String) (effects : List Effect) : Nat :=
  (documents effects).countP fun d => d.1 == peer && d.2.1 == enclosure

theorem copies_definitionTimer (s : Surroundings) (r : Reactor) (peer : String) :
    copies .externalDefinition peer (r.react s .definitionTimer).effects =
      if r.agent.definitionDirty && r.directory.hasJoined peer then 1 else 0 := by
  rw [copies, Reactor.react, documents_announceDefinition]
  cases r.agent.definitionDirty with
  | false => rfl
  | true =>
    have counted : ((r.directory.joinedIds.map fun peer =>
          (peer, Enclosure.externalDefinition, r.agent.definition.toText)).countP
        fun d => d.1 == peer && d.2.1 == .externalDefinition) = r.directory.joinedIds.count peer := by
      rw [List.countP_map, List.count]
      exact List.countP_congr fun other _ => by simp
    rw [if_pos rfl, Bool.true_and, counted, r.directory.joinedIds_nodup.count]
    simp only [Directory.mem_joinedIds]

/-- Whether a text tells of a definition with a given outline. Read again, it gives that outline. -/
def Carries (text : Option String) (outline : Outline) : Prop :=
  ∃ d : Definition, text = some d.toText ∧ d.outline = outline ∧
    (d.ReadsBack → ∃ read, Definition.ofText d.toText = .ok read ∧ read.outline = outline)

theorem carries_of_tells {text : Option String} {outline : Outline} (tells : Tells text outline) :
    Carries text outline := by
  obtain ⟨a, reachable, rfl, rfl⟩ := tells
  have sound := (Models.sound_of_reachable reachable).definition
  exact ⟨a.definition, rfl, rfl, fun readsBack => ⟨a.definition.asRead,
    Definitions.ofText_toText sound readsBack, Definitions.outline_asRead a.definition⟩⟩

/-- In every run, the peers in the private channel have been told of whatever is not marked as
changed. A firing of the definition's timer tells each of them once if there is something to tell,
and nobody else. -/
theorem joined_peers_are_told {h : Host} {history : List HostStep} {r : Reactor}
    (run : Run h history) (running : h.reactor? = some r) :
    (∀ peer, r.directory.hasJoined peer = true →
      (r.agent.definitionDirty = false →
        Carries (heard .externalDefinition peer history) r.agent.definition.outline) ∧
      (r.agent.mappingDirty = false →
        heard .externalMapping peer history = some r.agent.mapping.toText ∧
          Mapping.ofText r.agent.mapping.toText = .ok r.agent.mapping)) ∧
    ∀ (s : Surroundings) (peer : String),
      copies .externalDefinition peer (r.react s .definitionTimer).effects =
        if r.agent.definitionDirty && r.directory.hasJoined peer then 1 else 0 := by
  have told := told_of_run run running
  have reachable : Reachable r.agent := agent_of_reactor? running ▸ run.reachable
  refine ⟨fun peer joined => ?_, fun s peer => copies_definitionTimer s r peer⟩
  obtain ⟨definition, mapping⟩ := told peer joined
  exact ⟨fun clean => carries_of_tells (definition clean), fun clean =>
    ⟨mapping clean, Mappings.ofText_toText (Models.sound_of_reachable reachable).mapping⟩⟩

/-- A boiler that gets an input and a mapping while a gauge is there to be told. -/
private def boilerTurns : List Turn := [
  .start .calm "" "host" ⟨"1", "boiler", none⟩ (.ok ⟨4000, none⟩),
  .happen .calm (.presence (.enter "g" "gauge" "host" (Table.ofList [("publisher", "5000")]))),
  .happen .calm (.presence (.join "g" "gauge" privateChannel)),
  .edit (.create .input "heat" .double none),
  .edit (.addElement "heat" "gauge" "need"),
  .happen .calm .definitionTimer,
  .happen .calm .mappingTimer]

private def boiler : Host := (Host.new "boiler" Config.empty "b").after boilerTurns

private def gaugeIsDue (h : Host) : Option (Bool × Bool × Bool) :=
  h.reactor?.map fun r =>
    (r.agent.definitionDirty, r.agent.mappingDirty, r.directory.hasJoined "g")

theorem gauge_is_told : ∃ (r : Reactor) (history : List HostStep),
    boiler.reactor? = some r ∧ Run boiler history ∧
      r.directory.hasJoined "g" = true ∧
      Carries (heard .externalDefinition "g" history) r.agent.definition.outline ∧
      heard .externalMapping "g" history = some r.agent.mapping.toText := by
  obtain ⟨history, run⟩ := run_after boilerTurns (.new "boiler" Config.empty "b")
  have due : gaugeIsDue boiler = some (false, false, true) := by decide +kernel
  obtain ⟨r, running, flags⟩ := Option.map_eq_some_iff.mp due
  obtain ⟨definition, rest⟩ := Prod.mk.inj flags
  obtain ⟨mapping, joined⟩ := Prod.mk.inj rest
  obtain ⟨told, heardMapping⟩ := (joined_peers_are_told run running).1 "g" joined
  exact ⟨r, history, running, run, joined, told definition, (heardMapping mapping).1⟩

end Proofs.Broadcasts
end PeerMesh
