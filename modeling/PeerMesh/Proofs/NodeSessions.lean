import PeerMesh.Node.Request
import PeerMesh.Proofs.Lines
import PeerMesh.Proofs.Profiles

/-! The sessions of a node that runs. A node can hold several connections to another at a time; for
those who hear of it there is one session, from the first of them to the last. -/

namespace PeerMesh

def LinkState.nodeId? : LinkState → Option String
  | .greeting _ => none
  | .session nodeId _ => some nodeId

/-- The node with which there is a session on a connection. -/
def NodeRun.holder? (run : NodeRun) (connection : Nat) : Option String :=
  (run.link? connection).bind (·.state.nodeId?)

def NodeEffect.event? : NodeEffect → Option Presence.Event
  | .event reported => some reported
  | .send .. | .close _ | .dial _ => none

def NodeInfo.profile (i : NodeInfo) : Profile := ⟨i.name, i.address, i.headers, i.groups⟩

namespace Node
open Presence (Event Request)

/-- What can happen to a node before it stops. -/
inductive Act where
  | accepted (connection : Nat) (remote : IpAddress)
  | dialed (connection : Nat) (remote : IpAddress)
  | receive (connection : Nat) (text : String)
  | closed (connection : Nat)
  | ask (asked : Request) (goesOn : asked ≠ .stop)

def hasLink (n : Node) (connection : Nat) : Bool := (n.run.bind (·.link? connection)).isSome

/-- An act at a node that runs. A connection that comes about has a number that no other has, and a
request that is refused changes nothing. -/
def act (n : Node) : Act → NodeStep
  | .accepted connection remote =>
    if n.hasLink connection then n.idle else n.accepted connection remote
  | .dialed connection remote =>
    if n.hasLink connection then n.idle else n.dialed connection remote
  | .receive connection text => n.receive connection text
  | .closed connection => n.closed connection
  | .ask asked _ =>
    match n.request (.ok 0) asked with
    | .ok step => step
    | .error _ => n.idle

def after (n : Node) : List Act → Node
  | [] => n
  | act :: past => ((n.after past).act act).node

def told (effects : List NodeEffect) : List Event := effects.filterMap NodeEffect.event?

def events (n : Node) : List Act → List Event
  | [] => []
  | act :: past => n.events past ++ told ((n.after past).act act).effects

def holds (n : Node) (id : String) : Bool :=
  n.run.any fun run => run.links.any fun link => run.holder? link.connection = some id

/-- The introduction that comes in with an act, and where its sender was seen. -/
def introduced? (n : Node) : Act → Option (Hello × IpAddress)
  | .receive connection text => do
    let run ← n.run
    let link ← run.link? connection
    let ⟨_, .hello hello, _⟩ ← Line.ofText? text | none
    some (hello, link.remote)
  | _ => none

/-- The introduction on the connection that was the first when a node came. -/
def founder? (n : Node) (id : String) : List Act → Option (Hello × IpAddress)
  | [] => none
  | act :: past =>
    if !(n.after past).holds id && (n.after (act :: past)).holds id then
      (n.after past).introduced? act
    else n.founder? id past

/-- Where a node is after an event, if it may come then: away, or there in some groups. -/
def advance : Option NameSet → Event → Option (Option NameSet)
  | none, .enter .. => some (some Table.empty)
  | some _, .exit .. => some none
  | some groups, .join _ _ group =>
    if Table.contains groups group then none else some (some (groups.add group))
  | some groups, .leave _ _ group =>
    if Table.contains groups group then some (some (Table.erase groups group)) else none
  | some groups, .whisper .. | some groups, .shout .. => some (some groups)
  | _, _ => none

/-- Where the events of a node lead, if they come in blocks: from its entrance to its exit, with
whispers and shouts only between, and with every group joined and left by turns. -/
def blocks (id : String) (events : List Event) : Option (Option NameSet) :=
  (events.filter (·.peer = id)).foldlM advance none

end Node

namespace Proofs.NodeSessions
open Node Profiles
open Presence (Event Request)

variable {n : Node} {run next : NodeRun} {a : Act} {id : String}

theorem connection_of_link? {connection : Nat} {link : Link} (found : run.link? connection = some link) :
    link.connection = connection := by
  have same := List.find?_some found
  exact of_decide_eq_true same

theorem link?_addLink {link : Link} (new : run.link? link.connection = none) :
    (run.addLink link).link? = Function.update run.link? link.connection (some link) := by
  funext connection
  rw [NodeRun.link?, NodeRun.addLink, List.find?_append, Function.update_apply]
  by_cases same : connection = link.connection
  · subst same
    rw [if_pos rfl]
    rw [NodeRun.link?] at new
    rw [new, Option.none_or, List.find?_singleton, if_pos (decide_eq_true rfl)]
  · rw [if_neg same, List.find?_singleton, if_neg (by simpa using Ne.symm same), Option.or_none]
    rfl

theorem link?_setState (run : NodeRun) (connection : Nat) (state : LinkState) :
    (run.setState connection state).link? = Function.update run.link? connection
      ((run.link? connection).map fun link => { link with state := state }) := by
  funext other
  let change (link : Link) : Link :=
    if link.connection = connection then { link with state := state } else link
  have kept : (fun link : Link => decide (link.connection = other)) ∘ change =
      fun link => decide (link.connection = other) := by
    funext link
    simp only [change, Function.comp]
    split <;> rfl
  rw [NodeRun.link?, NodeRun.setState, List.find?_map, kept, Function.update_apply]
  split
  next same =>
    subst same
    cases found : run.link? other with
    | none => rw [← NodeRun.link?, found]; rfl
    | some link =>
      rw [← NodeRun.link?, found, Option.map_some, Option.map_some]
      rw [if_pos (connection_of_link? found)]
  next different =>
    cases found : run.link? other with
    | none => rw [← NodeRun.link?, found]; rfl
    | some link =>
      rw [← NodeRun.link?, found, Option.map_some]
      rw [connection_of_link? found, if_neg different]

theorem link?_dropLink (run : NodeRun) (connection : Nat) :
    (run.dropLink connection).link? = Function.update run.link? connection none := by
  funext other
  rw [NodeRun.link?, NodeRun.dropLink, List.find?_filter, Function.update_apply]
  by_cases same : other = connection
  · subst same
    simp
  · rw [if_neg same, NodeRun.link?]
    congr 1
    funext link
    by_cases there : link.connection = other <;> simp [there, same]

theorem holder?_of_update {connection : Nat} {link : Option Link}
    (links : next.link? = Function.update run.link? connection link) :
    next.holder? = Function.update run.holder? connection (link.bind (·.state.nodeId?)) := by
  funext other
  rw [NodeRun.holder?, links, Function.update_apply, Function.update_apply]
  split <;> rfl

theorem holder?_eq_some {connection : Nat} {link : Link} (found : run.link? connection = some link) :
    run.holder? connection = link.state.nodeId? := by
  rw [NodeRun.holder?, found, Option.bind_some]

theorem holds_iff (runs : n.run = some run) :
    n.holds id = true ↔ ∃ connection, run.holder? connection = some id := by
  rw [holds, runs, Option.any_some, List.any_eq_true]
  constructor
  · rintro ⟨link, -, held⟩
    exact ⟨link.connection, of_decide_eq_true held⟩
  · rintro ⟨connection, held⟩
    obtain ⟨link, found, -⟩ := Option.bind_eq_some_iff.mp held
    refine ⟨link, List.mem_of_find?_eq_some found, decide_eq_true ?_⟩
    rw [connection_of_link? found]
    exact held

/-- What becomes of a node's connections and of whom it knows, and what its agent is told of it. -/
inductive Move (run : NodeRun) (introduced : Option (Hello × IpAddress)) (step : NodeStep) : Prop where
  | quiet {next : NodeRun} (runs : step.node.run = some next) (roster : next.roster = run.roster)
      (holder : next.holder? = run.holder?) (heard : told step.effects = [])
  | spoken {connection : Nat} {id : String} {event : Event} (runs : step.node.run = some run)
      (held : run.holder? connection = some id)
      (speech : (∃ name frames, event = .whisper id name frames) ∨
        ∃ name group frames, event = .shout id name group frames)
      (heard : told step.effects = [event])
  | entered {next : NodeRun} {connection : Nat} {hello : Hello} {remote : IpAddress}
      (runs : step.node.run = some next) (greeted : introduced = some (hello, remote))
      (new : run.holder? connection = none)
      (holder : next.holder? = Function.update run.holder? connection (some hello.nodeId))
      (roster : next.roster = (run.roster.addConnection (recordOf hello remote) connection).1)
      (heard : told step.effects =
        if (run.roster.addConnection (recordOf hello remote) connection).2 then
          (recordOf hello remote).profile.introduction hello.nodeId
        else [])
  | regrouped {next : NodeRun} {connection : Nat} {id group : String} {joined : Bool}
      (runs : step.node.run = some next) (held : run.holder? connection = some id)
      (holder : next.holder? = run.holder?)
      (roster : next.roster = (run.roster.setGroup id group joined).1)
      (heard : told step.effects = (run.roster.setGroup id group joined).2.toList.map fun name =>
        if joined then .join id name group else .leave id name group)
  | left {next : NodeRun} {connection : Nat} {id : String}
      (runs : step.node.run = some next) (held : run.holder? connection = some id)
      (holder : next.holder? = Function.update run.holder? connection none)
      (roster : next.roster = (run.roster.removeConnection id connection).1)
      (heard : told step.effects =
        (run.roster.removeConnection id connection).2.toList.map fun info =>
          .exit info.nodeId info.name)

theorem told_append (effects more : List NodeEffect) :
    told (effects ++ more) = told effects ++ told more := List.filterMap_append

theorem told_of_silent {effects : List NodeEffect} (silent : ∀ e ∈ effects, e.event? = none) :
    told effects = [] := List.filterMap_eq_nil_iff.mpr silent

theorem told_cons (effect : NodeEffect) (effects : List NodeEffect) :
    told (effect :: effects) = effect.event?.toList ++ told effects := by
  rw [told, List.filterMap_cons]
  cases effect.event? <;> rfl

theorem told_map {α : Type} (report : α → Event) (items : List α) :
    told (items.map fun item => .event (report item)) = items.map report := by
  rw [told, List.filterMap_map]
  exact congrFun List.filterMap_eq_map items

theorem told_sendOn (connections : List Nat) (line : Line) : told (sendOn connections line) = [] := by
  refine told_of_silent fun effect member => ?_
  obtain ⟨_, -, rfl⟩ := List.mem_map.mp member
  rfl

theorem told_introduce (n : Node) (run : NodeRun) (connection : Nat) (info : NodeInfo) :
    told (n.introduce run connection info) = info.profile.introduction info.nodeId := by
  have ours : told (n.groups.toList.map fun group => .send connection (n.line (.join group))) = [] := by
    refine told_of_silent fun effect member => ?_
    obtain ⟨_, -, rfl⟩ := List.mem_map.mp member
    rfl
  have gossip : told (if n.settings.gossip then
      sendOn run.roster.broadcast (n.line (.peerList run.roster.listenAddresses)) else []) = [] := by
    split
    · exact told_sendOn ..
    · rfl
  rw [introduce, told_append, told_append, ours, gossip, List.append_nil, List.append_nil, told_cons,
    told_map]
  rfl

variable {introduced : Option (Hello × IpAddress)}

theorem quiet_idle (runs : n.run = some run) : Move run introduced n.idle := .quiet runs rfl rfl rfl

theorem move_opened (n : Node) {connection : Nat} (new : run.link? connection = none)
    (remote : IpAddress) (held : Option Line) {effects : List NodeEffect} (silent : told effects = []) :
    Move run introduced ⟨n.setRun (run.addLink ⟨connection, remote, .greeting held⟩), effects⟩ := by
  refine .quiet rfl rfl ?_ silent
  rw [holder?_of_update (link?_addLink new), Function.update_eq_self_iff, NodeRun.holder?, new]
  rfl

theorem move_finish (n : Node) {connection : Nat} {link : Link}
    (found : run.link? connection = some link) : Move run introduced (n.finish run link) := by
  obtain rfl := connection_of_link? found
  have held := holder?_eq_some found
  have closed := holder?_of_update (link?_dropLink run link.connection)
  rw [finish]
  cases state : link.state with
  | greeting answer =>
    refine .quiet rfl rfl ?_ rfl
    rw [closed, Function.update_eq_self_iff, held, state]
    rfl
  | session nodeId name =>
    rw [state] at held
    refine .left rfl held closed rfl ?_
    dsimp only
    rw [told_cons, told_map]
    rfl

theorem move_greet (n : Node) {connection : Nat} {link : Link} {held : Option Line} {hello : Hello}
    (found : run.link? connection = some link) (greeting : link.state = .greeting held)
    (greeted : introduced = some (hello, link.remote)) :
    Move run introduced (n.greet run link held hello) := by
  obtain rfl := connection_of_link? found
  have new : run.holder? link.connection = none := by
    rw [holder?_eq_some found, greeting]
    rfl
  have links := holder?_of_update
    (link?_setState run link.connection (.session hello.nodeId hello.name))
  rw [found] at links
  refine .entered rfl greeted new links rfl ?_
  rw [greet]
  dsimp only
  have answer : told (held.map (NodeEffect.send link.connection)).toList = [] := by
    cases held <;> rfl
  rw [told_append, answer, List.nil_append]
  split
  · rw [told_introduce]
    rfl
  · rfl

theorem move_setGroup (n : Node) {connection : Nat} (held : run.holder? connection = some id)
    (group : String) (joined : Bool) : Move run introduced (n.regroup run id group joined) := by
  refine .regrouped rfl held rfl rfl ?_
  rw [regroup]
  cases joined with
  | true => exact told_map (fun name => .join id name group) _
  | false => exact told_map (fun name => .leave id name group) _

theorem move_handleLine (runs : n.run = some run) {connection : Nat} {link : Link} {name : String}
    (found : run.link? connection = some link) (session : link.state = .session id name) (l : Line) :
    Move run introduced (n.handleLine run link id name l) := by
  have held : run.holder? connection = some id := by
    rw [holder?_eq_some found, session]
    rfl
  have speech {event : List Bytes → Event}
      (speaks : ∀ frames, (∃ name frames', event frames = .whisper id name frames') ∨
        ∃ name group frames', event frames = .shout id name group frames') :
      Move run introduced ⟨n, l.frames?.toList.map fun frames => .event (event frames)⟩ := by
    cases read : l.frames? with
    | none => exact .quiet runs rfl rfl rfl
    | some frames => exact .spoken runs held (speaks frames) rfl
  unfold handleLine
  dsimp only
  split
  next => exact quiet_idle runs
  next => exact quiet_idle runs
  next group _ => exact move_setGroup n held group true
  next group _ => exact move_setGroup n held group false
  next => exact speech fun frames => .inl ⟨name, frames, rfl⟩
  next group _ =>
    split
    · exact speech fun frames => .inr ⟨name, group, frames, rfl⟩
    · exact quiet_idle runs
  next peers =>
    refine .quiet runs rfl rfl (told_of_silent fun effect member => ?_)
    obtain ⟨_, -, rfl⟩ := List.mem_map.mp member
    rfl
  next => exact move_finish n found

theorem move_receive (runs : n.run = some run) (connection : Nat) (text : String) :
    Move run (n.introduced? (.receive connection text)) (n.receive connection text) := by
  unfold receive
  rw [runs]
  dsimp only
  cases found : run.link? connection with
  | none => exact quiet_idle runs
  | some link =>
    dsimp only
    split
    next id name l session _ => exact move_handleLine runs found session l
    next => exact quiet_idle runs
    next held _ hello _ greeting read =>
      split
      next =>
        refine move_greet n found greeting ?_
        simp only [Node.introduced?, runs, found, read, bind, Option.bind]
      next => exact move_finish n found
    next => exact move_finish n found

theorem quiet_same {step : NodeStep} (runs : n.run = some run) (same : step.node.run = n.run)
    (silent : told step.effects = []) : Move run introduced step :=
  .quiet (same.trans runs) rfl rfl silent

theorem move_request (runs : n.run = some run) {asked : Request} (goesOn : asked ≠ .stop)
    {step : NodeStep} (done : n.request (.ok 0) asked = .ok step) : Move run introduced step := by
  cases asked with
  | setName name | setHeader key value =>
    cases done
    exact quiet_same runs rfl rfl
  | start =>
    simp only [request, start, runs] at done
    cases done
  | join group | leave group =>
    simp only [request, runs, Except.ok.injEq] at done
    subst done
    unfold setGroup
    split
    · exact quiet_idle runs
    · exact quiet_same runs rfl (told_sendOn ..)
  | whisper peer frames =>
    simp only [request, runs, whisper] at done
    split at done
    · split at done
      · cases done
        exact quiet_same runs rfl rfl
      · cases done
    · cases done
  | shout group frames =>
    simp only [request, runs, Except.ok.injEq] at done
    subst done
    exact quiet_same runs rfl (told_sendOn ..)
  | stop => exact absurd rfl goesOn

theorem move_act (runs : n.run = some run) (a : Act) : Move run (n.introduced? a) (n.act a) := by
  have new {connection : Nat} (unused : ¬ n.hasLink connection = true) :
      run.link? connection = none := by
    rw [hasLink, runs, Option.bind_some] at unused
    exact Option.not_isSome_iff_eq_none.mp unused
  cases a with
  | accepted connection remote =>
    rw [act]
    split
    next => exact quiet_idle runs
    next unused =>
      rw [accepted, runs]
      exact move_opened n (new unused) remote none rfl
  | dialed connection remote =>
    rw [act]
    split
    next => exact quiet_idle runs
    next unused =>
      rw [dialed, runs]
      exact move_opened n (new unused) remote _ rfl
  | receive connection text => exact move_receive runs connection text
  | closed connection =>
    rw [act, closed, runs]
    dsimp only
    split
    next => exact quiet_idle runs
    next link found => exact move_finish n found
  | ask asked goesOn =>
    rw [act]
    split
    next step done => exact move_request runs goesOn done
    next => exact quiet_idle runs

/-- Each node that is known is known by its connections, which are those with a session with it. -/
structure Sound (run : NodeRun) : Prop where
  named {id : String} {entry : RosterEntry} (known : run.roster.entries.get? id = some entry) :
    entry.info.nodeId = id ∧ entry.connections ≠ []
  carried {id : String} {connection : Nat} :
    (∃ entry, run.roster.entries.get? id = some entry ∧ connection ∈ entry.connections.map (·.id)) ↔
      run.holder? connection = some id

theorem holds_iff_known (runs : n.run = some run) (sound : Sound run) :
    n.holds id = true ↔ ∃ entry, run.roster.entries.get? id = some entry := by
  rw [holds_iff runs]
  constructor
  · rintro ⟨connection, held⟩
    obtain ⟨entry, known, -⟩ := sound.carried.mpr held
    exact ⟨entry, known⟩
  · rintro ⟨entry, known⟩
    obtain ⟨first, others, some_⟩ := List.exists_cons_of_ne_nil (sound.named known).2
    refine ⟨first.id, sound.carried.mp ⟨entry, known, ?_⟩⟩
    rw [some_]
    exact List.mem_cons_self

theorem sound_of_update {entry : Option RosterEntry} (sound : Sound run)
    (roster : next.roster.entries.get? = Function.update run.roster.entries.get? id entry)
    (named : ∀ e ∈ entry, e.info.nodeId = id ∧ e.connections ≠ [])
    (others : ∀ connection other, other ≠ id →
      (run.holder? connection = some other ↔ next.holder? connection = some other))
    (own : ∀ connection,
      (∃ e ∈ entry, connection ∈ e.connections.map (·.id)) ↔ next.holder? connection = some id) :
    Sound next := by
  refine ⟨fun {other e} known => ?_, fun {other connection} => ?_⟩
  · rw [roster, Function.update_apply] at known
    split at known
    next same =>
      subst same
      exact named e known
    next => exact sound.named known
  · rw [roster, Function.update_apply]
    split
    next same =>
      subst same
      exact own connection
    next different => exact sound.carried.trans (others connection other different)

def view (run : NodeRun) (id : String) : Option Profile := (run.roster.info? id).map NodeInfo.profile

theorem view_of_known {entry : RosterEntry} (known : run.roster.entries.get? id = some entry) :
    view run id = some entry.info.profile := by
  rw [view, Roster.info?, known]
  rfl

theorem view_of_unknown (unknown : run.roster.entries.get? id = none) : view run id = none := by
  rw [view, Roster.info?, unknown]
  rfl

theorem view_of_update {entry : Option RosterEntry}
    (roster : next.roster.entries.get? = Function.update run.roster.entries.get? id entry) :
    view next = Function.update (view run) id (entry.map fun e => e.info.profile) := by
  funext other
  rw [view, Roster.info?, roster, Function.update_apply, Function.update_apply]
  split
  · exact Option.map_map ..
  · rfl

theorem view_of_roster (roster : next.roster = run.roster) : view next = view run := by
  funext other
  rw [view, view, roster]

theorem sound_of_same (sound : Sound run) (roster : next.roster = run.roster)
    (holder : next.holder? = run.holder?) : Sound next := by
  refine ⟨fun known => sound.named (roster ▸ known), ?_⟩
  rw [roster, holder]
  exact sound.carried

theorem step_entered (sound : Sound run) {connection : Nat} {info : NodeInfo}
    (new : run.holder? connection = none)
    (holder : next.holder? = Function.update run.holder? connection (some info.nodeId))
    (roster : next.roster = (run.roster.addConnection info connection).1) :
    Sound next ∧ Recounts (view run)
      (if (run.roster.addConnection info connection).2 then info.profile.introduction info.nodeId else [])
      (view next) := by
  have others (c : Nat) (other : String) (different : other ≠ info.nodeId) :
      run.holder? c = some other ↔ next.holder? c = some other := by
    rw [holder, Function.update_apply]
    split
    next same => simp [same, new, Ne.symm different]
    next => rfl
  have own (c : Nat) : next.holder? c = some info.nodeId ↔ connection = c ∨
      ∃ entry, run.roster.entries.get? info.nodeId = some entry ∧ c ∈ entry.connections.map (·.id) := by
    rw [sound.carried, holder, Function.update_apply]
    split
    next same => simp [same]
    next different => simp [Ne.symm different]
  unfold Roster.addConnection at roster ⊢
  cases known : run.roster.entries.get? info.nodeId with
  | none =>
    simp only [known] at roster ⊢
    have changed := (congrArg (·.entries.get?) roster).trans (Table.update_insert ..)
    refine ⟨sound_of_update sound changed ?_ others fun c => ?_, ?_⟩
    · rintro e ⟨⟩
      exact ⟨rfl, List.cons_ne_nil _ _⟩
    · rw [own c, known]
      simp
    · rw [view_of_update changed]
      exact recounts_introduction (view_of_unknown known) info.profile
  | some entry =>
    simp only [known] at roster ⊢
    have changed := (congrArg (·.entries.get?) roster).trans (Table.update_insert ..)
    refine ⟨sound_of_update sound changed ?_ others fun c => ?_, ?_⟩
    · rintro e ⟨⟩
      exact ⟨(sound.named known).1, List.append_ne_nil_of_left_ne_nil (sound.named known).2 _⟩
    · rw [own c, known]
      simp [or_comm]
    · have same : view next = view run := by
        rw [view_of_update changed, Function.update_eq_self_iff, view_of_known known]
        rfl
      rw [same]
      exact .nil

theorem step_regrouped (sound : Sound run) {connection : Nat} {group : String} {joined : Bool}
    (held : run.holder? connection = some id) (holder : next.holder? = run.holder?)
    (roster : next.roster = (run.roster.setGroup id group joined).1) :
    Sound next ∧ Recounts (view run)
      ((run.roster.setGroup id group joined).2.toList.map fun name =>
        if joined then .join id name group else .leave id name group)
      (view next) := by
  obtain ⟨entry, known, -⟩ := sound.carried.mpr held
  unfold Roster.setGroup at roster ⊢
  simp only [known] at roster ⊢
  split at roster
  next same =>
    rw [if_pos same, view_of_roster roster]
    exact ⟨sound_of_same sound roster holder, .nil⟩
  next different =>
    have changed := (congrArg (·.entries.get?) roster).trans (Table.update_insert ..)
    rw [if_neg different, view_of_update changed]
    refine ⟨sound_of_update sound changed ?_ (fun _ _ _ => by rw [holder]) fun c => ?_, ?_⟩
    · have named := sound.named known
      rintro e ⟨⟩
      exact named
    · rw [holder, ← sound.carried, known]
      simp
    · have present := view_of_known known
      cases joined with
      | true => exact .join present ((Bool.not_eq_true _).mp different) .nil
      | false => exact .leave present ((Bool.not_eq_false _).mp different) .nil

theorem step_left (sound : Sound run) {connection : Nat} (held : run.holder? connection = some id)
    (holder : next.holder? = Function.update run.holder? connection none)
    (roster : next.roster = (run.roster.removeConnection id connection).1) :
    Sound next ∧ Recounts (view run)
      ((run.roster.removeConnection id connection).2.toList.map fun info =>
        .exit info.nodeId info.name)
      (view next) := by
  obtain ⟨entry, known, -⟩ := sound.carried.mpr held
  have others (c : Nat) (other : String) (different : other ≠ id) :
      run.holder? c = some other ↔ next.holder? c = some other := by
    rw [holder, Function.update_apply]
    split
    next same => simp [same, held, Ne.symm different]
    next => rfl
  have own (c : Nat) : next.holder? c = some id ↔
      c ∈ (entry.connections.filter fun k => k.id ≠ connection).map (·.id) := by
    have before : c ∈ entry.connections.map (·.id) ↔ run.holder? c = some id := by
      rw [← sound.carried, known]
      simp
    rw [holder, Function.update_apply]
    split
    next same =>
      subst same
      simp
    next different =>
      rw [← before]
      simp only [List.mem_map, List.mem_filter, decide_eq_true_eq]
      constructor
      · rintro ⟨k, member, rfl⟩
        exact ⟨k, ⟨member, different⟩, rfl⟩
      · rintro ⟨k, ⟨member, -⟩, same⟩
        exact ⟨k, member, same⟩
  unfold Roster.removeConnection at roster ⊢
  simp only [known] at roster ⊢
  split at roster
  next none_left =>
    have changed := (congrArg (·.entries.get?) roster).trans (Table.update_erase ..)
    rw [if_pos none_left, view_of_update changed]
    rw [List.isEmpty_iff] at none_left
    refine ⟨sound_of_update sound changed (fun e member => nomatch member) others fun c => ?_, ?_⟩
    · rw [own c, none_left]
      simp
    · have present := view_of_known known
      rw [← (sound.named known).1] at present ⊢
      exact .exit present .nil
  next some_left =>
    have changed := (congrArg (·.entries.get?) roster).trans (Table.update_insert ..)
    rw [if_neg some_left]
    refine ⟨sound_of_update sound changed ?_ others fun c => ?_, ?_⟩
    · rintro e ⟨⟩
      exact ⟨(sound.named known).1, fun empty => some_left (List.isEmpty_iff.mpr empty)⟩
    · rw [own c]
      simp
    · have same : view next = view run := by
        rw [view_of_update changed, Function.update_eq_self_iff, view_of_known known]
        rfl
      rw [same]
      exact .nil

theorem step_of_move (sound : Sound run) {step : NodeStep} (move : Move run introduced step) :
    ∃ next, step.node.run = some next ∧ Sound next ∧
      Recounts (view run) (told step.effects) (view next) := by
  cases move with
  | quiet runs roster holder heard =>
    rw [heard]
    refine ⟨_, runs, sound_of_same sound roster holder, ?_⟩
    rw [view_of_roster roster]
    exact .nil
  | spoken runs held speech heard =>
    obtain ⟨entry, known, -⟩ := sound.carried.mpr held
    have present := view_of_known known
    rw [heard]
    refine ⟨run, runs, sound, ?_⟩
    rcases speech with ⟨name, frames, rfl⟩ | ⟨name, group, frames, rfl⟩
    · exact .whisper present .nil
    · exact .shout present .nil
  | entered runs _ new holder roster heard =>
    rw [heard]
    exact ⟨_, runs, step_entered sound new holder roster⟩
  | regrouped runs held holder roster heard =>
    rw [heard]
    exact ⟨_, runs, step_regrouped sound held holder roster⟩
  | left runs held holder roster heard =>
    rw [heard]
    exact ⟨_, runs, step_left sound held holder roster⟩

variable {r : Roster} {info : NodeInfo}

theorem info?_addConnection (r : Roster) (info : NodeInfo) (connection : Nat) :
    (r.addConnection info connection).1.info? =
      Function.update r.info? info.nodeId ((r.info? info.nodeId).or (some info)) := by
  funext id
  unfold Roster.addConnection
  cases known : r.entries.get? info.nodeId with
  | none =>
    dsimp only
    rw [Roster.info?, Table.update_insert, Function.update_apply, Function.update_apply]
    split <;> simp [Roster.info?, known]
  | some entry =>
    dsimp only
    rw [Roster.info?, Table.update_insert, Function.update_apply, Function.update_apply]
    split <;> simp [Roster.info?, known]

theorem info?_setGroup {nodeId group : String} {joined : Bool}
    (known : (r.setGroup nodeId group joined).1.info? id = some info) :
    ∃ before groups, r.info? id = some before ∧ info = { before with groups := groups } := by
  unfold Roster.setGroup at known
  split at known
  next => exact ⟨info, info.groups, known, rfl⟩
  next entry found =>
    split at known
    next => exact ⟨info, info.groups, known, rfl⟩
    next =>
      rw [Roster.info?, Table.update_insert, Function.update_apply] at known
      split at known
      next same =>
        cases known
        refine ⟨entry.info, _, ?_, rfl⟩
        rw [same, Roster.info?, found, Option.map_some]
      next => exact ⟨info, info.groups, known, rfl⟩

theorem info?_removeConnection {nodeId : String} {connection : Nat}
    (known : (r.removeConnection nodeId connection).1.info? id = some info) :
    r.info? id = some info := by
  unfold Roster.removeConnection at known
  split at known
  next => exact known
  next entry found =>
    dsimp only at known
    split at known
    next =>
      rw [Roster.info?, Table.update_erase, Function.update_apply] at known
      split at known
      next => cases known
      next => exact known
    next =>
      rw [Roster.info?, Table.update_insert, Function.update_apply] at known
      split at known
      next same =>
        rw [same, Roster.info?, found]
        exact known
      next => exact known

/-- A node is known from its introduction, or it was known before, up to its groups. -/
theorem info_of_move {step : NodeStep} (move : Move run introduced step)
    (runs : step.node.run = some next) (known : next.roster.info? id = some info) :
    (run.roster.info? id = none ∧ ∃ hello remote, introduced = some (hello, remote) ∧
      hello.nodeId = id ∧ info = recordOf hello remote) ∨
    ∃ before groups, run.roster.info? id = some before ∧ info = { before with groups := groups } := by
  cases move with
  | quiet goes roster =>
    cases goes.symm.trans runs
    exact .inr ⟨info, info.groups, roster ▸ known, rfl⟩
  | spoken goes =>
    cases goes.symm.trans runs
    exact .inr ⟨info, info.groups, known, rfl⟩
  | @entered _ connection hello remote goes greeted _ _ roster =>
    cases goes.symm.trans runs
    rw [roster, info?_addConnection, Function.update_apply] at known
    split at known
    next same =>
      subst same
      cases before : run.roster.info? (recordOf hello remote).nodeId with
      | none =>
        rw [before, Option.none_or] at known
        cases known
        exact .inl ⟨rfl, hello, remote, greeted, rfl, rfl⟩
      | some old =>
        rw [before, Option.some_or] at known
        cases known
        exact .inr ⟨_, _, rfl, rfl⟩
    next => exact .inr ⟨info, info.groups, known, rfl⟩
  | regrouped goes _ _ roster =>
    cases goes.symm.trans runs
    exact .inr (info?_setGroup (roster ▸ known))
  | left goes _ _ roster =>
    cases goes.symm.trans runs
    exact .inr ⟨info, info.groups, info?_removeConnection (roster ▸ known), rfl⟩

/-- Whom a node knows, it knows through its connections, from their own introductions, and has told
of nothing else. -/
structure Tracks (n : Node) (past : List Act) (run : NodeRun) : Prop where
  runs : (n.after past).run = some run
  sound : Sound run
  recounts : Recounts (fun _ => none) (n.events past) (view run)
  founded {id : String} {info : NodeInfo} (known : run.roster.info? id = some info) :
    ∃ hello remote, n.founder? id past = some (hello, remote) ∧ hello.nodeId = id ∧
      info = { recordOf hello remote with groups := info.groups }

theorem holds_iff_info (runs : n.run = some run) (sound : Sound run) :
    n.holds id = (run.roster.info? id).isSome := by
  rw [Bool.eq_iff_iff, holds_iff_known runs sound, Roster.info?, Option.isSome_map,
    Option.isSome_iff_exists]

theorem tracks_start {first : Node} {port : Except String Nat} {begun : NodeStep}
    (start : first.start port = .ok begun) : ∃ run, Tracks begun.node [] run := by
  unfold Node.start at start
  split at start
  next => cases start
  next =>
    split at start
    next => cases start
    next port =>
      cases start
      refine ⟨_, rfl, ⟨fun known => ?_, fun {id connection} => ⟨?_, fun held => ?_⟩⟩, .nil,
        fun known => ?_⟩
      · cases known
      · rintro ⟨entry, known, -⟩
        cases known
      · cases held
      · cases known

theorem tracks_cons {past : List Act} (tracks : Tracks n past run) (a : Act) :
    ∃ next, Tracks n (a :: past) next := by
  have move := move_act tracks.runs a
  obtain ⟨next, runs, sound, recounts⟩ := step_of_move tracks.sound move
  refine ⟨next, runs, sound, recounts_append tracks.recounts recounts, fun {id info} known => ?_⟩
  have now : (n.after (a :: past)).holds id = true := by
    rw [after, holds_iff_info runs sound, known, Option.isSome_some]
  rw [founder?, now, Bool.and_true, holds_iff_info tracks.runs tracks.sound]
  rcases info_of_move move runs known with ⟨unknown, hello, remote, greeted, same, rfl⟩ |
    ⟨before, groups, old, rfl⟩
  · rw [unknown, Option.isSome_none, Bool.not_false, if_pos rfl]
    exact ⟨hello, remote, greeted, same, rfl⟩
  · obtain ⟨hello, remote, founded, same, record⟩ := tracks.founded old
    rw [old, Option.isSome_some, Bool.not_true, if_neg Bool.false_ne_true]
    exact ⟨hello, remote, founded, same, congrArg (fun i : NodeInfo => { i with groups := groups }) record⟩

theorem exists_tracks {first : Node} {port : Except String Nat} {begun : NodeStep}
    (start : first.start port = .ok begun) (past : List Act) : ∃ run, Tracks begun.node past run := by
  induction past with
  | nil => exact tracks_start start
  | cons a past ih =>
    obtain ⟨run, tracks⟩ := ih
    exact tracks_cons tracks a

theorem advance_cons {there middle : String → Option Profile} {event : Event} {events : List Event}
    {result : Option (Option NameSet)}
    (own : advance ((there event.peer).map (·.groups)) event =
      some ((middle event.peer).map (·.groups)))
    (others : ∀ other, other ≠ event.peer → middle other = there other)
    (rest : (events.filter (·.peer = id)).foldlM advance ((middle id).map (·.groups)) = result) :
    ((event :: events).filter (·.peer = id)).foldlM advance ((there id).map (·.groups)) = result := by
  by_cases same : event.peer = id
  · subst same
    rw [List.filter_cons_of_pos (by simp), List.foldlM_cons, own]
    exact rest
  · rw [List.filter_cons_of_neg (by simpa using same), ← others id (Ne.symm same)]
    exact rest

theorem advance_of_recounts {there next : String → Option Profile} {events : List Event}
    (recounts : Recounts there events next) (id : String) :
    (events.filter (·.peer = id)).foldlM advance ((there id).map (·.groups)) =
      some ((next id).map (·.groups)) := by
  induction recounts with
  | nil => rfl
  | enter away _ ih =>
    refine advance_cons ?_ (fun other different => Function.update_of_ne different ..) ih
    simp [Event.peer, advance, away]
  | exit present _ ih =>
    refine advance_cons ?_ (fun other different => Function.update_of_ne different ..) ih
    simp [Event.peer, advance, present]
  | join present outside _ ih =>
    refine advance_cons ?_ (fun other different => Function.update_of_ne different ..) ih
    simp [Event.peer, advance, present, outside, Profile.regroup]
  | leave present inside _ ih =>
    refine advance_cons ?_ (fun other different => Function.update_of_ne different ..) ih
    simp [Event.peer, advance, present, inside, Profile.regroup]
  | whisper present _ ih | shout present _ ih =>
    refine advance_cons ?_ (fun _ _ => rfl) ih
    simp [Event.peer, advance, present]

/-- Whatever happens to a node from its start on, what it tells its agent shows the nodes with which
there is a session on some connection, and these only: with what each of them announced on the
connection by which it came, and in the groups that the node has recorded. The events of a node come
in blocks. -/
theorem one_session_per_node {first : Node} {port : Except String Nat} {begun : NodeStep}
    (start : first.start port = .ok begun) (past : List Act) :
    ∃ run, (begun.node.after past).run = some run ∧
    (∀ id, (begun.node.after past).holds id = false →
      (Directory.ofEvents (begun.node.events past)).get? id = none) ∧
    (∀ id, (begun.node.after past).holds id = true →
      ∃ info hello remote, run.roster.info? id = some info ∧
        begun.node.founder? id past = some (hello, remote) ∧ hello.nodeId = id ∧
        (Directory.ofEvents (begun.node.events past)).get? id =
          some { Peer.new id hello.name (recordOf hello remote).address hello.headers with
            reconnections := 0
            groups := info.groups
            joined := Table.contains info.groups privateChannel }) ∧
    ∀ id, blocks id (begun.node.events past) = some ((run.roster.info? id).map (·.groups)) := by
  obtain ⟨run, tracks⟩ := exists_tracks start past
  have shows_ := shows_of_recounts tracks.recounts shows_empty
  refine ⟨run, tracks.runs, fun id away => ?_, fun id there => ?_, fun id => ?_⟩
  · rw [holds_iff_info tracks.runs tracks.sound, Option.isSome_eq_false_iff,
      Option.isNone_iff_eq_none] at away
    exact (shows_ id).trans (by rw [view, away]; rfl)
  · rw [holds_iff_info tracks.runs tracks.sound, Option.isSome_iff_exists] at there
    obtain ⟨info, known⟩ := there
    obtain ⟨hello, remote, founded, same, record⟩ := tracks.founded known
    refine ⟨info, hello, remote, known, founded, same, ?_⟩
    refine (shows_ id).trans ?_
    rw [view, known, record]
    rfl
  · refine (advance_of_recounts tracks.recounts id).trans ?_
    rw [view, Option.map_map]
    rfl

private def host : Node := .new "n-1" ⟨"127.0.0.1", "127.0.0.1", 5670, [], false, false⟩

private def running : Node := host.setRun ⟨Hub.namelessName, Table.empty, 5670, Roster.empty, []⟩

private def hello (name : String) (groups : List String) : Hello :=
  ⟨"n-2", name, none, none, none, Table.empty, groups⟩

private def line (kind : LineKind) : Line := ⟨"n-2", kind, none⟩

private def meeting (ada second join : String) : List Act :=
  [.closed 1, .receive 2 join, .receive 2 second, .receive 1 ada, .dialed 2 .localhost,
    .accepted 1 .localhost]

private theorem holds_ada {ada second join : String}
    (greets : Line.ofText? ada = some (line (.hello (hello "Ada" ["town"]))))
    (again : Line.ofText? second = some (line (.hello (hello "Ada B." ["alley"]))))
    (joins : Line.ofText? join = some (line (.join "square"))) :
    (running.after (meeting ada second join)).holds "n-2" = true ∧
    (running.after (.closed 2 :: meeting ada second join)).holds "n-2" = false ∧
    running.founder? "n-2" (meeting ada second join) = some (hello "Ada" ["town"], .localhost) ∧
    blocks "n-2" (running.events (meeting ada second join)) =
      some (some (NameSet.ofList ["square", "town"])) := by
  simp only [meeting, after, events, founder?, Node.introduced?, act, receive, greets, again, joins]
  decide +kernel

/-- The second connection lasts, and neither its introduction nor the end of the first is told. -/
theorem host_sees_ada : ∃ past,
    host.start (.ok 5670) = .ok ⟨running, []⟩ ∧
    (Directory.ofEvents (running.events past)).get? "n-2" =
      some { Peer.new "n-2" "Ada" "127.0.0.1" Table.empty with
        groups := NameSet.ofList ["square", "town"] } ∧
    (Directory.ofEvents (running.events (.closed 2 :: past))).get? "n-2" = none := by
  have start : host.start (.ok 5670) = .ok ⟨running, []⟩ := rfl
  obtain ⟨there, gone, founder, ends⟩ :=
    holds_ada (Lines.ofText?_toText _) (Lines.ofText?_toText _) (Lines.ofText?_toText _)
  obtain ⟨run, -, -, present, blocks_⟩ := one_session_per_node start (meeting _ _ _)
  obtain ⟨-, -, absent, -, -⟩ := one_session_per_node start (.closed 2 :: meeting _ _ _)
  obtain ⟨info, _, _, known, founded, -, seen⟩ := present "n-2" there
  refine ⟨_, start, ?_, absent "n-2" gone⟩
  have groups : info.groups = NameSet.ofList ["square", "town"] := by
    have recorded := (blocks_ "n-2").symm.trans ends
    rw [known, Option.map_some, Option.some.injEq, Option.some.injEq] at recorded
    exact recorded
  rw [seen, groups]
  cases founded.symm.trans founder
  decide +kernel

end Proofs.NodeSessions
end PeerMesh
