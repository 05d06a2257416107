import PeerMesh.Proofs.Lines
import PeerMesh.Proofs.NodeSessions

/-! What a node records of the groups of another when a connection comes about between them. The other
announces its groups in its introduction, and from the registration of the connection on it sends a
line for each that it joins or leaves. In between only what it joins is made up for: a group that it
leaves then stays in the record. -/

namespace PeerMesh

/-- The groups of a node after one of its lines. -/
def Line.regroup (groups : NameSet) (l : Line) : NameSet :=
  match l.kind with
  | .join group => groups.add group
  | .leave group => Table.erase groups group
  | _ => groups

def NodeEffect.lineOn? (connection : Nat) : NodeEffect → Option Line
  | .send other l => if other = connection then some l else none
  | .event _ | .close _ | .dial _ => none

namespace Node
open Presence (Request)

def linesOn (connection : Nat) (effects : List NodeEffect) : List Line :=
  effects.filterMap (NodeEffect.lineOn? connection)

def sent (n : Node) (connection : Nat) : List Act → List Line
  | [] => []
  | act :: past =>
    n.sent connection past ++ linesOn connection ((n.after past).act act).effects

def heard (connection : Nat) : List Act → List String
  | [] => []
  | .receive other text :: past =>
    heard connection past ++ if other = connection then [text] else []
  | _ :: past => heard connection past

def registered (n : Node) (connection : Nat) : Bool :=
  n.run.any fun run => (run.holder? connection).isSome

/-- Whether a node that was in a group before all acts has not been in it since a connection was
registered. -/
def leftBehind (n : Node) (connection : Nat) (group : String) : List Act → Bool
  | [] => Table.contains n.groups group
  | act :: past =>
    n.leftBehind connection group past &&
      !((n.after (act :: past)).registered connection &&
        Table.contains (n.after (act :: past)).groups group)

def isAlone (n : Node) : Bool := n.run.any fun run => run.roster = Roster.empty && run.links = []

/-- What two nodes have done since one dialed the other, with each one's number for the connection.
Their hosts can ask for anything meanwhile. The lines that either sends come in at the other one by
one, in their order. -/
inductive Handshake (near far : Node) (c d : Nat) : List Act → List Act → Prop where
  | accepted (dialer listener : IpAddress) :
      Handshake near far c d [.accepted c dialer] [.dialed d listener]
  | dialed (dialer listener : IpAddress) :
      Handshake near far c d [.dialed c listener] [.accepted d dialer]
  | near {past other : List Act} (run : Handshake near far c d past other) (asked : Request)
      (goesOn : asked ≠ .stop) : Handshake near far c d (.ask asked goesOn :: past) other
  | far {past other : List Act} (run : Handshake near far c d past other) (asked : Request)
      (goesOn : asked ≠ .stop) : Handshake near far c d past (.ask asked goesOn :: other)
  | nearHears {past other : List Act} {l : Line} (run : Handshake near far c d past other)
      (next : (far.sent d other)[(heard c past).length]? = some l) :
      Handshake near far c d (.receive c l.toText :: past) other
  | farHears {past other : List Act} {l : Line} (run : Handshake near far c d past other)
      (next : (near.sent c past)[(heard d other).length]? = some l) :
      Handshake near far c d past (.receive d l.toText :: other)

end Node

namespace Proofs.Handshakes
open Node NodeSessions
open Presence (Request)

variable {n first : Node} {run : NodeRun} {c : Nat}

theorem linesOn_append (c : Nat) (effects more : List NodeEffect) :
    linesOn c (effects ++ more) = linesOn c effects ++ linesOn c more := List.filterMap_append

theorem linesOn_of_silent {effects : List NodeEffect} (silent : ∀ e ∈ effects, e.lineOn? c = none) :
    linesOn c effects = [] := List.filterMap_eq_nil_iff.mpr silent

theorem linesOn_map {α : Type} (c : Nat) (line : α → Line) (items : List α) :
    linesOn c (items.map fun item => .send c (line item)) = items.map line := by
  have all : (NodeEffect.lineOn? c ∘ fun item => NodeEffect.send c (line item)) =
      fun item => some (line item) := by
    funext item
    exact if_pos rfl
  rw [linesOn, List.filterMap_map, all]
  exact congrFun List.filterMap_eq_map items

def known (other : String) (info : NodeInfo) (c : Nat) : Roster :=
  ⟨Table.empty.insert other ⟨info, [⟨c, true⟩]⟩⟩

theorem get?_known (other : String) (info : NodeInfo) (c : Nat) :
    (known other info c).entries.get? other = some ⟨info, [⟨c, true⟩]⟩ := by
  rw [known, Table.get?_insert, if_pos rfl]

theorem setGroup_known (other : String) (info : NodeInfo) (c : Nat) (group : String) (joined : Bool) :
    ((known other info c).setGroup other group joined).1 =
      known other { info with
        groups := if joined then info.groups.add group else Table.erase info.groups group } c := by
  rw [Roster.setGroup, get?_known]
  dsimp only
  split
  next same => rw [NameSet.change_eq_self same]
  next => exact congrArg Roster.mk (Table.insert_insert ..)

/-- A line that says nothing of groups and ends nothing. -/
structure Idle (l : Line) : Prop where
  regroup (groups : NameSet) : l.regroup groups = groups
  stays : l.kind ≠ .disconnect

/-- What becomes of a node and what it sends when its host asks for something. -/
inductive Answer (n : Node) (run : NodeRun) (step : NodeStep) : Prop where
  | quiet (runs : step.node.run = n.run) (id : step.node.id = n.id)
      (groups : step.node.groups = n.groups) (silent : step.effects = [])
  | speaks {connections : List Nat} {l : Line} (same : step.node = n)
      (reached : run.roster = Roster.empty → connections = []) (idle : Idle l)
      (sends : step.effects = sendOn connections l)
  | regroups {group : String} {joined : Bool} (differs : Table.contains n.groups group ≠ joined)
      (changed : step.node = { n with
        groups := if joined then n.groups.add group else Table.erase n.groups group })
      (sends : step.effects =
        sendOn run.roster.broadcast (n.line (if joined then .join group else .leave group)))

theorem answer_setGroup (n : Node) (run : NodeRun) (group : String) (joined : Bool) :
    Answer n run (n.setGroup run group joined) := by
  rw [setGroup]
  split
  next => exact .quiet rfl rfl rfl rfl
  next differs => exact .regroups differs rfl rfl

theorem answer_ask (runs : n.run = some run) (asked : Request) (goesOn : asked ≠ .stop) :
    Answer n run (n.act (.ask asked goesOn)) := by
  rw [act]
  cases asked with
  | setName name | setHeader key value => exact .quiet rfl rfl rfl rfl
  | start =>
    simp only [request, start, runs]
    exact .quiet rfl rfl rfl rfl
  | join group | leave group =>
    simp only [request, runs]
    exact answer_setGroup ..
  | whisper peer frames =>
    simp only [request, runs, whisper]
    split
    next step done =>
      split at done
      next there =>
        split at done
        next connection _ =>
          cases done
          have sends (l : Line) : [NodeEffect.send connection l] = sendOn [connection] l := rfl
          have idle : Idle ⟨n.id, .whisper, some (.ofFrames frames)⟩ :=
            ⟨fun _ => rfl, by simp⟩
          refine .speaks rfl (fun empty => ?_) idle (sends _)
          rw [empty] at there
          cases there
        next => cases done
      next => cases done
    next => exact .quiet rfl rfl rfl rfl
  | shout group frames =>
    simp only [request, runs]
    have idle : Idle ⟨n.id, .shout group, some (.ofFrames frames)⟩ :=
      ⟨fun _ => rfl, by simp⟩
    refine .speaks rfl (fun empty => ?_) idle rfl
    rw [empty]
    rfl
  | stop => exact absurd rfl goesOn

theorem linesOn_sendOn (c : Nat) (l : Line) : linesOn c (sendOn [c] l) = [l] :=
  linesOn_map c (fun _ : Unit => l) [()]

/-- A line with which a node introduces itself. -/
structure Introduces (n : Node) (l : Line) (hello : Hello) : Prop where
  kind : l.kind = .hello hello
  id : hello.nodeId = n.id
  protocol : hello.protocol = some Version.protocolName
  groups : NameSet.ofList hello.groups = n.groups

theorem introduces (n : Node) (run : NodeRun) : ∃ hello, Introduces n (n.introduction run) hello :=
  ⟨_, rfl, rfl, rfl, NameSet.ofList_toList n.groups⟩

/-- How far a node has come with its only connection: what it has sent, what it has heard, what it
has recorded of the node at the other end, and what lines after its introduction say of its own
groups. -/
inductive Linked (first : Node) (ours theirs : Line) (hello : Hello) (c : Nat) (n : Node)
    (left : String → Bool) (uttered taken : List Line) : Prop where
  | greeting {run : NodeRun} {remote : IpAddress} {held : Option Line} (id : n.id = first.id)
      (runs : n.run = some run) (links : run.links = [⟨c, remote, .greeting held⟩])
      (roster : run.roster = Roster.empty) (said : uttered ++ held.toList = [ours])
      (unheard : taken = [])
      (announced : ∀ group, left group = Table.contains first.groups group)
  | session {run : NodeRun} {remote : IpAddress} {name : String} {info : NodeInfo}
      {rest more : List Line} (id : n.id = first.id)
      (runs : n.run = some run) (links : run.links = [⟨c, remote, .session hello.nodeId name⟩])
      (roster : run.roster = known hello.nodeId info c)
      (said : uttered = ours :: rest) (stays : ∀ l ∈ rest, l.kind ≠ .disconnect)
      (spread : ∀ group, Table.contains (rest.foldl Line.regroup first.groups) group =
        (Table.contains n.groups group || left group))
      (apart : ∀ group, left group = true → Table.contains n.groups group = false)
      (all : taken = theirs :: more)
      (recorded : info.groups = more.foldl Line.regroup (NameSet.ofList hello.groups))

variable {ours theirs : Line} {hello : Hello} {left : String → Bool} {uttered taken : List Line}

theorem link?_of_links {link : Link} (links : run.links = [link]) :
    run.link? link.connection = some link := by
  rw [NodeRun.link?, links, List.find?_singleton, if_pos (decide_eq_true rfl)]

theorem registered_of_links {link : Link} (runs : n.run = some run) (links : run.links = [link]) :
    n.registered link.connection = link.state.nodeId?.isSome := by
  rw [registered, runs, Option.any_some, holder?_eq_some (link?_of_links links)]

def leftNow (n : Node) (c : Nat) (left : String → Bool) (group : String) : Bool :=
  left group && !(n.registered c && Table.contains n.groups group)

/-- A step of a session, by what the lines of the node then say of its groups. -/
theorem linked_session {remote : IpAddress} {name : String} {info : NodeInfo} {rest more : List Line}
    (id : n.id = first.id) (runs : n.run = some run)
    (links : run.links = [⟨c, remote, .session hello.nodeId name⟩])
    (roster : run.roster = known hello.nodeId info c) (said : uttered = ours :: rest)
    (stays : ∀ l ∈ rest, l.kind ≠ .disconnect)
    (spread : ∀ group, Table.contains (rest.foldl Line.regroup first.groups) group =
      (Table.contains n.groups group || left group))
    (all : taken = theirs :: more)
    (recorded : info.groups = more.foldl Line.regroup (NameSet.ofList hello.groups)) :
    Linked first ours theirs hello c n (leftNow n c left) uttered taken := by
  have registered : n.registered c = true := registered_of_links runs links
  refine .session id runs links roster said stays (fun group => ?_) (fun group => ?_) all recorded
  · rw [spread, leftNow, registered]
    cases Table.contains n.groups group <;> simp
  · rw [leftNow, registered]
    cases Table.contains n.groups group <;> simp

theorem foldl_idle {lines : List Line} (idle : ∀ l ∈ lines, Idle l) (groups : NameSet) :
    lines.foldl Line.regroup groups = groups :=
  List.foldlRecOn (motive := fun after => after = groups) _ _ rfl fun after same l member =>
    ((idle l member).regroup after).trans same

/-- The line about a group does to what was said what the node does to its groups. -/
theorem contains_regroup {said own : NameSet} {left : String → Bool} {group : String} {joined : Bool}
    (spread : ∀ other, Table.contains said other = (Table.contains own other || left other))
    (apart : ∀ other, left other = true → Table.contains own other = false)
    (differs : Table.contains own group ≠ joined) (sender other : String) :
    Table.contains (Line.regroup said ⟨sender, if joined then .join group else .leave group, none⟩)
      other =
      (Table.contains (if joined then own.add group else Table.erase own group) other ||
        left other) := by
  cases joined with
  | true =>
    simp only [Line.regroup, if_true]
    rw [NameSet.contains_add, NameSet.contains_add, spread, Bool.or_assoc]
  | false =>
    simp only [Line.regroup, Bool.false_eq_true, if_false]
    rw [Table.contains_erase, Table.contains_erase, spread]
    by_cases same : group = other
    · subst same
      have out : left group = false := (Bool.not_eq_true _).mp fun out => differs (apart group out)
      rw [out, decide_eq_true rfl]
      rfl
    · rw [decide_eq_false same, Bool.not_false, Bool.true_and, Bool.true_and]

theorem mem_linesOn_sendOn {connections : List Nat} {l other : Line}
    (member : other ∈ linesOn c (sendOn connections l)) : other = l := by
  obtain ⟨effect, sent, found⟩ := List.mem_filterMap.mp member
  obtain ⟨_, -, rfl⟩ := List.mem_map.mp sent
  unfold NodeEffect.lineOn? at found
  split at found
  next same =>
    split at found
    · cases same
      cases found
      rfl
    · cases found
  all_goals cases found

theorem linked_ask (linked : Linked first ours theirs hello c n left uttered taken) (asked : Request)
    (goesOn : asked ≠ .stop) :
    Linked first ours theirs hello c (n.act (.ask asked goesOn)).node
      (leftNow (n.act (.ask asked goesOn)).node c left)
      (uttered ++ linesOn c (n.act (.ask asked goesOn)).effects) taken := by
  generalize stepped : n.act (.ask asked goesOn) = step
  cases linked with
  | @greeting run remote held id runs links roster said unheard announced =>
    have answer : Answer n run step := stepped ▸ answer_ask runs asked goesOn
    have kept : step.node.run = some run ∧ step.node.id = first.id ∧ step.effects = [] := by
      cases answer with
      | quiet same id' _ silent => exact ⟨same.trans runs, id'.trans id, silent⟩
      | speaks same reached _ sends =>
        rw [same, sends, reached roster]
        exact ⟨runs, id, rfl⟩
      | regroups _ changed sends =>
        rw [changed, sends, roster]
        exact ⟨runs, id, rfl⟩
    obtain ⟨runs, id, silent⟩ := kept
    rw [silent]
    refine .greeting id runs links roster ((List.append_nil _).symm ▸ said) unheard fun group => ?_
    rw [leftNow, registered_of_links runs links]
    exact (Bool.and_true _).trans (announced group)
  | @session run remote name info rest more id runs links roster said stays spread apart all recorded =>
    have answer : Answer n run step := stepped ▸ answer_ask runs asked goesOn
    have broadcast : run.roster.broadcast = [c] := by
      rw [roster]
      rfl
    cases answer with
    | quiet same id' groups silent =>
      rw [silent]
      refine linked_session (id'.trans id) (same.trans runs) links roster
        ((List.append_nil _).trans said) stays (fun group => ?_) all recorded
      rw [groups]
      exact spread group
    | @speaks connections l same _ idle sends =>
      have said_ : ∀ other ∈ linesOn c (sendOn connections l), Idle other :=
        fun other member => mem_linesOn_sendOn member ▸ idle
      rw [same, sends, said]
      refine linked_session id runs links roster List.cons_append
        (List.forall_mem_append.mpr ⟨stays, fun other member => (said_ other member).stays⟩)
        (fun group => ?_) all recorded
      rw [List.foldl_append, foldl_idle said_]
      exact spread group
    | @regroups group joined differs changed sends =>
      rw [changed, sends, broadcast, linesOn_sendOn, said]
      refine linked_session id runs links roster List.cons_append
        (List.forall_mem_append.mpr ⟨stays, fun l member => ?_⟩) (fun other => ?_) all recorded
      · rw [List.mem_singleton.mp member]
        cases joined <;> simp [Node.line]
      · rw [List.foldl_append]
        exact contains_regroup spread apart differs n.id other

theorem linesOn_introduce (n : Node) (run : NodeRun) (c : Nat) (info : NodeInfo) :
    ∃ gossip, linesOn c (n.introduce run c info) =
        (n.groups.toList.map fun group => n.line (.join group)) ++ gossip ∧
      ∀ l ∈ gossip, Idle l := by
  have entered : linesOn c (.event (.enter info.nodeId info.name info.address info.headers) ::
      info.groups.toList.map fun group => .event (.join info.nodeId info.name group)) = [] := by
    refine linesOn_of_silent fun effect member => ?_
    rcases List.mem_cons.mp member with rfl | member
    · rfl
    · obtain ⟨_, -, rfl⟩ := List.mem_map.mp member
      rfl
  refine ⟨linesOn c (if n.settings.gossip then
    sendOn run.roster.broadcast (n.line (.peerList run.roster.listenAddresses)) else []), ?_,
    fun l member => ?_⟩
  · rw [introduce, linesOn_append, linesOn_append, entered, List.nil_append, linesOn_map]
  · split at member
    · rw [mem_linesOn_sendOn member]
      exact ⟨fun _ => rfl, by simp [Node.line]⟩
    · cases member

/-- What the lines at a registration say of a node's groups. -/
theorem contains_joins (n : Node) (groups : NameSet) (group : String) :
    Table.contains ((n.groups.toList.map fun group => n.line (.join group)).foldl Line.regroup groups)
      group = (Table.contains n.groups group || Table.contains groups group) := by
  rw [List.foldl_map]
  refine (NameSet.contains_foldl_add n.groups.toList groups group).trans ?_
  rw [Bool.eq_iff_iff]
  simp [NameSet.mem_toList]

theorem linked_greet {remote : IpAddress} {held : Option Line} (id : n.id = first.id)
    (links : run.links = [⟨c, remote, .greeting held⟩]) (roster : run.roster = Roster.empty)
    (said : uttered ++ held.toList = [ours])
    (announced : ∀ group, left group = Table.contains first.groups group) :
    Linked first ours theirs hello c (n.greet run ⟨c, remote, .greeting held⟩ held hello).node
      (leftNow (n.greet run ⟨c, remote, .greeting held⟩ held hello).node c left)
      (uttered ++ linesOn c (n.greet run ⟨c, remote, .greeting held⟩ held hello).effects) [theirs] := by
  have added : run.roster.addConnection (recordOf hello remote) c =
      (known hello.nodeId (recordOf hello remote) c, true) := by
    rw [roster]
    rfl
  rw [greet, added]
  dsimp only
  rw [if_pos rfl, linesOn_append, ← List.append_assoc]
  obtain ⟨gossip, lines, idle⟩ := linesOn_introduce n
    { run.setState c (.session hello.nodeId hello.name) with
      roster := known hello.nodeId (recordOf hello remote) c } c (recordOf hello remote)
  have answer : linesOn c (held.map (NodeEffect.send c)).toList = held.toList := by
    cases held with
    | none => rfl
    | some l => exact linesOn_sendOn c l
  rw [answer, said, lines]
  have open_ : (run.setState c (.session hello.nodeId hello.name)).links =
      [⟨c, remote, .session hello.nodeId hello.name⟩] := by simp [NodeRun.setState, links]
  refine linked_session id rfl open_ rfl List.singleton_append
    (List.forall_mem_append.mpr ⟨fun l member => ?_, fun l member => (idle l member).stays⟩)
    (fun group => ?_) rfl rfl
  · obtain ⟨_, -, rfl⟩ := List.mem_map.mp member
    simp [Node.line]
  · rw [List.foldl_append, foldl_idle idle, contains_joins, announced]
    rfl

/-- What a line does on a connection with a session: it can only change the record of the groups. -/
structure Heeds (n : Node) (run : NodeRun) (c : Nat) (other : String) (info : NodeInfo) (l : Line)
    (step : NodeStep) : Prop where
  runs : ∃ next, step.node.run = some next ∧ next.links = run.links ∧
    next.roster = known other { info with groups := l.regroup info.groups } c
  id : step.node.id = n.id
  groups : step.node.groups = n.groups
  silent : linesOn c step.effects = []

theorem heeds_regroup {other : String} {info : NodeInfo} (roster : run.roster = known other info c)
    (n : Node) (l : Line) (group : String) {joined : Bool}
    (speaks : l.regroup info.groups =
      if joined then info.groups.add group else Table.erase info.groups group) :
    Heeds n run c other info l (n.regroup run other group joined) where
  runs := by
    have changed := setGroup_known other info c group joined
    rw [← roster, ← speaks] at changed
    exact ⟨_, rfl, rfl, changed⟩
  id := rfl
  groups := rfl
  silent := by
    refine linesOn_of_silent fun effect member => ?_
    obtain ⟨_, -, rfl⟩ := List.mem_map.mp member
    split <;> rfl

theorem heeds_handleLine (link : Link) (name : String) {other : String} {info : NodeInfo}
    (runs : n.run = some run) (roster : run.roster = known other info c) {l : Line}
    (stays : l.kind ≠ .disconnect) :
    Heeds n run c other info l (n.handleLine run link other name l) := by
  have passed (same : l.regroup info.groups = info.groups) {effects : List NodeEffect}
      (silent : linesOn c effects = []) : Heeds n run c other info l ⟨n, effects⟩ :=
    ⟨⟨run, runs, rfl, by rw [roster, same]⟩, rfl, rfl, silent⟩
  have told (event : List Bytes → Presence.Event) :
      linesOn c (l.frames?.toList.map fun frames => .event (event frames)) = [] := by
    cases l.frames? <;> rfl
  unfold handleLine
  cases kind : l.kind with
  | disconnect => exact absurd kind stays
  | hello _ | heartbeat => exact passed (by simp [Line.regroup, kind]) rfl
  | join group => exact heeds_regroup roster n l group (by simp [Line.regroup, kind])
  | leave group => exact heeds_regroup roster n l group (by simp [Line.regroup, kind])
  | whisper => exact passed (by simp [Line.regroup, kind]) (told _)
  | shout group =>
    dsimp only
    split
    · exact passed (by simp [Line.regroup, kind]) (told _)
    · exact passed (by simp [Line.regroup, kind]) rfl
  | peerList peers =>
    refine passed (by simp [Line.regroup, kind]) (linesOn_of_silent fun effect member => ?_)
    obtain ⟨_, -, rfl⟩ := List.mem_map.mp member
    rfl

theorem linked_hear (linked : Linked first ours theirs hello c n left uttered taken) {l : Line}
    (opens : theirs.kind = .hello hello) (other : hello.nodeId ≠ first.id)
    (protocol : hello.protocol = some Version.protocolName)
    {rest : List Line} (next : taken ++ [l] <+: theirs :: rest)
    (stays : ∀ l ∈ rest, l.kind ≠ .disconnect) :
    Linked first ours theirs hello c (n.act (.receive c l.toText)).node
      (leftNow (n.act (.receive c l.toText)).node c left)
      (uttered ++ linesOn c (n.act (.receive c l.toText)).effects) (taken ++ [l]) := by
  rw [act, receive]
  cases linked with
  | @greeting run remote held id runs links roster said unheard announced =>
    subst unheard
    obtain ⟨rfl, -⟩ := List.cons_prefix_cons.mp next
    obtain ⟨sender, kind, payload⟩ := l
    cases opens
    have welcome : n.welcomes hello = true := by
      rw [welcomes, id, protocol]
      simp [other]
    rw [runs]
    dsimp only
    rw [link?_of_links links, Lines.ofText?_toText]
    dsimp only
    rw [if_pos welcome]
    exact linked_greet id links roster said announced
  | @session run remote name info lines more id runs links roster said others spread apart all recorded =>
    subst all
    obtain ⟨-, next⟩ := List.cons_prefix_cons.mp next
    have goesOn : l.kind ≠ .disconnect :=
      stays l (next.subset (List.mem_append_right _ List.mem_cons_self))
    rw [runs]
    dsimp only
    rw [link?_of_links links, Lines.ofText?_toText]
    dsimp only
    obtain ⟨⟨after_, runs', links', roster'⟩, id', groups, silent⟩ :=
      heeds_handleLine ⟨c, remote, .session hello.nodeId name⟩ name runs roster goesOn
    rw [silent]
    refine linked_session (id'.trans id) runs' (links'.trans links) roster'
      ((List.append_nil _).trans said) others (fun group => ?_) List.cons_append ?_
    · rw [groups]
      exact spread group
    · rw [List.foldl_append, ← recorded]
      rfl

theorem linked_opened (first : Node) {remote : IpAddress} {held : Option Line} (runs : n.run = some run)
    (links : run.links = [⟨c, remote, .greeting held⟩]) (roster : run.roster = Roster.empty)
    (id : n.id = first.id) (said : uttered ++ held.toList = [ours]) :
    Linked first ours theirs hello c n (leftNow n c fun group => Table.contains first.groups group)
      uttered [] := by
  refine .greeting id runs links roster said rfl fun group => ?_
  rw [leftNow, registered_of_links runs links]
  exact Bool.and_true _

/-- What a node says is its introduction and then nothing that ends a session. -/
theorem said_of_linked (linked : Linked first ours theirs hello c n left uttered taken) :
    ∃ rest, uttered <+: ours :: rest ∧ ∀ l ∈ rest, l.kind ≠ .disconnect := by
  cases linked with
  | greeting _ _ _ _ said => exact ⟨[], ⟨_, said⟩, fun _ member => nomatch member⟩
  | session _ _ _ _ said stays => exact ⟨_, said ▸ List.prefix_refl _, stays⟩

variable {near far : Node} {d : Nat} {past other : List Act} {greets : Hello}

/-- What a node has heard on a connection is what the other has sent, up to what is on its way. -/
def Hears (near far : Node) (c d : Nat) (ours theirs : Line) (greets : Hello) (past other : List Act) :
    Prop :=
  ∃ lines, heard c past = lines.map Line.toText ∧ lines <+: far.sent d other ∧
    Linked near ours theirs greets c (near.after past) (fun group => near.leftBehind c group past)
      (near.sent c past) lines

theorem hears_far (hears : Hears near far c d ours theirs greets past other) (a : Act) :
    Hears near far c d ours theirs greets past (a :: other) := by
  obtain ⟨lines, same, before, linked⟩ := hears
  exact ⟨lines, same, before.trans (List.prefix_append ..), linked⟩

theorem hears_ask (hears : Hears near far c d ours theirs greets past other) (asked : Request)
    (goesOn : asked ≠ .stop) :
    Hears near far c d ours theirs greets (.ask asked goesOn :: past) other := by
  obtain ⟨lines, same, before, linked⟩ := hears
  exact ⟨lines, same, before, linked_ask linked asked goesOn⟩

theorem prefix_concat {lines all : List Line} {l : Line} (before : lines <+: all)
    (next : all[lines.length]? = some l) : lines ++ [l] <+: all := by
  have taken := List.prefix_iff_eq_take.mp before
  have more : all.take (lines.length + 1) = lines ++ [l] := by
    rw [List.take_add_one, ← taken, next]
    rfl
  exact more ▸ List.take_prefix ..

theorem hears_receive (hears : Hears near far c d ours theirs greets past other)
    (opens : Introduces far theirs greets) (distinct : far.id ≠ near.id)
    (said : ∃ rest, far.sent d other <+: theirs :: rest ∧ ∀ l ∈ rest, l.kind ≠ .disconnect) {l : Line}
    (next : (far.sent d other)[(heard c past).length]? = some l) :
    Hears near far c d ours theirs greets (.receive c l.toText :: past) other := by
  obtain ⟨lines, same, before, linked⟩ := hears
  obtain ⟨rest, starts, stays⟩ := said
  rw [same, List.length_map] at next
  have after_ := prefix_concat before next
  refine ⟨lines ++ [l], ?_, after_, ?_⟩
  · rw [heard, if_pos rfl, same, List.map_append]
    rfl
  · exact linked_hear linked opens.kind (opens.id ▸ distinct) opens.protocol
      (after_.trans starts) stays

theorem exists_run (alone : n.isAlone = true) :
    ∃ run, n.run = some run ∧ run.roster = Roster.empty ∧ run.links = [] := by
  unfold isAlone at alone
  cases runs : n.run with
  | none =>
    rw [runs] at alone
    cases alone
  | some run =>
    rw [runs, Option.any_some, Bool.and_eq_true, decide_eq_true_eq, decide_eq_true_eq] at alone
    exact ⟨run, rfl, alone⟩

theorem hasLink_of_links (runs : n.run = some run) (links : run.links = []) (c : Nat) :
    n.hasLink c = false := by
  rw [hasLink, runs, Option.bind_some, NodeRun.link?, links]
  rfl

theorem hears_opened (roster : run.roster = Roster.empty) (links : run.links = []) {a : Act}
    {remote : IpAddress} {held : Option Line} {effects : List NodeEffect}
    (step : near.act a = ⟨near.setRun (run.addLink ⟨c, remote, .greeting held⟩), effects⟩)
    (said : linesOn c effects ++ held.toList = [ours]) (unheard : heard c [a] = [])
    (other : List Act) : Hears near far c d ours theirs greets [a] other := by
  have link : (run.addLink ⟨c, remote, .greeting held⟩).links = [⟨c, remote, .greeting held⟩] := by
    rw [NodeRun.addLink, links]
    rfl
  refine ⟨[], unheard, List.nil_prefix, ?_⟩
  change Linked near ours theirs greets c (near.act a).node
    (leftNow (near.act a).node c fun group => Table.contains near.groups group)
    ([] ++ linesOn c (near.act a).effects) []
  rw [step]
  exact linked_opened near rfl link roster rfl said

theorem hears_accepted (runs : near.run = some run) (roster : run.roster = Roster.empty)
    (links : run.links = []) (remote : IpAddress) (other : List Act) :
    Hears near far c d (near.introduction run) theirs greets [.accepted c remote] other := by
  have step : near.act (.accepted c remote) = ⟨near.setRun (run.addLink
      ⟨c, remote, .greeting none⟩), sendOn [c] (near.introduction run)⟩ := by
    rw [act, hasLink_of_links runs links, if_neg Bool.false_ne_true, accepted, runs]
    rfl
  refine hears_opened roster links step ?_ rfl other
  rw [linesOn_sendOn]
  rfl

theorem hears_dialed (runs : near.run = some run) (roster : run.roster = Roster.empty)
    (links : run.links = []) (remote : IpAddress) (other : List Act) :
    Hears near far c d (near.introduction run) theirs greets [.dialed c remote] other := by
  have step : near.act (.dialed c remote) = ⟨near.setRun (run.addLink
      ⟨c, remote, .greeting (some (near.introduction run))⟩), []⟩ := by
    rw [act, hasLink_of_links runs links, if_neg Bool.false_ne_true, dialed, runs]
    rfl
  exact hears_opened roster links step rfl rfl other

theorem meet (run : Handshake near far c d past other) (nearAlone : near.isAlone = true)
    (farAlone : far.isAlone = true) (distinct : near.id ≠ far.id) :
    ∃ ours theirs hello greets, Introduces near ours hello ∧ Introduces far theirs greets ∧
      Hears near far c d ours theirs greets past other ∧
      Hears far near d c theirs ours hello other past := by
  obtain ⟨nearRun, nearRuns, nearRoster, nearLinks⟩ := exists_run nearAlone
  obtain ⟨farRun, farRuns, farRoster, farLinks⟩ := exists_run farAlone
  obtain ⟨hello, ours⟩ := introduces near nearRun
  obtain ⟨greets, theirs⟩ := introduces far farRun
  refine ⟨_, _, hello, greets, ours, theirs, ?_⟩
  induction run with
  | accepted dialer listener =>
    exact ⟨hears_accepted nearRuns nearRoster nearLinks dialer _,
      hears_dialed farRuns farRoster farLinks listener _⟩
  | dialed dialer listener =>
    exact ⟨hears_dialed nearRuns nearRoster nearLinks listener _,
      hears_accepted farRuns farRoster farLinks dialer _⟩
  | near _ asked goesOn ih => exact ⟨hears_ask ih.1 asked goesOn, hears_far ih.2 _⟩
  | far _ asked goesOn ih => exact ⟨hears_far ih.1 _, hears_ask ih.2 asked goesOn⟩
  | nearHears _ next ih =>
    obtain ⟨_, _, _, linked⟩ := ih.2
    exact ⟨hears_receive ih.1 theirs (Ne.symm distinct) (said_of_linked linked) next,
      hears_far ih.2 _⟩
  | farHears _ next ih =>
    obtain ⟨_, _, _, linked⟩ := ih.1
    exact ⟨hears_far ih.1 _, hears_receive ih.2 ours distinct (said_of_linked linked) next⟩

/-- Once a node has registered the connection and the other has heard all that it has said, the other
has recorded the groups that the node is in, and those that it has left behind: it announced them when
the connection came about, and has not been in them since it registered the connection. -/
theorem groups_recorded_unless_left_behind (run : Handshake near far c d past other)
    (nearAlone : near.isAlone = true) (farAlone : far.isAlone = true) (distinct : near.id ≠ far.id)
    (registered : (near.after past).registered c = true)
    (all : heard d other = (near.sent c past).map Line.toText) :
    ∃ farRun info, (far.after other).run = some farRun ∧ farRun.roster.info? near.id = some info ∧
      (∀ group, Table.contains info.groups group =
        (Table.contains (near.after past).groups group || near.leftBehind c group past)) ∧
      ((∀ group, near.leftBehind c group past = false) → info.groups = (near.after past).groups) := by
  obtain ⟨ours, theirs, hello, greets, opens, -, ⟨_, -, -, here⟩, lines, same, before, there⟩ :=
    meet run nearAlone farAlone distinct
  have equal : lines = near.sent c past := by
    refine before.eq_of_length ?_
    rw [← List.length_map Line.toText, ← same, all, List.length_map]
  subst equal
  cases here with
  | greeting _ runs links =>
    rw [registered_of_links runs links] at registered
    cases registered
  | session _ _ _ _ said _ spread =>
    rw [said] at there
    cases there with
    | greeting _ _ _ _ _ unheard => cases unheard
    | @session farRun _ _ info _ more _ runs _ roster _ _ _ _ all' recorded =>
      have record : ∀ group, Table.contains info.groups group =
          (Table.contains (near.after past).groups group || near.leftBehind c group past) := by
        intro group
        obtain ⟨-, rfl⟩ := List.cons.inj all'
        rw [recorded, opens.groups]
        exact spread group
      refine ⟨farRun, info, runs, ?_, record, fun none_left => ?_⟩
      · rw [roster, ← opens.id, Roster.info?, get?_known]
        rfl
      · refine NameSet.ext_contains fun group => ?_
        rw [record, none_left, Bool.or_false]

private def alone (id : String) (groups : List String) : Node :=
  { Node.new id ⟨"127.0.0.1", "127.0.0.1", 5670, [], false, false⟩ with
    groups := NameSet.ofList groups
    run := some ⟨Hub.namelessName, Table.empty, 5670, Roster.empty, []⟩ }

private def mill : Node := alone "n-1" ["town"]

private def shop : Node := alone "n-2" []

private def greeting (id : String) (groups : List String) : Line :=
  ⟨id, .hello ⟨id, Hub.namelessName, some "127.0.0.1:5670", some Version.protocolName,
    some Version.protocol, Table.empty, groups⟩, none⟩

private def moved : List Act :=
  [.ask (.join "square") (by decide), .ask (.leave "town") (by decide), .accepted 7 .localhost]

private theorem shop_sent {text : String} (read : Line.ofText? text = some (greeting "n-1" ["town"])) :
    shop.sent 9 [.receive 9 text, .dialed 9 .localhost] = [greeting "n-2" []] := by
  simp only [Node.sent, after, act, receive, read]
  decide +kernel

private theorem mill_moved {text : String} (read : Line.ofText? text = some (greeting "n-2" [])) :
    mill.sent 7 (.receive 7 text :: moved) =
      [greeting "n-1" ["town"], ⟨"n-1", .join "square", none⟩] ∧
    (mill.after (.receive 7 text :: moved)).registered 7 = true ∧
    (mill.after (.receive 7 text :: moved)).groups = NameSet.ofList ["square"] ∧
    mill.leftBehind 7 "town" (.receive 7 text :: moved) = true := by
  simp only [moved, Node.sent, Node.leftBehind, after, act, receive, read]
  decide +kernel

/-- The mill leaves the town while the connection comes about, and the shop never hears of it. -/
theorem shop_records_town : ∃ past other, Handshake mill shop 7 9 past other ∧
    heard 9 other = (mill.sent 7 past).map Line.toText ∧
    (mill.after past).groups = NameSet.ofList ["square"] ∧
    ∃ run info, (shop.after other).run = some run ∧ run.roster.info? "n-1" = some info ∧
      Table.contains info.groups "town" = true ∧ Table.contains info.groups "square" = true := by
  have mills := Lines.ofText?_toText (greeting "n-1" ["town"])
  obtain ⟨lines, registered, groups, left⟩ := mill_moved (Lines.ofText?_toText (greeting "n-2" []))
  have opened : Handshake mill shop 7 9 moved [.dialed 9 .localhost] :=
    ((Handshake.accepted .localhost .localhost).near (.leave "town") _).near (.join "square") _
  have first : (mill.sent 7 moved)[0]? = some (greeting "n-1" ["town"]) := by decide +kernel
  have second : (shop.sent 9 [.receive 9 (greeting "n-1" ["town"]).toText, .dialed 9 .localhost])[0]? =
      some (greeting "n-2" []) := by
    rw [shop_sent mills]
    rfl
  have third : (mill.sent 7 (.receive 7 (greeting "n-2" []).toText :: moved))[1]? =
      some ⟨"n-1", .join "square", none⟩ := by
    rw [lines]
    rfl
  have run := ((opened.farHears first).nearHears second).farHears third
  have all : heard 9 [.receive 9 (Line.toText ⟨"n-1", .join "square", none⟩),
      .receive 9 (greeting "n-1" ["town"]).toText, .dialed 9 .localhost] =
      (mill.sent 7 (.receive 7 (greeting "n-2" []).toText :: moved)).map Line.toText := by
    rw [lines]
    rfl
  obtain ⟨farRun, info, runs, known, record, -⟩ := groups_recorded_unless_left_behind run
    (by decide +kernel) (by decide +kernel) (by decide) registered all
  refine ⟨_, _, run, all, groups, farRun, info, runs, known, ?_, ?_⟩
  · rw [record, left, Bool.or_true]
  · rw [record, groups]
    rfl

end Proofs.Handshakes
end PeerMesh
