import Mathlib.Data.List.Basic
import PeerMesh.Hub
import PeerMesh.Proofs.Profiles

/-! What the nodes of a hub know of each other. They learn it from events alone, and each from those
since its own start. Whatever has happened, a directory that has taken in these events shows the other
nodes as their own acts have made them, and so does the hub. -/

namespace PeerMesh

namespace Hub
open Presence (Event Request)

inductive Act where
  | add (id address : String)
  | ask (id : String) (asked : Request)
  | drop (id : String)

def Act.node : Act → String
  | .add id _ | .ask id _ | .drop id => id

/-- An act at a hub. A node that is added gets an id that nobody has, and a request that is refused
changes nothing. -/
def act (h : Hub) : Act → HubStep
  | .add id address => if (h.member? id).isSome then ⟨h, []⟩ else ⟨h.add id address, []⟩
  | .ask id asked => (h.request id asked).toOption.getD ⟨h, []⟩
  | .drop id => h.remove id

/-- The hub after some acts, the latest of which is the first of the list. -/
def after : List Act → Hub
  | [] => empty
  | act :: past => ((after past).act act).hub

def Session.profile (s : Session) : Profile := ⟨s.name, s.address, s.headers, s.groups⟩

/-- An account of a node by its own acts. -/
structure Account where
  name : String
  address : String
  headers : Table String
  /-- The node as it was when it started, with the groups that it has joined since and not left. -/
  started : Option Profile
  deriving DecidableEq

/-- A node after what it asks for. Until it has started it is in no group, and once it has, only a stop
ends that. -/
def Account.after (s : Account) : Request → Account
  | .setName name => { s with name := name }
  | .setHeader key value => { s with headers := s.headers.insert key value }
  | .start => { s with started := s.started.or (some ⟨s.name, s.address, s.headers, Table.empty⟩) }
  | .join group => { s with started := s.started.map (·.regroup group true) }
  | .leave group => { s with started := s.started.map (·.regroup group false) }
  | .stop => { s with started := none }
  | .whisper .. | .shout .. => s

def Act.account (id : String) (before : Option Account) : Act → Option Account
  | .add other address =>
    if other = id then before.or (some ⟨namelessName, address, Table.empty, none⟩) else before
  | .ask other asked => if other = id then before.map (·.after asked) else before
  | .drop other => if other = id then none else before

/-- What a node's own acts have made of it, unless it has not been added or has been dropped. -/
def account? (id : String) : List Act → Option Account
  | [] => none
  | act :: past => act.account id (account? id past)

/-- A node that has started, by its acts. -/
def profile? (id : String) (past : List Act) : Option Profile := (account? id past).bind (·.started)

def starts (id : String) (act : Act) (past : List Act) : Bool :=
  (profile? id past).isNone && (profile? id (act :: past)).isSome

def posted (id : String) (postings : List Posting) : List Event :=
  postings.filterMap fun posting => if posting.receiver = id then some posting.event else none

/-- What has been posted to a node since it started. -/
def inbox (id : String) : List Act → List Event
  | [] => []
  | act :: past =>
    (if starts id act past then [] else inbox id past) ++ posted id ((after past).act act).postings

def Member.account (m : Member) : Account :=
  ⟨m.name, m.address, m.headers, m.session.map Session.profile⟩

/-- The nodes that another node can see. -/
def seenBy (h : Hub) (own id : String) : Option Profile :=
  if id = own then none else (h.session? id).map Session.profile

end Hub

namespace Proofs.HubViews
open Hub Profiles
open Presence (Event Request)

variable {h : Hub} {id own : String} {member : Member} {session : Session}

theorem sorted_sessions (h : Hub) : h.sessions.Pairwise fun a b => a.1 < b.1 :=
  Table.sorted_filterMap Member.session h.members.sorted

theorem find_sessions (h : Hub) (id : String) : Table.find id h.sessions = h.session? id :=
  Table.find_filterMap Member.session id h.members.sorted

theorem posted_append (id : String) (one two : List Posting) :
    posted id (one ++ two) = posted id one ++ posted id two := List.filterMap_append

private def postedTo (receiver sender : String) (chosen : Session → Bool) (event : Event)
    (s : Session) : Option Event :=
  if receiver ≠ sender ∧ (!s.deaf && chosen s) = true then some event else none

/-- An event is posted once to each other node that is chosen. -/
theorem posted_post (h : Hub) (sender : String) (chosen : Session → Bool) (event : Event)
    (receiver : String) :
    posted receiver (h.post sender chosen event) =
      if receiver ≠ sender ∧ (h.session? receiver).any (fun s => !s.deaf && chosen s) = true then [event]
      else [] := by
  have kept : posted receiver (h.post sender chosen event) =
      h.sessions.filterMap fun e =>
        if e.1 = receiver then postedTo receiver sender chosen event e.2 else none := by
    rw [posted, post, List.filterMap_map, List.filterMap_filter]
    refine List.filterMap_congr fun e _ => ?_
    by_cases same : e.1 = receiver
    · subst same
      simp [postedTo, and_assoc]
    · simp [same]
  rw [kept, Table.filterMap_key _ (sorted_sessions h), find_sessions]
  cases h.session? receiver with
  | none => simp
  | some s =>
    rw [Option.bind_some, Option.any_some]
    simp only [postedTo]
    split <;> rfl

/-- A node that is not deaf gets what is posted to all others. -/
theorem posted_toAll (hears : session.deaf = false) (there : h.session? own = some session)
    (sender : String) (event : Event) :
    posted own (h.post sender toAll event) = if own = sender then [] else [event] := by
  rw [posted_post, there, Option.any_some, hears]
  by_cases same : own = sender <;> simp [same, toAll]

theorem posted_told (own id : String) (sessions : List (String × Session)) :
    posted own (sessions.flatMap fun (other, known) =>
      (known.introduction other).map fun event => ⟨id, event⟩) =
      if own = id then sessions.flatMap fun e => e.2.introduction e.1 else [] := by
  rw [posted, List.filterMap_flatMap]
  by_cases same : own = id
  · simp [same, List.filterMap_map]
  · simp [List.filterMap_map, same, Ne.symm same]

/-- What becomes of the nodes that have started, and what the others are told of it. -/
inductive Move (h : Hub) (step : HubStep) : Prop where
  | quiet (same : step.hub.session? = h.session?)
      (idle : ∀ posting ∈ step.postings, ∀ d : Directory, d.learn posting.event = d)
  | started {id : String} {member : Member} (known : h.member? id = some member)
      (away : h.session? id = none)
      (hub : step.hub.session? = Function.update h.session? id
        (some ⟨member.name, member.address, member.headers, Table.empty, false⟩))
      (told : step.postings =
        h.post id toAll (.enter id member.name member.address member.headers) ++
          h.sessions.flatMap fun (other, known) =>
            (known.introduction other).map fun event => ⟨id, event⟩)
  | regrouped {id name group : String} {joined : Bool} {session : Session}
      (there : h.session? id = some session)
      (hub : step.hub.session? = Function.update h.session? id (some { session with
        groups := if joined then session.groups.add group else session.groups.erase group }))
      (told : step.postings =
        h.post id toAll (if joined then .join id name group else .leave id name group))
  | stopped {id name : String} {session : Session} (there : h.session? id = some session)
      (hub : step.hub.session? = Function.update h.session? id none)
      (told : step.postings = h.post id toAll (.exit id name))

theorem session?_of_member (known : h.member? id = some member) : h.session? id = member.session := by
  rw [session?, known, Option.bind_some]

theorem update_setMember (h : Hub) (id : String) (member : Member) :
    (h.setMember id member).session? = Function.update h.session? id member.session := by
  funext other
  rw [session?, member?, setMember, Table.update_insert, Function.update_apply, Function.update_apply]
  split <;> rfl

theorem update_erase (h : Hub) (id : String) :
    Hub.session? ⟨h.members.erase id⟩ = Function.update h.session? id none := by
  funext other
  rw [session?, member?, Table.update_erase, Function.update_apply, Function.update_apply]
  split <;> rfl

theorem quiet_refl (h : Hub) : Move h ⟨h, []⟩ := .quiet rfl fun _ member => nomatch member

theorem quiet_setMember (known : h.member? id = some member) {next : Member}
    (same : next.session = member.session) : Move h ⟨h.setMember id next, []⟩ := by
  refine .quiet ?_ fun _ member => nomatch member
  rw [update_setMember, same, ← session?_of_member known, Function.update_eq_self]

theorem quiet_post (h : Hub) (id : String) (chosen : Session → Bool) {event : Event}
    (idle : ∀ d : Directory, d.learn event = d) : Move h ⟨h, h.post id chosen event⟩ := by
  refine .quiet rfl fun posting member => ?_
  obtain ⟨_, -, rfl⟩ := List.mem_map.mp member
  exact idle

theorem move_stop (known : h.member? id = some member) : Move h (h.stop id member) := by
  rw [stop]
  split
  next there =>
    obtain ⟨session, there⟩ := Option.isSome_iff_exists.mp there
    exact .stopped ((session?_of_member known).trans there) (update_setMember ..) rfl
  next => exact quiet_refl h

theorem move_setGroup (known : h.member? id = some member) {group : String} {joined : Bool}
    {step : HubStep} (done : h.setGroup id member group joined = .ok step) : Move h step := by
  unfold setGroup at done
  split at done
  next => cases done
  next session there =>
    split at done
    · cases done
      exact quiet_refl h
    · cases done
      exact .regrouped ((session?_of_member known).trans there) (update_setMember ..) rfl

theorem move_request {asked : Request} {step : HubStep} (done : h.request id asked = .ok step) :
    Move h step := by
  unfold request at done
  split at done
  next => cases done
  next member known =>
    have session := session?_of_member known
    cases asked with
    | setName name | setHeader key value =>
      cases done
      exact quiet_setMember known rfl
    | start =>
      dsimp only at done
      unfold start at done
      split at done
      next => cases done
      next away =>
        cases done
        have away := Option.not_isSome_iff_eq_none.mp away
        exact .started known (session.trans away) (update_setMember ..) rfl
    | join group | leave group => exact move_setGroup known done
    | whisper peer frames =>
      dsimp only at done
      split at done
      next =>
        unfold postTo at done
        split at done
        next => cases done
        next =>
          split at done
          · cases done
          · cases done
            refine .quiet rfl fun posting member => ?_
            rw [List.mem_singleton.mp member]
            exact fun _ => rfl
      next => cases done
    | shout group frames =>
      dsimp only at done
      split at done
      next =>
        cases done
        exact quiet_post h id _ fun _ => rfl
      next => cases done
    | stop =>
      cases done
      exact move_stop known

theorem move_remove (h : Hub) (id : String) : Move h (h.remove id) := by
  rw [remove]
  split
  next => exact quiet_refl h
  next member known =>
    have session := session?_of_member known
    dsimp only
    rw [stop]
    split
    next there =>
      obtain ⟨s, there⟩ := Option.isSome_iff_exists.mp there
      refine .stopped (session.trans there) ?_ rfl
      rw [update_erase, update_setMember, Function.update_idem]
    next away =>
      refine .quiet ?_ fun _ member => nomatch member
      rw [update_erase, ← Option.not_isSome_iff_eq_none.mp away, ← session, Function.update_eq_self]

theorem move_act (h : Hub) (a : Act) : Move h (h.act a) := by
  cases a with
  | add id address =>
    rw [act]
    split
    next => exact quiet_refl h
    next absent =>
      have away : h.session? id = none := by
        rw [session?, Option.not_isSome_iff_eq_none.mp absent, Option.bind_none]
      refine .quiet ?_ fun _ member => nomatch member
      refine (update_setMember h id (.new address)).trans ?_
      rw [Member.new, ← away, Function.update_eq_self]
  | ask id asked =>
    rw [act]
    cases done : h.request id asked with
    | ok step => exact move_request done
    | error fault => exact quiet_refl h
  | drop id => exact move_remove h id

theorem of_update {sessions : String → Option Session} {changed : String} {next : Option Session}
    (there : Function.update sessions changed next id = some session) :
    (id = changed ∧ next = some session) ∨ sessions id = some session := by
  rw [Function.update_apply] at there
  split at there
  next same => exact .inl ⟨same, there⟩
  next => exact .inr there

/-- Nobody is deafened by an act. -/
theorem hears_of_move {step : HubStep} (move : Move h step)
    (hears : ∀ {id session}, h.session? id = some session → session.deaf = false)
    (there : step.hub.session? id = some session) : session.deaf = false := by
  cases move with
  | quiet same => exact hears (same ▸ there)
  | started known away hub =>
    rcases of_update (hub ▸ there) with ⟨-, new⟩ | old
    · cases new
      rfl
    · exact hears old
  | @regrouped _ _ _ _ before known hub =>
    rcases of_update (hub ▸ there) with ⟨-, new⟩ | old
    · cases new
      have listens : before.deaf = false := hears known
      exact listens
    · exact hears old
  | stopped known hub =>
    rcases of_update (hub ▸ there) with ⟨-, new⟩ | old
    · cases new
    · exact hears old

theorem seenBy_of_update {next : Hub} {s : Option Session}
    (hub : next.session? = Function.update h.session? id s) :
    next.seenBy own =
      if own = id then h.seenBy own
      else Function.update (h.seenBy own) id (s.map Session.profile) := by
  funext other
  rw [seenBy, hub, Function.update_apply]
  by_cases same : own = id
  · subst same
    rw [if_pos rfl, seenBy]
    by_cases self : other = own <;> simp [self]
  · rw [if_neg same, Function.update_apply]
    by_cases changed : other = id
    · subst changed
      rw [if_pos rfl, if_pos rfl, if_neg (Ne.symm same)]
    · rw [if_neg changed, if_neg changed, seenBy]

theorem seenBy_of_session (there : h.session? id = some session) (other : own ≠ id) :
    h.seenBy own id = some session.profile := by
  rw [seenBy, if_neg (Ne.symm other), there, Option.map_some]

theorem seenBy_of_away (away : h.session? id = none) : h.seenBy own id = none := by
  rw [seenBy, away, Option.map_none, ite_self]

/-- Whatever a node hears of an act keeps its directory right. -/
theorem shows_of_move {step : HubStep} (move : Move h step) (there : h.session? own = some session)
    (hears : session.deaf = false) (stays : (step.hub.session? own).isSome) {d : Directory}
    (shows_ : d.Shows (h.seenBy own)) :
    ((posted own step.postings).foldl Directory.learn d).Shows (step.hub.seenBy own) := by
  cases move with
  | quiet same idle =>
    have unchanged : step.hub.seenBy own = h.seenBy own := by
      funext other
      rw [seenBy, seenBy, same]
    have learned : (posted own step.postings).foldl Directory.learn d = d := by
      refine List.foldlRecOn (motive := fun next => next = d) _ _ rfl fun next same event heard => ?_
      obtain ⟨posting, member, found⟩ := List.mem_filterMap.mp heard
      split at found
      · cases found
        rw [same, idle posting member]
      · cases found
    rw [unchanged, learned]
    exact shows_
  | @started id member known away hub told =>
    have other : own ≠ id := fun same => by
      rw [same, away] at there
      cases there
    rw [told, posted_append, posted_toAll hears there, posted_told, if_neg other, if_neg other,
      List.append_nil, seenBy_of_update hub, if_neg other]
    exact shows_enter shows_ (seenBy_of_away away) member.name member.address member.headers
  | @regrouped id name group joined before known hub told =>
    rw [told, posted_toAll hears there, seenBy_of_update hub]
    by_cases same : own = id
    · rw [if_pos same, if_pos same]
      exact shows_
    · rw [if_neg same, if_neg same]
      have learned := shows_group shows_ (seenBy_of_session known same) group joined
      cases joined with
      | true => exact learned
      | false => exact learned
  | @stopped id name before known hub told =>
    have other : own ≠ id := fun same => by
      rw [hub, same, Function.update_self] at stays
      cases stays
    rw [told, posted_toAll hears there, if_neg other, seenBy_of_update hub, if_neg other]
    exact shows_exit shows_ (seenBy_of_session known other) name

/-- Nodes that are made known one after the other are all there. -/
theorem shows_introductions {sessions : List (String × Session)}
    (sorted : sessions.Pairwise fun a b => a.1 < b.1) {d : Directory}
    {there : String → Option Profile} (shows_ : d.Shows there)
    (away : ∀ e ∈ sessions, there e.1 = none) :
    ((sessions.flatMap fun e => e.2.introduction e.1).foldl Directory.learn d).Shows fun id =>
      ((Table.find id sessions).map Session.profile).or (there id) := by
  induction sessions generalizing d there with
  | nil => exact shows_
  | cons head rest ih =>
    obtain ⟨first, rest_sorted⟩ := List.pairwise_cons.mp sorted
    rw [List.flatMap_cons, List.foldl_append]
    have introduced := shows_of_recounts
      (recounts_introduction (away head List.mem_cons_self) head.2.profile) shows_
    have others : ∀ e ∈ rest, Function.update there head.1 (some head.2.profile) e.1 = none := by
      intro e member
      have different : e.1 ≠ head.1 := fun same => String.lt_irrefl _ (same ▸ first e member)
      rw [Function.update_of_ne different]
      exact away e (List.mem_cons_of_mem _ member)
    have all := ih rest_sorted introduced others
    refine fun id => (all id).trans (congrArg _ ?_)
    dsimp only
    rw [Table.find_cons, Function.update_apply]
    by_cases same : head.1 = id
    · rw [if_pos same, if_pos same.symm, Table.find_eq_none fun e member => same ▸ first e member]
      rfl
    · rw [if_neg same, if_neg (Ne.symm same)]

/-- What a node hears when it starts puts its directory right. -/
theorem shows_of_start {step : HubStep} (move : Move h step) (away : h.session? own = none)
    (there : (step.hub.session? own).isSome) :
    (Directory.ofEvents (posted own step.postings)).Shows (step.hub.seenBy own) := by
  have unknown {session : Session} (known : h.session? own = some session) : False := by
    rw [away] at known
    cases known
  have lasting {changed : String} {next : Option Session}
      (hub : step.hub.session? = Function.update h.session? changed next) : own = changed := by
    obtain ⟨session, there⟩ := Option.isSome_iff_exists.mp there
    rcases of_update (hub ▸ there) with ⟨same, -⟩ | old
    · exact same
    · exact (unknown old).elim
  cases move with
  | quiet same =>
    rw [same, away] at there
    cases there
  | @started id member known away hub told =>
    cases lasting hub
    have silent : posted own
        (h.post own toAll (.enter own member.name member.address member.headers)) = [] := by
      rw [posted_post, if_neg fun chosen => chosen.1 rfl]
    rw [told, posted_append, silent, posted_told, if_pos rfl, List.nil_append,
      seenBy_of_update hub, if_pos rfl]
    refine fun id => (shows_introductions (sorted_sessions h) shows_empty (fun _ _ => rfl) id).trans ?_
    dsimp only
    rw [find_sessions, Option.or_none, seenBy]
    by_cases same : id = own
    · rw [if_pos same, same, away, Option.map_none]
    · rw [if_neg same]
  | regrouped known hub =>
    cases lasting hub
    exact (unknown known).elim
  | stopped known hub =>
    cases lasting hub
    exact (unknown known).elim

theorem member?_setMember (h : Hub) (id : String) (member : Member) :
    (h.setMember id member).member? = Function.update h.member? id (some member) :=
  Table.update_insert ..

theorem update_member (known : h.member? id = some member) :
    Function.update h.member? id (some member) = h.member? := by
  rw [← known, Function.update_eq_self]

/-- The hub has a node as a request of the node leaves it, one that is refused as it was. -/
theorem member?_setGroup (known : h.member? id = some member) (group : String) (joined : Bool) :
    ∃ next : Member,
      next.account =
        { member.account with started := member.account.started.map (·.regroup group joined) } ∧
      ((h.setGroup id member group joined).toOption.getD ⟨h, []⟩).hub.member? =
        Function.update h.member? id (some next) := by
  rw [setGroup, Member.account]
  cases there : member.session with
  | none => exact ⟨member, by rw [Member.account, there]; rfl, (update_member known).symm⟩
  | some session =>
    dsimp only
    by_cases same : Table.contains session.groups group = joined
    · rw [if_pos same]
      refine ⟨member, ?_, (update_member known).symm⟩
      have kept : session.profile.regroup group joined = session.profile :=
        congrArg (fun groups => { session.profile with groups := groups }) (NameSet.change_eq_self same)
      rw [Member.account, there, Option.map_some, Option.map_some, kept]
    · rw [if_neg same]
      exact ⟨_, rfl, member?_setMember ..⟩

theorem member?_ask (known : h.member? id = some member) (asked : Request) :
    ∃ next : Member, next.account = member.account.after asked ∧
      (h.act (.ask id asked)).hub.member? = Function.update h.member? id (some next) := by
  rw [act, request, known]
  have unchanged := (update_member known).symm
  cases asked with
  | setName name | setHeader key value => exact ⟨_, rfl, member?_setMember ..⟩
  | start =>
    dsimp only
    rw [start, Account.after, Member.account]
    cases there : member.session with
    | some session => exact ⟨member, by rw [Member.account, there]; rfl, unchanged⟩
    | none => exact ⟨_, rfl, member?_setMember ..⟩
  | join group => exact member?_setGroup known group true
  | leave group => exact member?_setGroup known group false
  | whisper peer frames =>
    refine ⟨member, rfl, ?_⟩
    dsimp only
    rw [postTo]
    split
    · split
      · exact unchanged
      · split
        · exact unchanged
        · exact unchanged
    · exact unchanged
  | shout group frames =>
    refine ⟨member, rfl, ?_⟩
    dsimp only
    split
    · exact unchanged
    · exact unchanged
  | stop =>
    dsimp only
    rw [stop, Account.after, Member.account]
    cases there : member.session with
    | some session => exact ⟨_, rfl, member?_setMember ..⟩
    | none => exact ⟨member, by rw [Member.account, there]; rfl, unchanged⟩

theorem member?_remove (h : Hub) (id : String) :
    (h.remove id).hub.member? = Function.update h.member? id none := by
  rw [remove]
  cases known : h.member? id with
  | none =>
    have same := Function.update_eq_self id h.member?
    rw [known] at same
    exact same.symm
  | some member =>
    refine (Table.update_erase ..).trans ?_
    rw [stop]
    split
    · exact (congrArg (Function.update · id none) (member?_setMember ..)).trans (Function.update_idem ..)
    · rfl

theorem account_of_ne {a : Act} (other : a.node ≠ id) (before : Option Account) :
    a.account id before = before := by
  cases a with
  | add | ask | drop => exact if_neg other

/-- An act changes no node but its own, and that as it says. -/
theorem member?_act (h : Hub) (a : Act) : ∃ next : Option Member,
    (h.act a).hub.member? = Function.update h.member? a.node next ∧
      next.map Member.account = a.account a.node ((h.member? a.node).map Member.account) := by
  cases a with
  | add node address =>
    rw [act, Act.account, Act.node, if_pos rfl]
    cases known : h.member? node with
    | none =>
      rw [Option.isSome_none, if_neg Bool.false_ne_true]
      exact ⟨some (.new address), member?_setMember .., rfl⟩
    | some member =>
      rw [if_pos Option.isSome_some]
      exact ⟨some member, (update_member known).symm, rfl⟩
  | ask node asked =>
    rw [Act.account, Act.node, if_pos rfl]
    cases known : h.member? node with
    | none =>
      have refused : (h.act (.ask node asked)).hub = h := by
        rw [act, request, known]
        rfl
      refine ⟨none, ?_, rfl⟩
      rw [refused, ← known, Function.update_eq_self]
    | some member =>
      obtain ⟨next, kept, changed⟩ := member?_ask known asked
      exact ⟨some next, changed, congrArg some kept⟩
  | drop node => exact ⟨none, member?_remove h node, (if_pos rfl).symm⟩

theorem account_act (h : Hub) (a : Act) (id : String) :
    ((h.act a).hub.member? id).map Member.account = a.account id ((h.member? id).map Member.account) := by
  obtain ⟨next, changed, kept⟩ := member?_act h a
  rw [changed]
  by_cases same : a.node = id
  · subst same
    rw [Function.update_self, kept]
  · rw [Function.update_of_ne (Ne.symm same), account_of_ne same]

theorem account?_eq (past : List Act) (id : String) :
    account? id past = ((after past).member? id).map Member.account := by
  induction past with
  | nil => rfl
  | cons a past ih => rw [account?, after, account_act, ih]

theorem profile?_eq (past : List Act) (id : String) :
    profile? id past = ((after past).session? id).map Session.profile := by
  rw [profile?, account?_eq, session?]
  cases (after past).member? id with
  | none => rfl
  | some member => rfl

/-- Everyone who has started listens, and has heard enough. -/
structure Agree (past : List Act) : Prop where
  hears {id : String} {session : Session} (there : (after past).session? id = some session) :
    session.deaf = false
  shows_ {id : String} (there : ((after past).session? id).isSome) :
    (Directory.ofEvents (inbox id past)).Shows ((after past).seenBy id)

theorem agree_nil : Agree [] where
  hears there := by cases there
  shows_ there := by cases there

theorem agree_cons {past : List Act} (agree : Agree past) (a : Act) : Agree (a :: past) := by
  have move := move_act (after past) a
  refine ⟨hears_of_move move agree.hears, fun {id} there => ?_⟩
  have known : (profile? id (a :: past)).isSome := by
    rwa [profile?_eq, Option.isSome_map]
  cases before : (after past).session? id with
  | none =>
    have begins : starts id a past = true := by
      rw [starts, known, profile?_eq, before]
      rfl
    rw [inbox, if_pos begins, List.nil_append]
    exact shows_of_start move before there
  | some session =>
    have goes : starts id a past ≠ true := by
      rw [starts, profile?_eq, before]
      exact Bool.false_ne_true
    rw [inbox, if_neg goes, Directory.ofEvents, List.foldl_append]
    exact shows_of_move move before (agree.hears before) there
      (agree.shows_ (Option.isSome_of_mem before))

theorem agree (past : List Act) : Agree past := by
  induction past with
  | nil => exact agree_nil
  | cons a past ih => exact agree_cons ih a

/-- Whatever has happened at a hub, it has the nodes that have started as their own acts have made them.
What such a node has heard since its start shows it the others, each with what it had when it started and
the groups that it has joined since and not left. What the node shouts reaches the members of the group,
once each, and it can whisper to whoever has started. -/
theorem directories_agree_with_hub (past : List Act) {own : String} {node : Account}
    (known : account? own past = some node) (started : node.started.isSome) :
    (∀ id, ((after past).session? id).map Session.profile = profile? id past) ∧
    (∀ id, (Directory.ofEvents (inbox own past)).get? id =
      if id = own then none
      else (profile? id past).map fun p => { Peer.new id p.name p.address p.headers with
        reconnections := 0
        groups := p.groups
        joined := Table.contains p.groups privateChannel }) ∧
    (∀ group frames, ∃ postings,
      (after past).request own (.shout group frames) = .ok ⟨after past, postings⟩ ∧
      ∀ id, posted id postings =
        if id ≠ own ∧ (profile? id past).any (fun p => Table.contains p.groups group) = true then
          [.shout own node.name group frames]
        else []) ∧
    ∀ peer frames,
      (after past).request own (.whisper peer frames) =
        if (profile? peer past).isSome then
          .ok ⟨after past, [⟨peer, .whisper own node.name frames⟩]⟩
        else .error (.unknownPeer peer) := by
  obtain ⟨member, there, rfl⟩ := Option.map_eq_some_iff.mp ((account?_eq past own).symm.trans known)
  have began : member.session.isSome := by
    rwa [Member.account, Option.isSome_map] at started
  have present : ((after past).session? own).isSome := by
    rwa [session?_of_member there]
  have shows_ := (agree past).shows_ present
  refine ⟨fun id => (profile?_eq past id).symm, fun id => (shows_ id).trans ?_, fun group frames => ?_,
    fun peer frames => ?_⟩
  · rw [seenBy, ← profile?_eq]
    split
    · rfl
    · rfl
  · refine ⟨(after past).post own (fun s => Table.contains s.groups group)
      (.shout own member.name group frames), ?_, fun id => ?_⟩
    · simp only [request, there, began, if_true]
    · rw [posted_post, profile?_eq]
      cases present : (after past).session? id with
      | none => rfl
      | some session =>
        refine if_congr ?_ rfl rfl
        simp [(agree past).hears present, Session.profile]
  · simp only [request, there, began, if_true, postTo]
    rw [profile?_eq]
    cases present : (after past).session? peer with
    | none => rfl
    | some session => simp [(agree past).hears present, Member.account]

/-- The bank, the café and the shop open, and the last two each join a group. -/
private def morning : List Act :=
  [.ask "shop" (.join "square"), .ask "cafe" (.join "street"), .ask "bank" .start, .ask "shop" .start,
    .ask "cafe" .start, .add "shop" "10.0.0.3", .add "bank" "10.0.0.2", .add "cafe" "10.0.0.1"]

/-- The shop closes for good. The café opens again under another name, and leaves one of its groups. -/
private def evening : List Act :=
  [.ask "cafe" (.leave "market"), .ask "cafe" (.join "square"), .ask "cafe" (.join "market"),
    .ask "cafe" (.join privateChannel), .ask "cafe" .start, .ask "cafe" (.setName "Café"),
    .ask "cafe" .stop, .drop "shop"] ++ morning

private def bank : Account :=
  ⟨namelessName, "10.0.0.2", Table.empty, some ⟨namelessName, "10.0.0.2", Table.empty, Table.empty⟩⟩

/-- At first the bank sees the café in the street and the shop in the square, and later it no longer sees
the shop, nor the café in what that has left. -/
theorem bank_sees_cafe :
    account? "bank" morning = some bank ∧
    (Directory.ofEvents (inbox "bank" morning)).get? "cafe" =
      some { Peer.new "cafe" namelessName "10.0.0.1" Table.empty with
        groups := NameSet.ofList ["street"] } ∧
    (Directory.ofEvents (inbox "bank" morning)).get? "shop" =
      some { Peer.new "shop" namelessName "10.0.0.3" Table.empty with
        groups := NameSet.ofList ["square"] } ∧
    account? "bank" evening = some bank ∧
    (Directory.ofEvents (inbox "bank" evening)).get? "cafe" =
      some { Peer.new "cafe" "Café" "10.0.0.1" Table.empty with
        joined := true
        groups := NameSet.ofList [privateChannel, "square"] } ∧
    (Directory.ofEvents (inbox "bank" evening)).get? "shop" = none ∧
    ((after evening).request "bank" (.shout "square" [])).map (·.postings) =
      .ok [⟨"cafe", .shout "bank" namelessName "square" []⟩] ∧
    (after evening).request "bank" (.whisper "shop" []) = .error (.unknownPeer "shop") := by
  have early : account? "bank" morning = some bank := by decide +kernel
  have late : account? "bank" evening = some bank := by decide +kernel
  obtain ⟨-, seen, -, -⟩ := directories_agree_with_hub morning early rfl
  obtain ⟨-, seenLater, -, whispers⟩ := directories_agree_with_hub evening late rfl
  have closed : profile? "shop" evening = none := by decide +kernel
  refine ⟨early, (seen "cafe").trans (by decide +kernel), (seen "shop").trans (by decide +kernel), late,
    (seenLater "cafe").trans (by decide +kernel), ?_, by decide +kernel, ?_⟩
  · rw [seenLater, closed]
    rfl
  · rw [whispers, closed]
    rfl

end Proofs.HubViews
end PeerMesh
