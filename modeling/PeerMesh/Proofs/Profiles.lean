import Mathlib.Logic.Function.Basic
import PeerMesh.Directory
import PeerMesh.Presence
import PeerMesh.Proofs.Tables

/-! What a directory learns from the events of its node alone. It has an entry for each node that is
there, with what the node announced when it entered and the groups that it is in, as long as nobody
enters twice or leaves unknown. -/

namespace PeerMesh

/-- What is known of a node that is there. -/
structure Profile where
  name : String
  address : String
  headers : Table String
  groups : NameSet
  deriving DecidableEq

def Profile.peer (p : Profile) (id : String) : Peer :=
  { Peer.new id p.name p.address p.headers with
    joined := Table.contains p.groups privateChannel
    groups := p.groups }

namespace Directory

def learn (d : Directory) : Presence.Event → Directory
  | .enter id name address headers => (d.enter id name address headers).1
  | .exit id _ => (d.exit id).1
  | .join id _ group => (d.group id group true).1
  | .leave id _ group => (d.group id group false).1
  | .whisper .. | .shout .. => d

def ofEvents (events : List Presence.Event) : Directory := events.foldl learn empty

/-- A directory has an entry for each node that is there, and no other. -/
def Shows (d : Directory) (there : String → Option Profile) : Prop :=
  ∀ id, d.get? id = (there id).map (·.peer id)

end Directory

/-- The events by which a node with its groups is made known. -/
def Profile.introduction (p : Profile) (id : String) : List Presence.Event :=
  .enter id p.name p.address p.headers :: p.groups.toList.map fun group => .join id p.name group

def Profile.regroup (p : Profile) (group : String) (joined : Bool) : Profile :=
  { p with groups := if joined then p.groups.add group else p.groups.erase group }

/-- Events that recount how others come to be there. Whoever enters was away, and whoever is told of
otherwise is there; no group is joined from inside or left from outside. -/
inductive Recounts : (String → Option Profile) → List Presence.Event → (String → Option Profile) → Prop where
  | nil {there : String → Option Profile} : Recounts there [] there
  | enter {there next : String → Option Profile} {id name address : String} {headers : Table String}
      {events : List Presence.Event} (away : there id = none)
      (rest : Recounts (Function.update there id (some ⟨name, address, headers, Table.empty⟩)) events next) :
      Recounts there (.enter id name address headers :: events) next
  | exit {there next : String → Option Profile} {id name : String} {p : Profile}
      {events : List Presence.Event} (present : there id = some p)
      (rest : Recounts (Function.update there id none) events next) :
      Recounts there (.exit id name :: events) next
  | join {there next : String → Option Profile} {id name group : String} {p : Profile}
      {events : List Presence.Event} (present : there id = some p)
      (outside : Table.contains p.groups group = false)
      (rest : Recounts (Function.update there id (some (p.regroup group true))) events next) :
      Recounts there (.join id name group :: events) next
  | leave {there next : String → Option Profile} {id name group : String} {p : Profile}
      {events : List Presence.Event} (present : there id = some p)
      (inside : Table.contains p.groups group = true)
      (rest : Recounts (Function.update there id (some (p.regroup group false))) events next) :
      Recounts there (.leave id name group :: events) next
  | whisper {there next : String → Option Profile} {id name : String} {frames : List Bytes} {p : Profile}
      {events : List Presence.Event} (present : there id = some p) (rest : Recounts there events next) :
      Recounts there (.whisper id name frames :: events) next
  | shout {there next : String → Option Profile} {id name group : String} {frames : List Bytes}
      {p : Profile} {events : List Presence.Event} (present : there id = some p)
      (rest : Recounts there events next) :
      Recounts there (.shout id name group frames :: events) next

namespace Proofs.Profiles
open Directory

variable {d : Directory} {there : String → Option Profile} {p : Profile} {id : String}

theorem shows_empty : empty.Shows fun _ => none := fun _ => rfl

private theorem shows_insert (shows_ : d.Shows there) (p : Profile) (id : String) :
    Directory.Shows ⟨d.peers.insert id (p.peer id)⟩ (Function.update there id (some p)) := by
  intro other
  rw [Directory.get?, Table.update_insert, Function.update_apply, Function.update_apply]
  split
  next same => rw [same, Option.map_some]
  next => exact shows_ other

theorem shows_enter (shows_ : d.Shows there) (away : there id = none) (name address : String)
    (headers : Table String) :
    (d.learn (.enter id name address headers)).Shows
      (Function.update there id (some ⟨name, address, headers, Table.empty⟩)) := by
  have unknown : d.get? id = none := by rw [shows_ id, away, Option.map_none]
  rw [learn, enter, unknown]
  exact shows_insert shows_ ⟨name, address, headers, Table.empty⟩ id

theorem shows_exit (shows_ : d.Shows there) (present : there id = some p) (name : String) :
    (d.learn (.exit id name)).Shows (Function.update there id none) := by
  have known : d.get? id = some (p.peer id) := by rw [shows_ id, present, Option.map_some]
  rw [learn, exit, known]
  intro other
  rw [Function.update_apply]
  refine (congrFun (Table.update_erase d.peers id) other).trans ?_
  rw [Function.update_apply]
  split
  · rfl
  · exact shows_ other

theorem setGroup_peer (p : Profile) (id group : String) (joined : Bool) :
    (p.peer id).setGroup group joined = (p.regroup group joined).peer id := by
  have private_ : (if group = privateChannel then joined else Table.contains p.groups privateChannel) =
      Table.contains (p.regroup group joined).groups privateChannel := by
    cases joined with
    | true =>
      rw [Profile.regroup, if_pos rfl, NameSet.contains_add]
      by_cases same : group = privateChannel <;> simp [same]
    | false =>
      rw [Profile.regroup, if_neg Bool.false_ne_true, Table.contains_erase]
      by_cases same : group = privateChannel <;> simp [same]
  rw [Peer.setGroup, Profile.peer, Profile.peer, ← private_]
  rfl

theorem shows_group (shows_ : d.Shows there) (present : there id = some p) (group : String)
    (joined : Bool) :
    Directory.Shows (d.group id group joined).1
      (Function.update there id (some (p.regroup group joined))) := by
  have known : d.get? id = some (p.peer id) := by rw [shows_ id, present, Option.map_some]
  rw [Directory.group, known]
  dsimp only
  rw [setGroup_peer]
  exact shows_insert shows_ (p.regroup group joined) id

theorem shows_of_recounts {next : String → Option Profile} {events : List Presence.Event}
    (recounts : Recounts there events next) (shows_ : d.Shows there) :
    (events.foldl learn d).Shows next := by
  induction recounts generalizing d with
  | nil => exact shows_
  | enter away _ ih => exact ih (shows_enter shows_ away _ _ _)
  | exit present _ ih => exact ih (shows_exit shows_ present _)
  | join present _ _ ih => exact ih (shows_group shows_ present _ true)
  | leave present _ _ ih => exact ih (shows_group shows_ present _ false)
  | whisper _ _ ih | shout _ _ ih => exact ih shows_

theorem recounts_append {middle next : String → Option Profile} {events more : List Presence.Event}
    (first : Recounts there events middle) (second : Recounts middle more next) :
    Recounts there (events ++ more) next := by
  induction first with
  | nil => exact second
  | enter away _ ih => exact .enter away (ih second)
  | exit present _ ih => exact .exit present (ih second)
  | join present outside _ ih => exact .join present outside (ih second)
  | leave present inside _ ih => exact .leave present inside (ih second)
  | whisper present _ ih => exact .whisper present (ih second)
  | shout present _ ih => exact .shout present (ih second)

theorem recounts_joins {groups : List String} (distinct : groups.Nodup) (present : there id = some p)
    (outside : ∀ group ∈ groups, Table.contains p.groups group = false) (name : String) :
    Recounts there (groups.map fun group => .join id name group)
      (Function.update there id (some { p with groups := groups.foldl NameSet.add p.groups })) := by
  induction groups generalizing there p with
  | nil =>
    rw [List.foldl_nil, ← present, Function.update_eq_self]
    exact .nil
  | cons group groups ih =>
    obtain ⟨new, distinct⟩ := List.nodup_cons.mp distinct
    have others : ∀ other ∈ groups, Table.contains (p.regroup group true).groups other = false := by
      intro other member
      have different : group ≠ other := fun same => new (same ▸ member)
      rw [Profile.regroup, if_pos rfl, NameSet.contains_add, decide_eq_false different,
        outside other (List.mem_cons_of_mem _ member), Bool.or_false]
    have rest := ih distinct (Function.update_self id _ there) others
    rw [Function.update_idem] at rest
    exact .join present (outside group List.mem_cons_self) rest

/-- A node that was away is there after its introduction. -/
theorem recounts_introduction (away : there id = none) (p : Profile) :
    Recounts there (p.introduction id) (Function.update there id (some p)) := by
  have grouped := recounts_joins p.groups.keys_nodup
    (Function.update_self id (some ⟨p.name, p.address, p.headers, Table.empty⟩) there)
    (fun group _ => Table.contains_empty group) p.name
  rw [Function.update_idem] at grouped
  have all : p.groups.keys.foldl NameSet.add Table.empty = p.groups := NameSet.ofList_toList p.groups
  dsimp only at grouped
  rw [all] at grouped
  exact .enter away grouped

end Proofs.Profiles
end PeerMesh
