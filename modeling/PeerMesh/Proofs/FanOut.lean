import PeerMesh.Proofs.Tables
import PeerMesh.Roster

/-! Which connections lines go out on. A roster lists for every node the connections that are open, in
the order in which they were opened, and knows no node without one. A line for some nodes goes out once
on the oldest connection of each of them, so that a node gets its lines in their order as long as that
connection is open. -/

namespace PeerMesh

inductive Recipients where
  | everyone
  | members (group : String)
  | node (id : String)

namespace Roster

/-- What is done to a roster and with it. -/
inductive Act where
  | connect (info : NodeInfo) (connection : Nat)
  | disconnect (id : String) (connection : Nat)
  | setGroup (id group : String) (joined : Bool)
  | send (recipients : Recipients) (line : String)

def act (r : Roster) : Act → Roster
  | .connect info connection => (r.addConnection info connection).1
  | .disconnect id connection => (r.removeConnection id connection).1
  | .setGroup id group joined => (r.setGroup id group joined).1
  | .send .. => r

def after (r : Roster) (acts : List Act) : Roster := acts.foldl act r

def outlets (r : Roster) : Recipients → List Nat
  | .everyone => r.broadcast
  | .members group => r.sendToGroup group
  | .node id => (r.sendTo id).toOption.toList

def reaches (r : Roster) (recipients : Recipients) (id : String) : Bool :=
  (r.info? id).any fun info =>
    match recipients with
    | .everyone => true
    | .members group => info.groups.contains group
    | .node other => id = other

/-- An open connection, with the node that it leads to. -/
abbrev Channel := String × Nat

/-- The channels after an act, in the order in which they were opened. -/
def Act.channels (channels : List Channel) : Act → List Channel
  | .connect info connection => channels ++ [(info.nodeId, connection)]
  | .disconnect id connection => channels.filter (· ≠ (id, connection))
  | _ => channels

def Act.reopens (channels : List Channel) : Act → Bool
  | .connect _ connection => connection ∈ channels.map (·.2)
  | _ => false

def channelsAfter (acts : List Act) : List Channel := acts.foldl Act.channels []

def connectionsTo (id : String) (channels : List Channel) : List Nat :=
  (channels.filter (·.1 = id)).map (·.2)

def fresh : List Channel → List Act → Bool
  | _, [] => true
  | channels, act :: acts => !act.reopens channels && fresh (act.channels channels) acts

def connections (r : Roster) (id : String) : List Connection :=
  (r.entries.get? id).elim [] (·.connections)

/-- The lines that are for a node, in the order in which they are sent. -/
def linesFor (id : String) : Roster → List Act → List String
  | _, [] => []
  | r, .send recipients line :: acts =>
    (if r.reaches recipients id then [line] else []) ++ r.linesFor id acts
  | r, act :: acts => (r.act act).linesFor id acts

/-- What goes out on the connections to a node, in its order, each line with the connection. -/
def sentTo (id : String) : Roster → List Act → List (Nat × String)
  | _, [] => []
  | r, .send recipients line :: acts =>
    (((r.outlets recipients).filter (· ∈ (r.connections id).map (·.id))).map (·, line)) ++
      r.sentTo id acts
  | r, act :: acts => (r.act act).sentTo id acts

end Roster

namespace Proofs.FanOut
open Roster

variable {r : Roster} {channels : List Channel} {id : String}

section Entries
variable {entry : RosterEntry}

theorem connections_of_known (known : r.entries.get? id = some entry) :
    r.connections id = entry.connections := by rw [connections, known]; rfl

theorem connections_of_unknown (unknown : r.entries.get? id = none) : r.connections id = [] := by
  rw [connections, unknown]
  rfl

theorem connections_insert (r : Roster) (node : String) (entry : RosterEntry) (id : String) :
    connections ⟨r.entries.insert node entry⟩ id =
      if node = id then entry.connections else r.connections id := by
  rw [connections, Table.get?_insert]
  split <;> rfl

theorem connections_erase (r : Roster) (node id : String) :
    connections ⟨r.entries.erase node⟩ id = if node = id then [] else r.connections id := by
  rw [connections, Table.get?_erase]
  split <;> rfl

end Entries

theorem connections_addConnection (r : Roster) (info : NodeInfo) (connection : Nat) (id : String) :
    (r.addConnection info connection).1.connections id =
      if info.nodeId = id then r.connections id ++ [⟨connection, true⟩] else r.connections id := by
  unfold Roster.addConnection
  cases known : r.entries.get? info.nodeId with
  | none =>
    refine (connections_insert r ..).trans (ite_congr rfl (fun same => ?_) fun _ => rfl)
    rw [← same, connections_of_unknown known]
    rfl
  | some entry =>
    refine (connections_insert r ..).trans (ite_congr rfl (fun same => ?_) fun _ => rfl)
    rw [← same, connections_of_known known]

theorem connections_removeConnection (r : Roster) (node : String) (connection : Nat) (id : String) :
    (r.removeConnection node connection).1.connections id =
      if node = id then (r.connections id).filter (·.id ≠ connection) else r.connections id := by
  unfold Roster.removeConnection
  cases known : r.entries.get? node with
  | none =>
    dsimp only
    split
    next same => rw [← same, connections_of_unknown known]; rfl
    next => rfl
  | some entry =>
    dsimp only
    split
    next emptied =>
      refine (connections_erase r ..).trans (ite_congr rfl (fun same => ?_) fun _ => rfl)
      rw [← same, connections_of_known known]
      exact (List.isEmpty_iff.mp emptied).symm
    next =>
      refine (connections_insert r ..).trans (ite_congr rfl (fun same => ?_) fun _ => rfl)
      rw [← same, connections_of_known known]

theorem connections_setGroup (r : Roster) (node group : String) (joined : Bool) (id : String) :
    (r.setGroup node group joined).1.connections id = r.connections id := by
  unfold Roster.setGroup
  cases known : r.entries.get? node with
  | none => rfl
  | some entry =>
    dsimp only
    split
    · rfl
    · refine (connections_insert r ..).trans ?_
      split
      next same => rw [← same, connections_of_known known]
      next => rfl

theorem connectionsTo_connect (id node : String) (connection : Nat) (channels : List Channel) :
    connectionsTo id (channels ++ [(node, connection)]) =
      connectionsTo id channels ++ if node = id then [connection] else [] := by
  rw [connectionsTo, List.filter_append, List.map_append, List.filter_singleton]
  by_cases same : node = id <;> simp [connectionsTo, same]

theorem mem_connectionsTo {connection : Nat} :
    connection ∈ connectionsTo id channels ↔ (id, connection) ∈ channels := by
  simp [connectionsTo]

theorem connectionsTo_disconnect (id node : String) (connection : Nat) (channels : List Channel) :
    connectionsTo id (channels.filter (· ≠ (node, connection))) =
      if node = id then (connectionsTo id channels).filter (· ≠ connection)
      else connectionsTo id channels := by
  rw [connectionsTo, List.filter_filter, connectionsTo, List.filter_map, List.filter_filter]
  split
  next same =>
    refine congrArg _ (List.filter_congr fun channel _ => ?_)
    by_cases there : channel.1 = id <;> simp [same, there, Prod.ext_iff]
  next other =>
    refine congrArg _ (List.filter_congr fun channel _ => ?_)
    by_cases there : channel.1 = id <;> simp [there, Prod.ext_iff, Ne.symm other]

/-- A roster lists the open connections of every node that it knows, oldest first, and it knows no node
without one. -/
structure Keeps (r : Roster) (channels : List Channel) : Prop where
  listed (id : String) : r.connections id = (connectionsTo id channels).map (⟨·, true⟩)
  inhabited {id : String} {entry : RosterEntry} (known : r.entries.get? id = some entry) :
    entry.connections ≠ []
  distinct : (channels.map (·.2)).Nodup

theorem keeps_empty : Keeps Roster.empty [] where
  listed _ := rfl
  inhabited known := by cases known
  distinct := .nil

private theorem inhabited_insert {node : String} {entry : RosterEntry}
    (before : ∀ {id entry}, r.entries.get? id = some entry → entry.connections ≠ [])
    (some_ : entry.connections ≠ []) {id : String} {found : RosterEntry}
    (known : (r.entries.insert node entry).get? id = some found) : found.connections ≠ [] := by
  rw [Table.get?_insert] at known
  split at known
  · cases known
    exact some_
  · exact before known

theorem keeps_connect (keeps : Keeps r channels) {info : NodeInfo} {connection : Nat}
    (fresh : connection ∉ channels.map (·.2)) :
    Keeps (r.addConnection info connection).1 (channels ++ [(info.nodeId, connection)]) where
  listed id := by
    rw [connections_addConnection, connectionsTo_connect, keeps.listed]
    split <;> simp
  inhabited known := by
    unfold Roster.addConnection at known
    split at known
    · exact inhabited_insert keeps.inhabited (by simp) known
    · exact inhabited_insert keeps.inhabited (by simp) known
  distinct := by
    rw [List.map_append, List.nodup_append]
    refine ⟨keeps.distinct, by simp, ?_⟩
    intro earlier member later last same
    have new : later = connection := List.mem_singleton.mp last
    exact fresh (new ▸ same ▸ member)

theorem keeps_disconnect (keeps : Keeps r channels) (node : String) (connection : Nat) :
    Keeps (r.removeConnection node connection).1 (channels.filter (· ≠ (node, connection))) where
  listed id := by
    rw [connections_removeConnection, connectionsTo_disconnect, keeps.listed]
    split
    · rw [List.filter_map]
      rfl
    · rfl
  inhabited known := by
    unfold Roster.removeConnection at known
    split at known
    · exact keeps.inhabited known
    dsimp only at known
    split at known
    · rw [Table.get?_erase] at known
      split at known
      · cases known
      · exact keeps.inhabited known
    next left =>
      exact inhabited_insert keeps.inhabited (fun empty => left (List.isEmpty_iff.mpr empty)) known
  distinct := keeps.distinct.sublist (List.filter_sublist.map _)

theorem keeps_setGroup (keeps : Keeps r channels) (node group : String) (joined : Bool) :
    Keeps (r.setGroup node group joined).1 channels where
  listed id := by rw [connections_setGroup, keeps.listed]
  inhabited known := by
    unfold Roster.setGroup at known
    split at known
    · exact keeps.inhabited known
    next entry found =>
      have listed := keeps.inhabited found
      dsimp only at known
      split at known
      · exact keeps.inhabited known
      · refine inhabited_insert keeps.inhabited ?_ known
        exact listed
  distinct := keeps.distinct

theorem keeps_act (keeps : Keeps r channels) {act : Act} (new : act.reopens channels = false) :
    Keeps (r.act act) (act.channels channels) := by
  cases act with
  | connect info connection => exact keeps_connect keeps (of_decide_eq_false new)
  | disconnect node connection => exact keeps_disconnect keeps node connection
  | setGroup node group joined => exact keeps_setGroup keeps node group joined
  | send => exact keeps

theorem fresh_append (channels : List Channel) (acts more : List Act) :
    fresh channels (acts ++ more) =
      (fresh channels acts && fresh (acts.foldl Act.channels channels) more) := by
  induction acts generalizing channels with
  | nil => rfl
  | cons act acts ih => rw [List.cons_append, fresh, fresh, ih, Bool.and_assoc, List.foldl_cons]

theorem keeps_after {acts : List Act} (new : fresh [] acts = true) :
    Keeps (Roster.empty.after acts) (channelsAfter acts) := by
  induction acts using List.reverseRecOn with
  | nil => exact keeps_empty
  | append_singleton acts act ih =>
    rw [fresh_append, Bool.and_eq_true_iff, fresh, Bool.and_eq_true_iff, Bool.not_eq_true'] at new
    rw [after, channelsAfter, List.foldl_append, List.foldl_append]
    exact keeps_act (ih new.1) new.2.1

private theorem filter_eq_singleton {α : Type} {items : List α} {keep : α → Bool} {a : α}
    (distinct : items.Nodup) (member : a ∈ items) (only : ∀ b ∈ items, keep b = true ↔ b = a) :
    items.filter keep = [a] := by
  induction items with
  | nil => cases member
  | cons first items ih =>
    obtain ⟨absent, distinct⟩ := List.nodup_cons.mp distinct
    obtain ⟨here, others⟩ := List.forall_mem_cons.mp only
    by_cases same : first = a
    · subst same
      have none_ : items.filter keep = [] := List.filter_eq_nil_iff.mpr fun b listed kept =>
        absent ((others b listed).mp kept ▸ listed)
      rw [List.filter_cons_of_pos (here.mpr rfl), none_]
    · rw [List.filter_cons_of_neg fun kept => same (here.mp kept)]
      exact ih distinct ((List.mem_cons.mp member).resolve_left (Ne.symm same)) others

section Keeping
variable (keeps : Keeps r channels)
include keeps

theorem hasNode_iff : r.hasNode id = true ↔ connectionsTo id channels ≠ [] := by
  have listed := keeps.listed id
  rw [Roster.hasNode, Table.contains]
  cases known : r.entries.get? id with
  | none =>
    rw [connections_of_unknown known] at listed
    simp [List.map_eq_nil_iff.mp listed.symm]
  | some entry =>
    have open_ := keeps.inhabited known
    rw [connections_of_known known] at listed
    rw [listed] at open_
    simpa using open_

/-- A connection leads to one node. -/
theorem node_unique {one two : String} {connection : Nat} (first : (one, connection) ∈ channels)
    (second : (two, connection) ∈ channels) : one = two :=
  congrArg Prod.fst (List.inj_on_of_nodup_map keeps.distinct first second rfl)

theorem outlet?_of_known {entry : RosterEntry} (known : r.entries.get? id = some entry) :
    RosterEntry.outlet? entry = (connectionsTo id channels).head? ∧
      (RosterEntry.outlet? entry).isSome = true := by
  have listed := keeps.listed id
  have open_ := keeps.inhabited known
  rw [connections_of_known known] at listed
  rw [listed] at open_
  rw [RosterEntry.outlet?, listed]
  cases first : connectionsTo id channels with
  | nil => exact absurd (first ▸ rfl) open_
  | cons connection others => exact ⟨rfl, rfl⟩

theorem sendTo_eq (id : String) : r.sendTo id =
    match (connectionsTo id channels).head? with
    | some connection => .ok connection
    | none => .error (.unknownNode id) := by
  have listed := keeps.listed id
  unfold Roster.sendTo
  cases known : r.entries.get? id with
  | none =>
    rw [connections_of_unknown known] at listed
    rw [List.map_eq_nil_iff.mp listed.symm]
    rfl
  | some entry =>
    have open_ := keeps.inhabited known
    rw [connections_of_known known] at listed
    rw [listed] at open_
    dsimp only
    rw [listed]
    cases first : connectionsTo id channels with
    | nil => exact absurd (first ▸ rfl) open_
    | cons connection others => rfl

/-- A selection of the known nodes gives the oldest connection of each. -/
theorem selected_outlets (keep : RosterEntry → Bool) :
    ((r.entries.values.filter keep).filterMap RosterEntry.outlet?).map some =
      ((r.entries.entries.filter fun e => keep e.2).map fun e => (connectionsTo e.1 channels).head?) := by
  have each : ∀ e ∈ r.entries.entries.filter fun e => keep e.2,
      RosterEntry.outlet? e.2 = (connectionsTo e.1 channels).head? ∧
        (RosterEntry.outlet? e.2).isSome = true := fun e member =>
    outlet?_of_known keeps (Table.mem_entries.mp (List.mem_filter.mp member).1)
  have selected : r.entries.values.filter keep = (r.entries.entries.filter fun e => keep e.2).map (·.2) :=
    List.filter_map
  rw [selected]
  generalize r.entries.entries.filter (fun e => keep e.2) = entries at each
  induction entries with
  | nil => rfl
  | cons e entries ih =>
    obtain ⟨⟨oldest, open_⟩, others⟩ := List.forall_mem_cons.mp each
    obtain ⟨connection, found⟩ := Option.isSome_iff_exists.mp open_
    rw [List.map_cons, List.filterMap_cons_some found, List.map_cons, List.map_cons, ih others, ← found,
      oldest]

theorem outlets_node (other : String) : (r.outlets (.node other)).map some =
    (r.nodeIds.filter (r.reaches (.node other))).map fun id => (connectionsTo id channels).head? := by
  rw [outlets, sendTo_eq keeps]
  cases first : (connectionsTo other channels).head? with
  | none =>
    have away : r.info? other = none := by
      have absent : ¬r.hasNode other = true := fun there =>
        (hasNode_iff keeps).mp there (List.head?_eq_none_iff.mp first)
      simpa [Roster.hasNode, Table.contains, Roster.info?] using absent
    have none_ : r.nodeIds.filter (r.reaches (.node other)) = [] := by
      refine List.filter_eq_nil_iff.mpr fun id _ reached => ?_
      obtain ⟨info, known, same⟩ := (Option.any_eq_true _ _).mp reached
      rw [of_decide_eq_true same, away] at known
      cases known
    rw [none_]
    rfl
  | some connection =>
    have there : r.hasNode other = true :=
      (hasNode_iff keeps).mpr fun empty => by rw [empty] at first; cases first
    obtain ⟨entry, known⟩ := Table.contains_iff.mp there
    have one : r.nodeIds.filter (r.reaches (.node other)) = [other] := by
      refine filter_eq_singleton r.entries.keys_nodup (Table.mem_keys.mpr ⟨entry, known⟩) fun id member => ?_
      obtain ⟨found, here⟩ := Table.mem_keys.mp member
      rw [reaches, Roster.info?, here, Option.map_some, Option.any_some]
      exact decide_eq_true_iff
    rw [one, List.map_singleton, first]
    rfl

/-- Of the nodes that are there, those that a line is for get it on their oldest connections. -/
theorem outlets_eq (recipients : Recipients) : (r.outlets recipients).map some =
    (r.nodeIds.filter (r.reaches recipients)).map fun id => (connectionsTo id channels).head? := by
  have chosen (keep : RosterEntry → Bool)
      (same : ∀ e ∈ r.entries.entries, r.reaches recipients e.1 = keep e.2) :
      ((r.entries.values.filter keep).filterMap RosterEntry.outlet?).map some =
        (r.nodeIds.filter (r.reaches recipients)).map fun id => (connectionsTo id channels).head? := by
    have filtered : r.nodeIds.filter (r.reaches recipients) =
        (r.entries.entries.filter fun e => keep e.2).map (·.1) :=
      List.filter_map.trans (congrArg _ (List.filter_congr same))
    rw [selected_outlets keeps, filtered, List.map_map]
    rfl
  have info? {e : String × RosterEntry} (member : e ∈ r.entries.entries) :
      r.info? e.1 = some e.2.info := by
    have known : r.entries.get? e.1 = some e.2 := Table.mem_entries.mp member
    rw [Roster.info?, known]
    rfl
  cases recipients with
  | everyone =>
    have all := chosen (fun _ => true) fun e member => by rw [reaches, info? member]; rfl
    rwa [List.filter_true] at all
  | members group =>
    exact chosen (fun entry => entry.info.groups.contains group) fun e member => by
      rw [reaches, info? member]
      rfl
  | node other => exact outlets_node keeps other

theorem nodup_outlets (recipients : Recipients) : (r.outlets recipients).Nodup := by
  have distinct : ((r.nodeIds.filter (r.reaches recipients)).map
      fun id => (connectionsTo id channels).head?).Nodup := by
    refine List.Nodup.map_on ?_ (r.entries.keys_nodup.filter _)
    intro one member two _ same
    obtain ⟨entry, known⟩ := Table.mem_keys.mp (List.mem_filter.mp member).1
    obtain ⟨oldest, open_⟩ := outlet?_of_known keeps known
    obtain ⟨connection, first⟩ := Option.isSome_iff_exists.mp (oldest ▸ open_)
    exact node_unique keeps (mem_connectionsTo.mp (List.mem_of_head? first))
      (mem_connectionsTo.mp (List.mem_of_head? (same ▸ first)))
  rw [← outlets_eq keeps] at distinct
  exact distinct.of_map _

theorem mem_outlets {recipients : Recipients} {connection : Nat} :
    connection ∈ r.outlets recipients ↔
      ∃ id, r.reaches recipients id = true ∧ (connectionsTo id channels).head? = some connection := by
  have listed : connection ∈ r.outlets recipients ↔
      some connection ∈ (r.outlets recipients).map some := by simp
  rw [listed, outlets_eq keeps, List.mem_map]
  refine exists_congr fun id => and_congr_left fun _ => ?_
  rw [List.mem_filter]
  refine and_iff_right_of_imp fun reached => ?_
  obtain ⟨info, known, -⟩ := (Option.any_eq_true _ _).mp reached
  obtain ⟨entry, found, -⟩ := Option.map_eq_some_iff.mp known
  exact Table.mem_keys.mpr ⟨entry, found⟩

/-- On the connections to a node, a line for it goes out once, on the oldest. -/
theorem outlets_to {connection : Nat} (oldest : (connectionsTo id channels).head? = some connection)
    (recipients : Recipients) :
    (r.outlets recipients).filter (· ∈ (r.connections id).map (·.id)) =
      if r.reaches recipients id then [connection] else [] := by
  have own (c : Nat) : c ∈ (r.connections id).map (·.id) ↔ (id, c) ∈ channels := by
    rw [keeps.listed, List.map_map, ← mem_connectionsTo]
    simp
  have only : ∀ c ∈ r.outlets recipients, (id, c) ∈ channels →
      c = connection ∧ r.reaches recipients id = true := by
    intro c out member
    obtain ⟨other, reached, first⟩ := (mem_outlets keeps).mp out
    have same : other = id :=
      node_unique keeps (mem_connectionsTo.mp (List.mem_of_head? first)) member
    subst same
    exact ⟨Option.some.inj (first.symm.trans oldest), reached⟩
  split
  next reached =>
    have out : connection ∈ r.outlets recipients := (mem_outlets keeps).mpr ⟨id, reached, oldest⟩
    refine filter_eq_singleton (nodup_outlets keeps recipients) out fun c member => ?_
    rw [decide_eq_true_iff, own]
    refine ⟨fun there => (only c member there).1, ?_⟩
    rintro rfl
    exact mem_connectionsTo.mp (List.mem_of_head? oldest)
  next away =>
    refine List.filter_eq_nil_iff.mpr fun c member there => ?_
    rw [decide_eq_true_iff, own] at there
    exact away (only c member there).2

/-- A node is gone when its only connection is. -/
theorem removed_iff {connection : Nat} {info : NodeInfo} :
    (r.removeConnection id connection).2 = some info ↔
      r.info? id = some info ∧ connectionsTo id channels = [connection] := by
  have listed := keeps.listed id
  have distinct : (connectionsTo id channels).Nodup :=
    keeps.distinct.sublist (List.filter_sublist.map _)
  unfold Roster.removeConnection Roster.info?
  cases known : r.entries.get? id with
  | none => simp
  | some entry =>
    rw [connections_of_known known] at listed
    have emptied : (entry.connections.filter fun c => c.id ≠ connection) = [] ↔
        connectionsTo id channels = [connection] := by
      have open_ := keeps.inhabited known
      rw [listed] at open_ ⊢
      rw [List.filter_map, List.map_eq_nil_iff, List.filter_eq_nil_iff]
      constructor
      · intro only
        have same : ∀ c ∈ connectionsTo id channels, c = connection := by simpa using only
        cases first : connectionsTo id channels with
        | nil => exact absurd (first ▸ rfl) open_
        | cons c others =>
          rw [first] at same distinct
          obtain ⟨rfl, rest⟩ := List.forall_mem_cons.mp same
          cases others with
          | nil => rfl
          | cons d others =>
            exact absurd (rest d List.mem_cons_self ▸ List.mem_cons_self) (List.nodup_cons.mp distinct).1
      · intro one
        simp [one]
    dsimp only
    split
    next empty => simp [emptied.mp (List.isEmpty_iff.mp empty)]
    next left =>
      have several : ¬connectionsTo id channels = [connection] := fun one =>
        left (List.isEmpty_iff.mpr (emptied.mpr one))
      simp [several]

end Keeping

theorem after_append (acts more : List Act) : r.after (acts ++ more) = (r.after acts).after more :=
  List.foldl_append

/-- As long as one connection to a node is the oldest, all lines for the node go out on it, each once and
in the order in which they are sent. -/
theorem sentTo_eq {acts more : List Act} {connection : Nat} (new : fresh [] (acts ++ more) = true)
    (oldest : ∀ n ≤ more.length,
      (connectionsTo id (channelsAfter (acts ++ more.take n))).head? = some connection) :
    (Roster.empty.after acts).sentTo id more =
      ((Roster.empty.after acts).linesFor id more).map (connection, ·) := by
  induction more generalizing acts with
  | nil => rfl
  | cons act more ih =>
    have rest : (Roster.empty.after (acts ++ [act])).sentTo id more =
        ((Roster.empty.after (acts ++ [act])).linesFor id more).map (connection, ·) := by
      refine ih (by rwa [List.append_assoc]) fun n within => ?_
      rw [List.append_assoc]
      exact oldest (n + 1) (Nat.succ_le_succ within)
    rw [after_append] at rest
    cases act with
    | send recipients line =>
      have first : (connectionsTo id (channelsAfter acts)).head? = some connection := by
        have now := oldest 0 (Nat.zero_le _)
        rwa [List.take_zero, List.append_nil] at now
      have before : fresh [] acts = true := by
        rw [fresh_append, Bool.and_eq_true_iff] at new
        exact new.1
      have goes := outlets_to (keeps_after before) first recipients
      rw [sentTo, linesFor, goes, List.map_append]
      refine congrArg₂ _ ?_ rest
      split <;> rfl
    | _ => exact rest

/-- A roster lists the open connections to each node, oldest first, and a node is known as long as there is
one: a connection tells if it is the first, and the last to close gives what was known of the node. A line
goes out once on the oldest connection to each of its recipients, on no other connection, and counts them.
So as long as one connection to a node is the oldest, all lines for that node go out on it, in the order in
which they are sent. -/
theorem lines_go_out_on_oldest_connections {acts : List Act} (new : fresh [] acts = true) :
    let r := Roster.empty.after acts
    let oldest? (id : String) := (connectionsTo id (channelsAfter acts)).head?
    (∀ id, r.connections id = (connectionsTo id (channelsAfter acts)).map (⟨·, true⟩)) ∧
    (∀ id, r.hasNode id = true ↔ connectionsTo id (channelsAfter acts) ≠ []) ∧
    (∀ info connection, (r.addConnection info connection).2 = !r.hasNode info.nodeId) ∧
    (∀ id connection info, (r.removeConnection id connection).2 = some info ↔
      r.info? id = some info ∧ connectionsTo id (channelsAfter acts) = [connection]) ∧
    (∀ recipients, (r.outlets recipients).Nodup ∧
      (∀ connection, connection ∈ r.outlets recipients ↔
        ∃ id, r.reaches recipients id = true ∧ oldest? id = some connection) ∧
      (r.outlets recipients).length = (r.nodeIds.filter (r.reaches recipients)).length) ∧
    (∀ id, r.sendTo id = match oldest? id with
      | some connection => .ok connection
      | none => .error (.unknownNode id)) ∧
    ∀ more id connection, fresh [] (acts ++ more) = true →
      (∀ n ≤ more.length,
        (connectionsTo id (channelsAfter (acts ++ more.take n))).head? = some connection) →
      r.sentTo id more = (r.linesFor id more).map (connection, ·) := by
  intro r oldest?
  have keeps : Keeps r (channelsAfter acts) := keeps_after new
  refine ⟨keeps.listed, fun id => hasNode_iff keeps, fun info connection => ?_,
    fun id connection info => removed_iff keeps, fun recipients => ?_, sendTo_eq keeps,
    fun more id connection later oldest => sentTo_eq later oldest⟩
  · unfold Roster.addConnection Roster.hasNode Table.contains
    cases r.entries.get? info.nodeId <;> rfl
  · have counted := congrArg List.length (outlets_eq keeps recipients)
    rw [List.length_map, List.length_map] at counted
    exact ⟨nodup_outlets keeps recipients, fun connection => mem_outlets keeps, counted⟩

private def guest (id : String) : NodeInfo := ⟨id, "guest", "host", none, Table.empty, Table.empty⟩

private def arrivals : List Act := [.connect (guest "ada") 1, .connect (guest "bob") 2,
  .connect (guest "ada") 3, .setGroup "ada" "town" true, .disconnect "ada" 1]

private def talk : List Act := [.send .everyone "hello", .connect (guest "ada") 1,
  .send (.members "town") "news", .send (.node "bob") "aside", .send (.node "ada") "goodbye"]

theorem ada_hears_on_her_oldest_connection :
    (Roster.empty.after arrivals).connections "ada" = [⟨3, true⟩] ∧
    ((Roster.empty.after arrivals).addConnection (guest "ada") 1).2 = false ∧
    ((Roster.empty.after arrivals).removeConnection "ada" 1).2 = none ∧
    ((Roster.empty.after arrivals).removeConnection "bob" 2).2 = some (guest "bob") ∧
    ((Roster.empty.after arrivals).outlets .everyone).length = 2 ∧
    (Roster.empty.after arrivals).sendTo "ada" = .ok 3 ∧
    (Roster.empty.after arrivals).sendTo "eve" = .error (.unknownNode "eve") ∧
    (Roster.empty.after arrivals).sentTo "ada" talk = [(3, "hello"), (3, "news"), (3, "goodbye")] := by
  have new : fresh [] arrivals = true := by decide +kernel
  have later : fresh [] (arrivals ++ talk) = true := by decide +kernel
  have oldest : ∀ n ≤ talk.length,
      (connectionsTo "ada" (channelsAfter (arrivals ++ talk.take n))).head? = some 3 := by
    decide +kernel
  obtain ⟨listed, there, first, closes, goes, sends, travels⟩ := lines_go_out_on_oldest_connections new
  have known : (Roster.empty.after arrivals).hasNode "ada" = true := (there "ada").mpr (by decide +kernel)
  refine ⟨(listed "ada").trans (by decide +kernel), ?_, ?_, ?_, ?_, (sends "ada").trans (by decide +kernel),
    (sends "eve").trans (by decide +kernel), (travels talk "ada" 3 later oldest).trans (by decide +kernel)⟩
  · have known : (Roster.empty.after arrivals).hasNode (guest "ada").nodeId = true := known
    rw [first, known]
    rfl
  · refine Option.eq_none_iff_forall_ne_some.mpr fun info removed => ?_
    have only := ((closes "ada" 1 info).mp removed).2
    exact absurd only (by decide +kernel)
  · exact (closes "bob" 2 _).mpr (by decide +kernel)
  · exact (goes .everyone).2.2.trans (by decide +kernel)

end Proofs.FanOut
end PeerMesh
