import PeerMesh.Line.Basic

/-! The nodes that are connected to this one. A node may hold several connections at a time; lines
for it go out on the oldest, so that they keep their order. A node is there from its first
connection to its last. -/

namespace PeerMesh

/-- What a node told of itself, with the groups it is in by now. -/
structure NodeInfo where
  nodeId : String
  name : String
  address : String
  listenAddress : Option String
  headers : Table String
  groups : NameSet
  deriving DecidableEq

/-- A connection and whether its writer still takes lines. -/
structure Connection where
  id : Nat
  isOpen : Bool
  deriving DecidableEq, Repr

structure RosterEntry where
  info : NodeInfo
  /-- Oldest first. -/
  connections : List Connection
  deriving DecidableEq

inductive SendFault where
  | unknownNode (id : String)
  | noConnection (id : String)
  | writerClosed (id : String)
  deriving DecidableEq, Repr

def SendFault.message : SendFault → String
  | .unknownNode id => s!"unknown node {id}"
  | .noConnection id => s!"no connection to {id}"
  | .writerClosed id => s!"writer for {id} closed"

structure Roster where
  entries : Table RosterEntry
  deriving DecidableEq

namespace Roster

def empty : Roster := ⟨Table.empty⟩

/-- Registers a connection, and tells whether it is the node's first. A later one changes nothing of
what is known of the node. -/
def addConnection (r : Roster) (info : NodeInfo) (connection : Nat) : Roster × Bool :=
  let new : Connection := ⟨connection, true⟩
  match r.entries.get? info.nodeId with
  | some entry =>
    let more := { entry with connections := entry.connections ++ [new] }
    (⟨r.entries.insert info.nodeId more⟩, false)
  | none => (⟨r.entries.insert info.nodeId ⟨info, [new]⟩⟩, true)

def removeConnection (r : Roster) (nodeId : String) (connection : Nat) : Roster × Option NodeInfo :=
  match r.entries.get? nodeId with
  | none => (r, none)
  | some entry =>
    let left := entry.connections.filter fun c => c.id ≠ connection
    if left.isEmpty then (⟨r.entries.erase nodeId⟩, some entry.info)
    else (⟨r.entries.insert nodeId { entry with connections := left }⟩, none)

def closeWriter (r : Roster) (connection : Nat) : Roster :=
  ⟨r.entries.mapValues fun _ entry =>
    { entry with connections := entry.connections.map fun c =>
        if c.id = connection then { c with isOpen := false } else c }⟩

def hasNode (r : Roster) (nodeId : String) : Bool := r.entries.contains nodeId

def infos (r : Roster) : List NodeInfo := r.entries.values.map (·.info)

def hasListenAddress (r : Roster) (address : String) : Bool :=
  r.infos.any fun i => i.listenAddress == some address

def nodeIds (r : Roster) : List String := r.entries.keys

def info? (r : Roster) (nodeId : String) : Option NodeInfo := (r.entries.get? nodeId).map (·.info)

def listenAddresses (r : Roster) : List NodeAddress :=
  r.infos.filterMap fun i => i.listenAddress.map fun address => ⟨i.nodeId, address⟩

/-- Notes that a node joined or left a group, and returns its name if that is a change. -/
def setGroup (r : Roster) (nodeId group : String) (joined : Bool) : Roster × Option String :=
  match r.entries.get? nodeId with
  | none => (r, none)
  | some entry =>
    if entry.info.groups.contains group = joined then (r, none)
    else
      let groups := if joined then entry.info.groups.add group else entry.info.groups.erase group
      let changed := { entry with info := { entry.info with groups := groups } }
      (⟨r.entries.insert nodeId changed⟩, some entry.info.name)

/-- The connection that a line for a node goes out on. -/
def sendTo (r : Roster) (nodeId : String) : Except SendFault Nat :=
  match r.entries.get? nodeId with
  | none => .error (.unknownNode nodeId)
  | some entry =>
    match entry.connections with
    | [] => .error (.noConnection nodeId)
    | first :: _ => if first.isOpen then .ok first.id else .error (.writerClosed nodeId)

/-- The oldest connection of an entry, if it takes lines. -/
def RosterEntry.outlet? (entry : RosterEntry) : Option Nat :=
  match entry.connections with
  | first :: _ => if first.isOpen then some first.id else none
  | [] => none

/-- The connections that a line for every node goes out on. -/
def broadcast (r : Roster) : List Nat := r.entries.values.filterMap RosterEntry.outlet?

/-- The connections that a line for the members of a group goes out on. -/
def sendToGroup (r : Roster) (group : String) : List Nat :=
  (r.entries.values.filter fun e => e.info.groups.contains group).filterMap RosterEntry.outlet?

end Roster
end PeerMesh
