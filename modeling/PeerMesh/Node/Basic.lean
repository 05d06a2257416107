import PeerMesh.Address.Text
import PeerMesh.Config
import PeerMesh.Hub
import PeerMesh.Line.Text
import PeerMesh.Roster
import PeerMesh.Version

/-! Nodes that are connected to each other by streams of lines. Each accepts connections and dials
others. On every connection both introduce themselves before anything else; a node is known to the
others from its first connection to its last. -/

namespace PeerMesh

/-- How far a connection has come. -/
inductive LinkState where
  /-- The other's introduction is awaited. If this node dialed, its own is held back till then. -/
  | greeting (held : Option Line)
  /-- The other has introduced itself. -/
  | session (nodeId name : String)
  deriving DecidableEq

structure Link where
  connection : Nat
  /-- Where the other was seen. -/
  remote : IpAddress
  state : LinkState
  deriving DecidableEq

/-- What a node has while it runs. Its name and headers are those with which it started. -/
structure NodeRun where
  name : String
  headers : Table String
  port : Nat
  roster : Roster
  links : List Link
  deriving DecidableEq

structure Node where
  id : String
  settings : NodeSettings
  name : String
  headers : Table String
  groups : NameSet
  run : Option NodeRun
  deriving DecidableEq

inductive NodeEffect where
  | event (event : Presence.Event)
  | send (connection : Nat) (line : Line)
  | close (connection : Nat)
  | dial (address : String)
  deriving DecidableEq

structure NodeStep where
  node : Node
  effects : List NodeEffect
  deriving DecidableEq

namespace Node

def new (id : String) (settings : NodeSettings) : Node :=
  ⟨id, settings, Hub.namelessName, Table.empty, Table.empty, none⟩

/-- The host as others on it record it: a node that announces no address of its own is seen on the
loopback address. -/
def hostAddress (n : Node) : String :=
  match IpAddress.ofText? n.settings.advertisedIp with
  | some ip => if ip.isUnspecified then Hub.loopback else n.settings.advertisedIp
  | none => n.settings.advertisedIp

/-- Where others reach the node, once it has started. -/
def listenAddress? (n : Node) : Option String :=
  n.run.map fun run => s!"{n.hostAddress}:{run.port}"

def announcedAddress (n : Node) (port : Nat) : String := s!"{n.settings.advertisedIp}:{port}"

def line (n : Node) (kind : LineKind) : Line := ⟨n.id, kind, none⟩

/-- How the node introduces itself, with the groups that it is in by now. -/
def introduction (n : Node) (run : NodeRun) : Line :=
  n.line (.hello ⟨n.id, run.name, some (n.announcedAddress run.port), some Version.protocolName,
    some Version.protocol, run.headers, n.groups.toList⟩)

def idle (n : Node) : NodeStep := ⟨n, []⟩

/-- Sends a line on each of some connections. -/
def sendOn (connections : List Nat) (line : Line) : List NodeEffect :=
  connections.map fun connection => .send connection line

def setRun (n : Node) (run : NodeRun) : Node := { n with run := some run }

end Node

namespace NodeRun

def link? (run : NodeRun) (connection : Nat) : Option Link :=
  run.links.find? fun link => link.connection = connection

def addLink (run : NodeRun) (link : Link) : NodeRun := { run with links := run.links ++ [link] }

def setState (run : NodeRun) (connection : Nat) (state : LinkState) : NodeRun :=
  { run with links := run.links.map fun link =>
      if link.connection = connection then { link with state := state } else link }

def dropLink (run : NodeRun) (connection : Nat) : NodeRun :=
  { run with links := run.links.filter fun link => link.connection ≠ connection }

end NodeRun
end PeerMesh
