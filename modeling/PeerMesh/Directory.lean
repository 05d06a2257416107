import PeerMesh.Table
import PeerMesh.Text.Integer

/-! The peers an agent knows. Each is held under its id, with what it announced when it entered and
what it has told since. A peer that enters again while it is known is counted, and only as many
exits remove it. -/

namespace PeerMesh

/-- The group in which agents exchange commands. -/
def privateChannel : String := "AGENTMESH_PRIVATE"

/-- What nodes announce under a fixed key. -/
inductive Header where
  | publisher
  | ipc
  | canBeFrozen
  | pid
  | commandLine
  | hostName
  deriving DecidableEq, Repr

def Header.key : Header → String
  | .publisher => "publisher"
  | .ipc => "ipc"
  | .canBeFrozen => "canBeFrozen"
  | .pid => "pid"
  | .commandLine => "commandline"
  | .hostName => "hostname"

structure Peer where
  id : String
  name : String
  address : String
  headers : Table String
  /-- How many times it entered again without an exit. -/
  reconnections : Nat
  /-- Whether it is in the private channel. -/
  joined : Bool
  groups : NameSet
  muted : Bool
  frozen : Bool
  state : Option String
  mutedOutputs : NameSet
  logFilePath : Option String
  definitionPath : Option String
  mappingPath : Option String
  deriving DecidableEq

namespace Peer

def new (id name address : String) (headers : Table String) : Peer where
  id := id
  name := name
  address := address
  headers := headers
  reconnections := 0
  joined := false
  groups := Table.empty
  muted := false
  frozen := false
  state := none
  mutedOutputs := Table.empty
  logFilePath := none
  definitionPath := none
  mappingPath := none

def header? (p : Peer) (key : String) : Option String := p.headers.get? key

def publisherPort? (p : Peer) : Option Nat :=
  (p.header? Header.publisher.key).bind (Text.natural? 65535)

def ipcPath? (p : Peer) : Option String := p.header? Header.ipc.key

def canBeFrozen (p : Peer) : Bool := p.header? Header.canBeFrozen.key == some "1"

def display (p : Peer) : String := s!"Peer[id: {p.id}, name: {p.name}, address: {p.address}]"

def setGroup (p : Peer) (group : String) (joined : Bool) : Peer :=
  { p with
    groups := if joined then p.groups.add group else p.groups.erase group
    joined := if group = privateChannel then joined else p.joined }

end Peer

inductive EnterOutcome where
  | new
  | reconnected (count : Nat)
  deriving DecidableEq, Repr

inductive ExitOutcome where
  | unknown
  /-- One of several entries was taken back; so many are left beside the first. -/
  | decremented (count : Nat)
  | removed (peer : Peer)
  deriving DecidableEq

structure Directory where
  peers : Table Peer
  deriving DecidableEq

namespace Directory

def empty : Directory := ⟨Table.empty⟩

def get? (d : Directory) (id : String) : Option Peer := d.peers.get? id

def set (d : Directory) (peer : Peer) : Directory := ⟨d.peers.insert peer.id peer⟩

def modify (d : Directory) (id : String) (change : Peer → Peer) : Directory :=
  ⟨d.peers.modify id change⟩

/-- The peer with this id, or else the first with this name. -/
def find? (d : Directory) (idOrName : String) : Option Peer :=
  (d.get? idOrName).or (d.peers.values.find? fun p => p.name == idOrName)

def enter (d : Directory) (id name address : String) (headers : Table String) :
    Directory × EnterOutcome :=
  match d.get? id with
  | some p =>
    let again := { p with reconnections := p.reconnections + 1 }
    (⟨d.peers.insert id again⟩, .reconnected again.reconnections)
  | none => (⟨d.peers.insert id (Peer.new id name address headers)⟩, .new)

def exit (d : Directory) (id : String) : Directory × ExitOutcome :=
  match d.get? id with
  | none => (d, .unknown)
  | some p =>
    if 0 < p.reconnections then
      let fewer := { p with reconnections := p.reconnections - 1 }
      (⟨d.peers.insert id fewer⟩, .decremented fewer.reconnections)
    else (⟨d.peers.erase id⟩, .removed p)

/-- Notes that a peer joined or left a group, and tells whether it thereby came into the private
channel or went out of it. -/
def group (d : Directory) (id group : String) (joined : Bool) : Directory × Bool :=
  match d.get? id with
  | none => (d, false)
  | some p => (⟨d.peers.insert id (p.setGroup group joined)⟩,
      group = privateChannel && p.joined != joined)

/-- The ids of the peers in the private channel, which get all announcements. -/
def joinedIds (d : Directory) : List String :=
  (d.peers.entries.filter fun e => e.2.joined).map (·.1)

end Directory
end PeerMesh
