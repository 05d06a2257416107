import PeerMesh.Node.Session

/-! What a node does for its agent. -/

namespace PeerMesh.Node

open Presence (Request Fault)

/-- Starts the node at a port, or fails for the reason that there is none. It dials the configured
nodes other than itself. -/
def start (n : Node) (port : Except String Nat) : Except Fault NodeStep :=
  if n.run.isSome then .error .alreadyStarted
  else match port with
    | .error reason => .error (.bind reason)
    | .ok port =>
      let others := n.settings.bootstrapNodes.filter (· ≠ n.announcedAddress port)
      .ok ⟨n.setRun ⟨n.name, n.headers, port, Roster.empty, []⟩, others.map .dial⟩

/-- Joins or leaves a group. The other nodes are told if that makes a difference. -/
def setGroup (n : Node) (run : NodeRun) (group : String) (joined : Bool) : NodeStep :=
  if n.groups.contains group = joined then n.idle
  else
    let groups := if joined then n.groups.add group else n.groups.erase group
    let line := n.line (if joined then .join group else .leave group)
    ⟨{ n with groups := groups }, sendOn run.roster.broadcast line⟩

def whisper (n : Node) (run : NodeRun) (peer : String) (frames : List Bytes) :
    Except Fault NodeStep :=
  if run.roster.hasNode peer then
    match run.roster.sendTo peer with
    | .ok connection =>
      .ok ⟨n, [.send connection ⟨n.id, .whisper, some (.ofFrames frames)⟩]⟩
    | .error fault => .error (.send fault.message)
  else .error (.unknownPeer peer)

def shout (n : Node) (run : NodeRun) (group : String) (frames : List Bytes) : NodeStep :=
  ⟨n, sendOn (run.roster.sendToGroup group) ⟨n.id, .shout group, some (.ofFrames frames)⟩⟩

/-- Takes leave of all nodes, closes every connection and leaves every group. -/
def stop (n : Node) (run : NodeRun) : NodeStep :=
  ⟨{ n with run := none, groups := Table.empty },
    sendOn run.roster.broadcast (n.line .disconnect) ++
      run.links.map fun link => .close link.connection⟩

/-- What the agent asks for. A node that is asked to start gets the given port. -/
def request (n : Node) (port : Except String Nat) (asked : Request) : Except Fault NodeStep :=
  match asked, n.run with
  | .setName name, _ => .ok { n with name := name }.idle
  | .setHeader key value, _ => .ok { n with headers := n.headers.insert key value }.idle
  | .start, _ => n.start port
  | .stop, some run => .ok (n.stop run)
  | .stop, none => .ok n.idle
  | _, none => .error .notStarted
  | .join group, some run => .ok (n.setGroup run group true)
  | .leave group, some run => .ok (n.setGroup run group false)
  | .whisper peer frames, some run => n.whisper run peer frames
  | .shout group frames, some run => .ok (n.shout run group frames)

end PeerMesh.Node
