import PeerMesh.Node.Basic

/-! What a node does with its connections: how they come about, what each line brings, and how they
end. -/

namespace PeerMesh.Node

/-- A connection that another node has dialed. This node introduces itself first. -/
def accepted (n : Node) (connection : Nat) (remote : IpAddress) : NodeStep :=
  match n.run with
  | none => n.idle
  | some run =>
    ⟨n.setRun (run.addLink ⟨connection, remote, .greeting none⟩),
      [.send connection (n.introduction run)]⟩

/-- A connection that this node has dialed. Its introduction, as of now, follows the other's. -/
def dialed (n : Node) (connection : Nat) (remote : IpAddress) : NodeStep :=
  match n.run with
  | none => n.idle
  | some run =>
    (n.setRun (run.addLink ⟨connection, remote, .greeting (some (n.introduction run))⟩)).idle

/-- The host of another node: the one it announces, unless that says nothing or is a loopback
address announced from another host. -/
def hostOf (announced : Option SocketAddress) (remote : IpAddress) : IpAddress :=
  match announced with
  | none => remote
  | some address =>
    if address.ip.isUnspecified || (address.ip.isLoopback && !remote.isLoopback) then remote
    else address.ip

/-- What is recorded of a node that has introduced itself. -/
def recordOf (h : Hello) (remote : IpAddress) : NodeInfo :=
  let announced := h.listenAddress.bind SocketAddress.ofText?
  let host := hostOf announced remote
  { nodeId := h.nodeId
    name := h.name
    address := host.display
    listenAddress := announced.map fun address => SocketAddress.display ⟨host, address.port⟩
    headers := h.headers
    groups := NameSet.ofList h.groups }

/-- Whether a node may be talked to: it is another one and speaks the same protocol. -/
def welcomes (n : Node) (h : Hello) : Bool :=
  h.nodeId ≠ n.id && h.protocol.all (· = Version.protocolName)

/-- What a node that was not known brings about: it enters with its groups, it is told which groups
this node has by now, and everyone is told who is there. -/
def introduce (n : Node) (run : NodeRun) (connection : Nat) (info : NodeInfo) : List NodeEffect :=
  let entered : List NodeEffect :=
    .event (.enter info.nodeId info.name info.address info.headers) ::
      info.groups.toList.map fun group => .event (.join info.nodeId info.name group)
  let ours := n.groups.toList.map fun group => .send connection (n.line (.join group))
  let gossip :=
    if n.settings.gossip then
      sendOn run.roster.broadcast (n.line (.peerList run.roster.listenAddresses))
    else []
  entered ++ ours ++ gossip

def greet (n : Node) (run : NodeRun) (link : Link) (held : Option Line) (h : Hello) : NodeStep :=
  let answer := (held.map (.send link.connection)).toList
  let info := recordOf h link.remote
  let (roster, first) := run.roster.addConnection info link.connection
  let run := { run.setState link.connection (.session h.nodeId h.name) with roster := roster }
  ⟨n.setRun run, answer ++ if first then n.introduce run link.connection info else []⟩

/-- Ends a connection. A node is gone with its last. -/
def finish (n : Node) (run : NodeRun) (link : Link) : NodeStep :=
  let left := run.dropLink link.connection
  match link.state with
  | .greeting _ => ⟨n.setRun left, [.close link.connection]⟩
  | .session nodeId _ =>
    let (roster, gone) := run.roster.removeConnection nodeId link.connection
    let exits := gone.toList.map fun info => NodeEffect.event (.exit info.nodeId info.name)
    ⟨n.setRun { left with roster := roster }, .close link.connection :: exits⟩

def closed (n : Node) (connection : Nat) : NodeStep :=
  match n.run with
  | none => n.idle
  | some run =>
    match run.link? connection with
    | none => n.idle
    | some link => n.finish run link

/-- A node that is told of another dials it, unless it is known or is to dial by itself: of two
nodes that learn of each other, the one with the lower id dials. -/
def shouldDial (n : Node) (run : NodeRun) (other : NodeAddress) : Bool :=
  n.id < other.nodeId && !run.roster.hasNode other.nodeId &&
    !run.roster.hasListenAddress other.address

def regroup (n : Node) (run : NodeRun) (nodeId group : String) (joined : Bool) : NodeStep :=
  let (roster, changed) := run.roster.setGroup nodeId group joined
  let events := changed.toList.map fun name =>
    if joined then NodeEffect.event (.join nodeId name group)
    else NodeEffect.event (.leave nodeId name group)
  ⟨n.setRun { run with roster := roster }, events⟩

/-- A line from a node that has introduced itself. Whispers and shouts without frames are passed
over, and so are shouts to groups in which this node is not. -/
def handleLine (n : Node) (run : NodeRun) (link : Link) (nodeId name : String) (l : Line) :
    NodeStep :=
  let tell (event : List Bytes → Presence.Event) : NodeStep :=
    ⟨n, l.frames?.toList.map fun frames => .event (event frames)⟩
  match l.kind with
  | .hello _ | .heartbeat => n.idle
  | .join group => n.regroup run nodeId group true
  | .leave group => n.regroup run nodeId group false
  | .whisper => tell (.whisper nodeId name)
  | .shout group => if n.groups.contains group then tell (.shout nodeId name group) else n.idle
  | .peerList peers =>
    let dials := peers.filter fun other => n.settings.gossip && n.shouldDial run other
    ⟨n, dials.map fun other => .dial other.address⟩
  | .disconnect => n.finish run link

/-- A line that comes in on a connection. The first has to be an introduction that is welcome; of
later ones, those that cannot be read are passed over. -/
def receive (n : Node) (connection : Nat) (text : String) : NodeStep :=
  match n.run with
  | none => n.idle
  | some run =>
    match run.link? connection with
    | none => n.idle
    | some link =>
      match link.state, Line.ofText? text with
      | .session nodeId name, some l => n.handleLine run link nodeId name l
      | .session _ _, none => n.idle
      | .greeting held, some ⟨_, .hello h, _⟩ =>
        if n.welcomes h then n.greet run link held h else n.finish run link
      | .greeting _, _ => n.finish run link

end PeerMesh.Node
