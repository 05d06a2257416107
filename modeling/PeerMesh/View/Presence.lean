import PeerMesh.Directory
import PeerMesh.Line.Text
import PeerMesh.Presence
import PeerMesh.Roster
import PeerMesh.View.Basic

/-! Views of what nodes tell of each other: their events and lines, and what is known of them. -/

namespace PeerMesh

instance : View Peer := ⟨fun p => .object
  [("id", view p.id), ("name", view p.name), ("address", view p.address),
    ("headers", view p.headers), ("reconnections", view p.reconnections),
    ("joined", view p.joined), ("groups", view p.groups), ("muted", view p.muted),
    ("frozen", view p.frozen), ("state", view p.state), ("muted_outputs", view p.mutedOutputs),
    ("log_file_path", view p.logFilePath), ("definition_path", view p.definitionPath),
    ("mapping_path", view p.mappingPath)]⟩

instance : View EnterOutcome := ⟨fun outcome =>
  match outcome with
  | .new => view "New"
  | .reconnected count => view [view "Reconnected", view count]⟩

instance : View ExitOutcome := ⟨fun outcome =>
  match outcome with
  | .unknown => view "Unknown"
  | .decremented count => view [view "Decremented", view count]
  | .removed peer => view [view "Removed", view peer]⟩

/-- What follows from a peer's headers, and one header of them. -/
def Peer.facts (p : Peer) (header : String) : Json := .object
  [("port", view p.publisherPort?), ("ipc", view p.ipcPath?),
    ("can_be_frozen", view p.canBeFrozen), ("display", view p.display),
    ("header", view (p.header? header))]

instance : View NodeInfo := ⟨fun i => .object
  [("node_id", view i.nodeId), ("name", view i.name), ("address", view i.address),
    ("listen_addr", view i.listenAddress), ("headers", view i.headers), ("groups", view i.groups)]⟩

instance : View NodeAddress := ⟨fun a => view [a.nodeId, a.address]⟩

namespace Presence

def Event.keyword : Event → String
  | .enter .. => "ENTER"
  | .exit .. => "EXIT"
  | .join .. => "JOIN"
  | .leave .. => "LEAVE"
  | .whisper .. => "WHISPER"
  | .shout .. => "SHOUT"

def Event.name : Event → String
  | .enter _ name .. | .exit _ name | .join _ name _ | .leave _ name _ | .whisper _ name _ |
    .shout _ name .. => name

instance : View Event := ⟨fun e =>
  let more : List (String × Json) := match e with
    | .enter _ _ address headers => [("address", view address), ("headers", view headers)]
    | .exit .. => []
    | .join _ _ group | .leave _ _ group => [("group", view group)]
    | .whisper _ _ frames => [("frames", view frames)]
    | .shout _ _ group frames => [("group", view group), ("frames", view frames)]
  .object (("e", view e.keyword) :: ("peer", view e.peer) :: ("name", view e.name) :: more)⟩

def Request.keyword : Request → String
  | .setName _ => "set_name"
  | .setHeader .. => "set_header"
  | .start => "start"
  | .join _ => "join"
  | .leave _ => "leave"
  | .whisper .. => "whisper"
  | .shout .. => "shout"
  | .stop => "stop"

/-- The group or the peer that a request is about. -/
def Request.target : Request → String
  | .join group | .leave group | .shout group _ => group
  | .whisper peer _ => peer
  | _ => ""

/-- The request as it is shown where the facts of a process are of no interest. -/
def Request.masked : Request → Request
  | .setHeader key value => .setHeader key (if key = Header.canBeFrozen.key then value else "*")
  | asked => asked

instance : View Request := ⟨fun r =>
  let more : List Json := match r with
    | .setName name => [view name]
    | .setHeader key value => [view key, view value]
    | .start | .stop => []
    | .join group | .leave group => [view group]
    | .whisper target frames | .shout target frames => [view target, view frames]
  .array (view r.keyword :: more)⟩

end Presence

/-- Reads what is asked of a node; a whisper goes to the given peer. -/
def Json.request? (j : Json) (peer : String) : Option Presence.Request :=
  let group := (j.get "group").text
  let frames := (j.get "frames").frames
  match (j.get "do").text with
  | "set_name" => some (.setName (j.get "name").text)
  | "set_header" => some (.setHeader (j.get "key").text (j.get "value").text)
  | "start" => some .start
  | "join" => some (.join group)
  | "leave" => some (.leave group)
  | "whisper" => some (.whisper peer frames)
  | "shout" => some (.shout group frames)
  | "stop" => some .stop
  | _ => none

def Json.presenceEvent (j : Json) : Presence.Event :=
  let peer := (j.get "peer").text
  let name := (j.get "name").text
  let group := (j.get "group").text
  let frames := (j.get "frames").frames
  match (j.get "e").text with
  | "ENTER" => .enter peer name (j.get "address").text (j.get "headers").headers
  | "JOIN" => .join peer name group
  | "LEAVE" => .leave peer name group
  | "WHISPER" => .whisper peer name frames
  | "SHOUT" => .shout peer name group frames
  | _ => .exit peer name

instance : View LineKind := ⟨fun kind =>
  let (keyword, more) : String × List (String × Json) := match kind with
    | .hello h => ("HELLO", [("node_id", view h.nodeId), ("name", view h.name),
        ("listen_addr", view h.listenAddress), ("protocol", view h.protocol),
        ("version", view h.version), ("headers", view h.headers), ("groups", view h.groups)])
    | .join group => ("JOIN", [("group", view group)])
    | .leave group => ("LEAVE", [("group", view group)])
    | .shout group => ("SHOUT", [("group", view group)])
    | .whisper => ("WHISPER", [])
    | .peerList peers => ("PEER_LIST", [("peers", view peers)])
    | .heartbeat => ("HEARTBEAT", [])
    | .disconnect => ("DISCONNECT", [])
  .object (("type", view keyword) :: more)⟩

/-- A line with what it carries and how it is written. A line with two headers or more can be
written in several orders, and is not shown as it is written. -/
def Line.overview (l : Line) : List (String × Json) :=
  let frames := match l.payload with
    | none => .null
    | some payload => (payload.toFrames?.map view).getD (view "undecodable")
  let ordered : Bool := match l.kind with
    | .hello h => h.headers.size ≤ 1
    | _ => true
  [("from", view l.sender), ("body", view l.kind), ("frames", frames),
    ("line", if ordered then view l.toText else .null)]

def Json.nodeInfo (j : Json) : NodeInfo where
  nodeId := (j.get "node").text
  name := (j.get "name").text
  address := (j.get "address").text
  listenAddress := j.text? "listen"
  headers := (j.get "headers").headers
  groups := NameSet.ofList ((j.get "groups").items.map Json.text)

/-- Reads a line from the view of its kind together with its sender and what it carries. -/
def Json.line (j : Json) : Line :=
  let group := (j.get "group").text
  let kind : LineKind := match (j.get "type").text with
    | "HELLO" => .hello ⟨(j.get "node_id").text, (j.get "name").text, j.text? "listen_addr",
        j.text? "protocol", j.text? "version", (j.get "headers").headers,
        (j.get "groups").items.map Json.text⟩
    | "JOIN" => .join group
    | "LEAVE" => .leave group
    | "SHOUT" => .shout group
    | "PEER_LIST" => .peerList ((j.get "peers").items.map fun p =>
        ⟨(p.item 0).text, (p.item 1).text⟩)
    | "HEARTBEAT" => .heartbeat
    | "DISCONNECT" => .disconnect
    | _ => .whisper
  let payload := match j.get "frames" with
    | .null => (j.text? "text").map Payload.text
    | frames => some (Payload.ofFrames frames.frames)
  ⟨(j.get "from").text, kind, payload⟩

end PeerMesh
