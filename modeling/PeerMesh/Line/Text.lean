import PeerMesh.Json.Document
import PeerMesh.Line.Basic
import PeerMesh.Text.Blank

/-! Presence lines as JSON text. -/

namespace PeerMesh.Line
open Json (Document)

def strings (texts : List String) : Json := .array (texts.map .string)

def tagged (keyword : String) (fields : List (String × Json)) : Json :=
  .object [(keyword, .object fields)]

/-- A hello with its headers as they are listed. -/
def helloJson (h : Hello) (headers : List (String × String)) : Json := tagged "HELLO" [
  ("node_id", .string h.nodeId),
  ("name", .string h.name),
  ("listen_addr", Json.optionalText h.listenAddress),
  ("protocol", Json.optionalText h.protocol),
  ("version", Json.optionalText h.version),
  ("headers", .object (headers.map fun e => (e.1, .string e.2))),
  ("groups", strings h.groups)]

def kindJson : LineKind → Json
  | .hello h => helloJson h h.headers.entries
  | .join group => tagged "JOIN" [("group", .string group)]
  | .leave group => tagged "LEAVE" [("group", .string group)]
  | .whisper => .string "WHISPER"
  | .shout group => tagged "SHOUT" [("group", .string group)]
  | .peerList peers => tagged "PEER_LIST" [("peers", .array (peers.map fun p =>
      .object [("node_id", .string p.nodeId), ("addr", .string p.address)]))]
  | .heartbeat => .string "HEARTBEAT"
  | .disconnect => .string "DISCONNECT"

def payloadJson : Payload → Json
  | .text s => .object [("type", .string "Text"), ("value", .string s)]
  | .frames digits => .object [("type", .string "Frames"), ("value", strings digits)]

/-- A line whose kind is written so. -/
def jsonOf (l : Line) (kind : Json) : Json :=
  .object [("from", .string l.sender), ("msg_type", kind),
    ("payload", match l.payload with
      | some payload => payloadJson payload
      | none => .null)]

def toJson (l : Line) : Json := l.jsonOf (kindJson l.kind)

/-- The line's text, without a line end. -/
def toText (l : Line) : String := l.toJson.compact

def readOptional? : Document → Option (Option String)
  | .null => some none
  | document => document.text?.map some

def readHeader? : Option String × Document → Option (String × String)
  | (some key, value) => value.text?.map fun text => (key, text)
  | (none, _) => none

/-- The members of an object of texts; of several with one key the last counts. -/
def readHeaders? : Document → Option (Table String)
  | .object members => (members.mapM readHeader?).map Table.ofList
  | _ => none

def readHello? (content : Document) : Option Hello := do
  let [some nodeId, some name, address, protocol, version, headers, groups] ← content.fields?
    ["node_id", "name", "listen_addr", "protocol", "version", "headers", "groups"] 5 | none
  some {
    nodeId := ← nodeId.text?
    name := ← name.text?
    listenAddress := ← Document.orDefault none readOptional? address
    protocol := ← Document.orDefault none readOptional? protocol
    version := ← Document.orDefault none readOptional? version
    headers := ← Document.orDefault Table.empty readHeaders? headers
    groups := ← Document.orDefault [] (Document.list? Document.text?) groups }

def readGroup? (content : Document) : Option String := do
  let [some group] ← content.fields? ["group"] 1 | none
  group.text?

def readNodeAddress? (content : Document) : Option NodeAddress := do
  let [some nodeId, some address] ← content.fields? ["node_id", "addr"] 2 | none
  some ⟨← nodeId.text?, ← address.text?⟩

def readPeers? (content : Document) : Option (List NodeAddress) := do
  let [some peers] ← content.fields? ["peers"] 1 | none
  peers.list? readNodeAddress?

def isNull : Document → Bool
  | .null => true
  | _ => false

def readKind? (document : Document) : Option LineKind := do
  let (keyword, content) ← document.choice?
  if keyword = "HELLO" then (readHello? content).map .hello
  else if keyword = "JOIN" then (readGroup? content).map .join
  else if keyword = "LEAVE" then (readGroup? content).map .leave
  else if keyword = "SHOUT" then (readGroup? content).map .shout
  else if keyword = "PEER_LIST" then (readPeers? content).map .peerList
  else if !isNull content then none
  else if keyword = "WHISPER" then some .whisper
  else if keyword = "HEARTBEAT" then some .heartbeat
  else if keyword = "DISCONNECT" then some .disconnect
  else none

def readPayload? : Document → Option (Option Payload)
  | .null => some none
  | document => do
    let [some type, some value] ← document.fields? ["type", "value"] 2 | none
    let (keyword, content) ← type.choice?
    if !isNull content then none
    else if keyword = "Text" then value.text?.map fun text => some (.text text)
    else if keyword = "Frames" then
      (value.list? Document.text?).map fun frames => some (.frames frames)
    else none

def ofDocument? (document : Document) : Option Line := do
  let [some sender, some kind, payload] ← document.fields? ["from", "msg_type", "payload"] 3 | none
  some {
    sender := ← sender.text?
    kind := ← readKind? kind
    payload := ← Document.orDefault none readPayload? payload }

/-- Reads a line; blank characters at its end do not count. -/
def ofText? (text : String) : Option Line :=
  (Document.ofText? (Text.trimmedEnd text)).bind ofDocument?

end PeerMesh.Line
