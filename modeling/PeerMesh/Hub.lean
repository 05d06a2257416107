import PeerMesh.Presence

/-! Hubs: presence for nodes in one process. A node that starts learns of all others that are there,
and they of it; from then on each learns what the others do, in the order in which they do it. -/

namespace PeerMesh

structure Hub.Session where
  name : String
  address : String
  headers : Table String
  groups : NameSet
  /-- Nobody takes the node's events any more. -/
  deaf : Bool
  deriving DecidableEq

/-- A node, whether it has started or not. -/
structure Hub.Member where
  name : String
  address : String
  headers : Table String
  session : Option Hub.Session
  deriving DecidableEq

structure Hub where
  members : Table Hub.Member
  deriving DecidableEq

structure Posting where
  receiver : String
  event : Presence.Event
  deriving DecidableEq

structure HubStep where
  hub : Hub
  postings : List Posting
  deriving DecidableEq

namespace Hub

open Presence (Event Request Fault)

def empty : Hub := ⟨Table.empty⟩

/-- The name of a node that has none of its own. -/
def namelessName : String := "no_name"

def loopback : String := "127.0.0.1"

def Member.new (address : String) : Member := ⟨namelessName, address, Table.empty, none⟩

def add (h : Hub) (id address : String) : Hub := ⟨h.members.insert id (.new address)⟩

def member? (h : Hub) (id : String) : Option Member := h.members.get? id

def session? (h : Hub) (id : String) : Option Session := (h.member? id).bind (·.session)

def sessions (h : Hub) : List (String × Session) :=
  h.members.entries.filterMap fun (id, member) => member.session.map fun session => (id, session)

def nodeCount (h : Hub) : Nat := h.sessions.length

/-- The event by which others get to know a node. -/
def Session.enterEvent (s : Session) (id : String) : Event := .enter id s.name s.address s.headers

def enterEvent? (h : Hub) (id : String) : Option Event :=
  (h.session? id).map fun session => session.enterEvent id

/-- What a node that starts is told of another. -/
def Session.introduction (s : Session) (id : String) : List Event :=
  s.enterEvent id :: s.groups.toList.map fun group => .join id s.name group

/-- Posts an event to those other nodes that are chosen; the deaf get nothing. -/
def post (h : Hub) (sender : String) (chosen : Session → Bool) (event : Event) : List Posting :=
  (h.sessions.filter fun (id, session) => id ≠ sender && !session.deaf && chosen session).map
    fun (id, _) => ⟨id, event⟩

def toAll (_ : Session) : Bool := true

def setMember (h : Hub) (id : String) (member : Member) : Hub := ⟨h.members.insert id member⟩

def postTo (h : Hub) (id : String) (stopped : String) (event : Event) : Except Fault HubStep :=
  match h.session? id with
  | none => .error (.unknownPeer id)
  | some session =>
    if session.deaf then .error (.send s!"{stopped} {id} stopped") else .ok ⟨h, [⟨id, event⟩]⟩

def start (h : Hub) (id : String) (member : Member) : Except Fault HubStep :=
  if member.session.isSome then .error .alreadyStarted
  else
    let session : Session := ⟨member.name, member.address, member.headers, Table.empty, false⟩
    let told := h.sessions.flatMap fun (other, known) =>
      (known.introduction other).map fun event => ⟨id, event⟩
    .ok ⟨h.setMember id { member with session := some session },
      h.post id toAll (session.enterEvent id) ++ told⟩

/-- Changes a node's groups. The others are told if that makes a difference. -/
def setGroup (h : Hub) (id : String) (member : Member) (group : String) (joined : Bool) :
    Except Fault HubStep :=
  match member.session with
  | none => .error .notStarted
  | some session =>
    if session.groups.contains group = joined then .ok ⟨h, []⟩
    else
      let groups := if joined then session.groups.add group else session.groups.erase group
      let event : Event :=
        if joined then .join id member.name group else .leave id member.name group
      let session := { session with groups := groups }
      .ok ⟨h.setMember id { member with session := some session }, h.post id toAll event⟩

def stop (h : Hub) (id : String) (member : Member) : HubStep :=
  if member.session.isSome then
    ⟨h.setMember id { member with session := none }, h.post id toAll (.exit id member.name)⟩
  else ⟨h, []⟩

/-- What a node asks for. A node that nobody has added has not started. -/
def request (h : Hub) (id : String) (asked : Request) : Except Fault HubStep :=
  match h.member? id with
  | none => .error .notStarted
  | some member =>
    match asked with
    | .setName name => .ok ⟨h.setMember id { member with name := name }, []⟩
    | .setHeader key value =>
      .ok ⟨h.setMember id { member with headers := member.headers.insert key value }, []⟩
    | .start => h.start id member
    | .join group => h.setGroup id member group true
    | .leave group => h.setGroup id member group false
    | .whisper peer frames =>
      if member.session.isSome then h.postTo peer "peer" (.whisper id member.name frames)
      else .error .notStarted
    | .shout group frames =>
      if member.session.isSome then
        .ok ⟨h, h.post id (·.groups.contains group) (.shout id member.name group frames)⟩
      else .error .notStarted
    | .stop => .ok (h.stop id member)

/-- Posts an event to a node as if another had brought it about. -/
def inject (h : Hub) (id : String) (event : Event) : Except Fault HubStep :=
  h.postTo id "node" event

/-- Nobody takes a node's events any more, while the others still see it. -/
def deafen (h : Hub) (id : String) : Hub :=
  ⟨h.members.modify id fun member =>
    { member with session := member.session.map fun session => { session with deaf := true } }⟩

/-- A node goes for good. -/
def remove (h : Hub) (id : String) : HubStep :=
  match h.member? id with
  | none => ⟨h, []⟩
  | some member =>
    let step := h.stop id member
    { step with hub := ⟨step.hub.members.erase id⟩ }

end Hub
end PeerMesh
