import PeerMesh.Agent.Fault
import PeerMesh.Command.Frames
import PeerMesh.Multipart.Stream
import PeerMesh.Roster
import PeerMesh.View.Basic

/-! Views of faults: the kind of a fault and its message. -/

namespace PeerMesh

def View.fault (kind message : String) : Json :=
  .object [("error", view kind), ("message", view message)]

def ModelFault.kind : ModelFault → String
  | .unknownSlot .. => "UnknownIop"
  | .nameClash .. => "NameClash"
  | .conversion .. => "Conversion"
  | .invalidValue .. | .invalidMessage .. => "InvalidValue"
  | .unknownType .. => "UnknownType"
  | .unknownElement .. => "UnknownMappingElement"
  | .ambiguousElement .. => "AmbiguousMappingElement"
  | .valueTooLarge .. => "ValueTooLarge"
  | .emptyName => "EmptyName"
  | .json => "Json"
  | .file .. => "Io"

/-- What is wrong with a JSON text is not shown. -/
instance : View ModelFault := ⟨fun fault =>
  match fault with
  | .json => .object [("error", view fault.kind)]
  | _ => View.fault fault.kind fault.message⟩

instance : View CommandFault := ⟨fun fault =>
  let kind := match fault with
    | .empty => "Empty"
    | .unknown _ => "Unknown"
    | .missingArgument .. => "MissingArgument"
    | .notUtf8 => "NotUtf8"
  View.fault kind fault.message⟩

instance : View Presence.Fault := ⟨fun fault =>
  let kind := match fault with
    | .notStarted => "NotStarted"
    | .alreadyStarted => "AlreadyStarted"
    | .unknownPeer _ => "UnknownPeer"
    | .bind _ => "Bind"
    | .send _ => "Send"
  View.fault kind fault.message⟩

instance : View AgentFault := ⟨fun fault =>
  match fault with
  | .model fault => view fault
  | .alreadyRunning => View.fault "AlreadyRunning" fault.message
  | .notRunning => View.fault "NotRunning" fault.message
  | .publisher _ => View.fault "Publisher" fault.message
  | .presence _ => View.fault "Presence" fault.message
  | .presenceLost => View.fault "Reactor" fault.message
  | .cannotBeFrozen => View.fault "CannotBeFrozen" fault.message
  | .reservedChannel _ => View.fault "ReservedChannel" fault.message
  | .noAnswer => View.fault "QueryTimeout" fault.message⟩

instance : View SendFault := ⟨fun fault => View.fault "Send" fault.message⟩

instance : View MultipartFault := ⟨fun fault => View.fault "Framing" fault.message⟩

instance : View Multipart.StreamFault := ⟨fun fault => View.fault "Framing" fault.message⟩

instance : View Multipart.Received := ⟨fun received =>
  match received with
  | .parts parts => .object [("parts", view parts)]
  | .fault fault => view fault
  | .closed => view "closed"⟩

end PeerMesh
