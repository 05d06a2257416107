import PeerMesh.DataMessage

/-! Commands: what agents tell each other beside published values. A command has a keyword, and the
kinds here differ in what goes with it. -/

namespace PeerMesh

/-- Commands of a keyword alone. -/
inductive Order where
  | stop
  | clearMapping
  | freeze
  | unfreeze
  | muteAll
  | unmuteAll
  | requestOutputs
  | getCurrentInputs
  | getCurrentParameters
  | saveDefinition
  | saveMapping
  deriving DecidableEq, Repr

namespace Order

def all : List Order :=
  [.stop, .clearMapping, .freeze, .unfreeze, .muteAll, .unmuteAll, .requestOutputs,
    .getCurrentInputs, .getCurrentParameters, .saveDefinition, .saveMapping]

def keyword : Order → String
  | .stop => "STOP"
  | .clearMapping => "CLEAR_MAPPING"
  | .freeze => "FREEZE"
  | .unfreeze => "UNFREEZE"
  | .muteAll => "MUTE_ALL"
  | .unmuteAll => "UNMUTE_ALL"
  | .requestOutputs => "REQUEST_OUPUTS"
  | .getCurrentInputs => "GET_CURRENT_INPUTS"
  | .getCurrentParameters => "GET_CURRENT_PARAMETERS"
  | .saveDefinition => "SAVE_DEFINITION_TO_PATH"
  | .saveMapping => "SAVE_MAPPING_TO_PATH"

end Order

/-- Commands with a text that is not blank: the name of an output or a path. -/
inductive Topic where
  | mute
  | unmute
  | setLogPath
  | setDefinitionPath
  | setMappingPath
  | outputMuted
  | outputUnmuted
  | logFilePath
  | definitionFilePath
  | mappingFilePath
  deriving DecidableEq, Repr

namespace Topic

def all : List Topic :=
  [.mute, .unmute, .setLogPath, .setDefinitionPath, .setMappingPath, .outputMuted, .outputUnmuted,
    .logFilePath, .definitionFilePath, .mappingFilePath]

def keyword : Topic → String
  | .mute => "MUTE"
  | .unmute => "UNMUTE"
  | .setLogPath => "SET_LOG_PATH"
  | .setDefinitionPath => "SET_DEFINITION_PATH"
  | .setMappingPath => "SET_MAPPING_PATH"
  | .outputMuted => "OUTPUT_MUTED"
  | .outputUnmuted => "OUTPUT_UNMUTED"
  | .logFilePath => "LOG_FILE_PATH"
  | .definitionFilePath => "DEFINITION_FILE_PATH"
  | .mappingFilePath => "MAPPING_FILE_PATH"

end Topic

/-- Notices that a flag of the sender is on or off. -/
inductive Flag where
  | muted
  | frozen
  deriving DecidableEq, Repr

namespace Flag

def all : List Flag := [.muted, .frozen]

def keyword : Flag → String
  | .muted => "MUTED"
  | .frozen => "FROZEN"

end Flag

/-- Commands with a document: the sender's own, or one to be loaded by the receiver. -/
inductive Enclosure where
  | externalDefinition
  | externalMapping
  | loadDefinition
  | loadMapping
  deriving DecidableEq, Repr

namespace Enclosure

def all : List Enclosure := [.externalDefinition, .externalMapping, .loadDefinition, .loadMapping]

def keyword : Enclosure → String
  | .externalDefinition => "EXTERNAL_DEFINITION"
  | .externalMapping => "EXTERNAL_MAPPING"
  | .loadDefinition => "LOAD_THIS_DEFINITION"
  | .loadMapping => "LOAD_THIS_MAPPING"

end Enclosure

inductive Listing where
  | outputs
  | currentInputs
  | currentParameters
  deriving DecidableEq, Repr

namespace Listing

def all : List Listing := [.outputs, .currentInputs, .currentParameters]

def keyword : Listing → String
  | .outputs => "OUTPUTS"
  | .currentInputs => "CURRENT_INPUTS"
  | .currentParameters => "CURRENT_PARAMETERS"

end Listing

inductive Command where
  | order (order : Order)
  | topic (topic : Topic) (text : String)
  | flag (flag : Flag) (on : Bool)
  | enclosure (enclosure : Enclosure) (document : String)
  | listing (listing : Listing) (values : List DataMessage)
  /-- Write a value, given as text, to a slot. -/
  | set (kind : SlotKind) (name value : String)
  | map (input agent output : String)
  | unmap (input agent output : String)
  /-- The sender's state, in its own words. -/
  | state (text : String)
  /-- Frames that only the hosts of the agents understand. -/
  | bus (frames : List Bytes)
  deriving DecidableEq

namespace Command

def setKeyword : SlotKind → String
  | .input => "SET_INPUT"
  | .output => "SET_OUTPUT"
  | .parameter => "SET_PARAMETER"

def keyword : Command → String
  | .order o => o.keyword
  | .topic t _ => t.keyword
  | .flag f _ => f.keyword
  | .enclosure e _ => e.keyword
  | .listing l _ => l.keyword
  | .set kind _ _ => setKeyword kind
  | .map .. => "MAP"
  | .unmap .. => "UNMAP"
  | .state _ => "STATE"
  | .bus _ => "BUS_MESSAGE"

/-- Whether the command only tells something about its sender. -/
def isNotice : Command → Bool
  | .topic .outputMuted _ | .topic .outputUnmuted _ | .topic .logFilePath _ |
    .topic .definitionFilePath _ | .topic .mappingFilePath _ => true
  | .flag .. | .state _ => true
  | _ => false

end Command
end PeerMesh
