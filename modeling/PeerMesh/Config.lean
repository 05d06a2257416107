import PeerMesh.Log.Event
import PeerMesh.Subscriber.Basic
import PeerMesh.Toml.Reader

/-! The configuration of an agent, read from a TOML document. Every section and every entry may be
missing; what then holds is said by the functions on `Config`. -/

namespace PeerMesh

structure AgentSection where
  name : Option String
  canBeFrozen : Option Bool
  /-- Whether the process is interrupted when a peer stops the agent. -/
  interruptOnForcedStop : Option Bool
  definitionPath : Option String
  mappingPath : Option String
  deriving DecidableEq, Repr

structure NetworkSection where
  hostIp : Option String
  publisherPort : Option Nat
  enableIpc : Option Bool
  ipcDirectory : Option String
  presencePort : Option Nat
  bootstrapNodes : Option (List String)
  gossip : Option Bool
  deriving DecidableEq, Repr

structure TimingSection where
  broadcastInterval : Option Nat
  outputsRequestDelay : Option Nat
  /-- In seconds. -/
  expiry : Option Nat
  deriving DecidableEq, Repr

structure MappingSection where
  filterPolicy : Option FilterPolicy
  deriving DecidableEq, Repr

structure LoggingSection where
  jsonPath : Option String
  jsonMaxBytes : Option Nat
  jsonRotate : Option Nat
  disableConsole : Option Bool
  disableFile : Option Bool
  consoleLevel : Option Log.Level
  deriving DecidableEq, Repr

structure Config where
  agent : Option AgentSection
  network : Option NetworkSection
  timing : Option TimingSection
  mapping : Option MappingSection
  logging : Option LoggingSection
  deriving DecidableEq, Repr

/-- What a reactor takes from the configuration. Times are in milliseconds. -/
structure ReactorSettings where
  broadcastInterval : Nat
  outputsRequestDelay : Nat
  expiry : Option Nat
  filterPolicy : FilterPolicy
  interruptOnForcedStop : Bool
  /-- Where the publisher's local endpoint is made, if one is wanted. -/
  ipcDirectory : Option String
  allowConsole : Bool
  deriving DecidableEq, Repr

/-- What a presence node takes from the configuration. -/
structure NodeSettings where
  bindIp : String
  advertisedIp : String
  port : Nat
  bootstrapNodes : List String
  gossip : Bool
  allowConsole : Bool
  deriving DecidableEq, Repr

namespace Config

def text? : Toml → Option String
  | .string s => some s
  | _ => none

def bool? : Toml → Option Bool
  | .boolean b => some b
  | _ => none

def natural? (max : Nat) : Toml → Option Nat
  | .integer n => if 0 ≤ n && n ≤ max then some n.toNat else none
  | _ => none

def texts? (value : Toml) : Option (List String) := value.items?.bind (·.mapM text?)

/-- A choice: its name, or a table with the name as its one key over something empty. -/
def choice? : Toml → Option String
  | .string s => some s
  | .table _ [(name, .array [])] => some name
  | .table _ [(name, .table _ [])] => some name
  | _ => none

def policy? (value : Toml) : Option FilterPolicy :=
  match choice? value with
  | some "retain" => some .retain
  | some "prune" => some .prune
  | _ => none

def level? (value : Toml) : Option Log.Level := (choice? value).bind Log.Level.ofName?

/-- The values of a section by the names of its entries: a table, an array with all of them in
order, or a time, which counts as a table without any of them. -/
def entries? (names : List String) (value : Toml) : Option (List (Option Toml)) :=
  match value with
  | .table _ entries => some (names.map fun name => Toml.lookup name entries)
  | .datetime => some (names.map fun _ => none)
  | value =>
    match value.items? with
    | some items =>
      if items.length < names.length then none else some ((items.take names.length).map some)
    | none => none

def optional {α : Type} (read : Toml → Option α) : Option Toml → Option (Option α)
  | none => some none
  | some value => (read value).map some

def maxWord : Nat := 18446744073709551615

def agent? (value : Toml) : Option AgentSection := do
  let [name, freeze, interrupt, definition, mapping] ← entries?
    ["name", "can_be_frozen", "interrupt_on_forced_stop", "definition_path", "mapping_path"] value
    | none
  some {
    name := ← optional text? name
    canBeFrozen := ← optional bool? freeze
    interruptOnForcedStop := ← optional bool? interrupt
    definitionPath := ← optional text? definition
    mappingPath := ← optional text? mapping }

def network? (value : Toml) : Option NetworkSection := do
  let [ip, publisher, ipc, directory, presence, bootstrap, gossip] ← entries?
    ["host_ip", "publisher_port", "enable_ipc", "ipc_dir", "presence_port", "bootstrap_nodes",
      "gossip"] value
    | none
  some {
    hostIp := ← optional text? ip
    publisherPort := ← optional (natural? 65535) publisher
    enableIpc := ← optional bool? ipc
    ipcDirectory := ← optional text? directory
    presencePort := ← optional (natural? 65535) presence
    bootstrapNodes := ← optional texts? bootstrap
    gossip := ← optional bool? gossip }

def timing? (value : Toml) : Option TimingSection := do
  let [interval, delay, expiry] ← entries?
    ["broadcast_interval_ms", "outputs_request_delay_ms", "expiry_secs"] value | none
  some {
    broadcastInterval := ← optional (natural? maxWord) interval
    outputsRequestDelay := ← optional (natural? maxWord) delay
    expiry := ← optional (natural? maxWord) expiry }

def mapping? (value : Toml) : Option MappingSection := do
  let [policy] ← entries? ["filter_policy"] value | none
  some { filterPolicy := ← optional policy? policy }

def logging? (value : Toml) : Option LoggingSection := do
  let [path, size, rotate, console, file, level] ← entries?
    ["json_path", "json_max_bytes", "json_rotate", "disable_console", "disable_file",
      "console_level"] value
    | none
  some {
    jsonPath := ← optional text? path
    jsonMaxBytes := ← optional (natural? maxWord) size
    jsonRotate := ← optional (natural? 4294967295) rotate
    disableConsole := ← optional bool? console
    disableFile := ← optional bool? file
    consoleLevel := ← optional level? level }

def ofEntries? (entries : Toml.Entries) : Option Config := do
  some {
    agent := ← optional agent? (Toml.lookup "agent" entries)
    network := ← optional network? (Toml.lookup "network" entries)
    timing := ← optional timing? (Toml.lookup "timing" entries)
    mapping := ← optional mapping? (Toml.lookup "mapping" entries)
    logging := ← optional logging? (Toml.lookup "logging" entries) }

def empty : Config := ⟨none, none, none, none, none⟩

def ofText? (text : String) : Option Config := (Toml.ofText? text).bind ofEntries?

/-- The configuration of a file with this content. A file that is missing or holds no text counts as
empty, which the second part tells. -/
def ofFile (content : Option Bytes) : Option (Config × Bool) :=
  match content.bind Text.Utf8.decode? with
  | some text => (ofText? text).map fun config => (config, true)
  | none => some (empty, false)

/-- The start of the message about a file that holds no configuration. -/
def faultPrefix (path : String) : String := s!"failed to parse config file '{path}': "

def agentName (c : Config) : String := (c.agent.bind (·.name)).getD "no_name"

def canBeFrozen (c : Config) : Bool := (c.agent.bind (·.canBeFrozen)).getD false

def interruptOnForcedStop (c : Config) : Bool := (c.agent.bind (·.interruptOnForcedStop)).getD true

def definitionPath (c : Config) : Option String := c.agent.bind (·.definitionPath)

def mappingPath (c : Config) : Option String := c.agent.bind (·.mappingPath)

def anyAddress : String := "0.0.0.0"

def hostIp (c : Config) : String := (c.network.bind (·.hostIp)).getD anyAddress

def publisherPort (c : Config) : Nat := (c.network.bind (·.publisherPort)).getD 0

def ipcEnabled (c : Config) : Bool := (c.network.bind (·.enableIpc)).getD true

/-- The directory for local endpoints, inside that for temporary files if none is named. -/
def ipcDirectory (c : Config) (temporary : String) : String :=
  (c.network.bind (·.ipcDirectory)).getD (temporary ++ "/agentmesh")

def presencePort (c : Config) : Nat := (c.network.bind (·.presencePort)).getD 5670

def bootstrapNodes (c : Config) : List String := (c.network.bind (·.bootstrapNodes)).getD []

def gossipEnabled (c : Config) : Bool := (c.network.bind (·.gossip)).getD true

/-- The time between announcements, in milliseconds: at least one. -/
def broadcastInterval (c : Config) : Nat :=
  max 1 ((c.timing.bind (·.broadcastInterval)).getD 1000)

def outputsRequestDelay (c : Config) : Nat := (c.timing.bind (·.outputsRequestDelay)).getD 100

/-- The time after which the agent stops by itself, in milliseconds. -/
def expiry (c : Config) : Option Nat := (c.timing.bind (·.expiry)).map (· * 1000)

def filterPolicy (c : Config) : FilterPolicy := (c.mapping.bind (·.filterPolicy)).getD .retain

def allowConsole (c : Config) : Bool := !(c.logging.bind (·.disableConsole)).getD false

def reactorSettings (c : Config) (temporary : String) : ReactorSettings where
  broadcastInterval := c.broadcastInterval
  outputsRequestDelay := c.outputsRequestDelay
  expiry := c.expiry
  filterPolicy := c.filterPolicy
  interruptOnForcedStop := c.interruptOnForcedStop
  ipcDirectory := if c.ipcEnabled then some (c.ipcDirectory temporary) else none
  allowConsole := c.allowConsole

def nodeSettings (c : Config) : NodeSettings where
  bindIp := anyAddress
  advertisedIp := c.hostIp
  port := c.presencePort
  bootstrapNodes := c.bootstrapNodes
  gossip := c.gossipEnabled
  allowConsole := true

end Config
end PeerMesh
