import PeerMesh.CommandLine.Arguments
import PeerMesh.Host.Basic

/-! How the program gets ready: it reads its configuration and the documents of its agent, and says
what it has found. -/

namespace PeerMesh.CommandLine

/-- What stands before lines that have no sign of their own. -/
def indent : String := "   "

structure Launch where
  /-- The agent's name as it was given. -/
  name : String
  host : Host
  node : NodeSettings

/-- What has been printed while getting ready, and what has come of it. -/
structure Preparation where
  printed : List String
  launch : Except String Launch

namespace Arguments

def configPath (a : Arguments) : String := a.config.getD "config.toml"

def readConfig (a : Arguments) (files : Files) : Option (Config × Bool) :=
  Config.ofFile (files.read a.configPath).toOption

def definitionPath (a : Arguments) (config : Config) : Option String :=
  a.definition.or config.definitionPath

def mappingPath (a : Arguments) (config : Config) : Option String := a.mapping.or config.mappingPath

/-- What the arguments leave of the node's settings. -/
def nodeSettings (a : Arguments) (config : Config) : NodeSettings :=
  let settings := config.nodeSettings
  { settings with
    port := a.port.getD settings.port
    bootstrapNodes := settings.bootstrapNodes ++ a.bootstrap }

end Arguments

def configLine (path : String) (found : Bool) : String :=
  if found then s!"{indent}Loaded config from: {path}"
  else s!"⚠️ No config file found at '{path}', falling back to default config."

def failure (message : String) : String := s!"❌ {message}"

def loadDocument (h : Host) (files : Files) (document : Document) (kind : String) :
    Option String → Except String Host
  | none => .ok h
  | some path =>
    match h.loadFile files document path with
    | .ok step => .ok step.host
    | .error fault => .error (failure s!"Failed to load {kind} '{path}': {fault.message}")

def prepare (a : Arguments) (files : Files) (nodeId : String) : Preparation :=
  match a.readConfig files with
  | none => ⟨[], .error (failure (Config.faultPrefix a.configPath ++ "TOML parse error"))⟩
  | some (config, found) =>
    let name := a.name.getD config.agentName
    let launch := do
      let host := Host.new name config nodeId
      let host ← loadDocument host files .definition "definition" (a.definitionPath config)
      let host ← loadDocument host files .mapping "mapping" (a.mappingPath config)
      pure ⟨name, host, a.nodeSettings config⟩
    ⟨[configLine a.configPath found], launch⟩

end PeerMesh.CommandLine
