import PeerMesh.Config
import PeerMesh.View.Basic

/-! The view of a configuration: what holds by it. -/

namespace PeerMesh

/-- Times and sizes are shown in digits, since they may be too great for a JSON number. -/
def View.digits (n : Nat) : Json := view (toString n)

def FilterPolicy.name : FilterPolicy → String
  | .retain => "retain"
  | .prune => "prune"

/-- The given directory is the one for temporary files. -/
def Config.overview (c : Config) (temporary : String) : Json :=
  let settings := c.reactorSettings temporary
  let node := c.nodeSettings
  .object [("agent_name", .string c.agentName), ("can_be_frozen", .bool c.canBeFrozen),
    ("interrupt_on_forced_stop", .bool c.interruptOnForcedStop),
    ("definition_path", view c.definitionPath),
    ("mapping_path", view c.mappingPath), ("host_ip", .string c.hostIp),
    ("publisher_port", view c.publisherPort), ("ipc_enabled", .bool c.ipcEnabled),
    ("ipc_dir", .string (c.ipcDirectory temporary)),
    ("presence_port", view c.presencePort),
    ("bootstrap_nodes", view c.bootstrapNodes), ("gossip", .bool c.gossipEnabled),
    ("broadcast_interval_ms", View.digits c.broadcastInterval),
    ("outputs_request_delay_ms", View.digits c.outputsRequestDelay),
    ("expiry_ms", view (c.expiry.map View.digits)),
    ("filter_policy", .string c.filterPolicy.name),
    ("sections", view [c.agent.isSome, c.network.isSome, c.timing.isSome,
      c.mapping.isSome, c.logging.isSome]),
    ("logging", view (c.logging.map fun l => Json.object
      [("json_path", view l.jsonPath),
        ("json_max_bytes", view (l.jsonMaxBytes.map View.digits)),
        ("json_rotate", view l.jsonRotate),
        ("disable_console", view l.disableConsole),
        ("disable_file", view l.disableFile),
        ("console_level", view (l.consoleLevel.map Log.Level.name))])),
    ("settings", .object [
      ("broadcast_interval_ms", View.digits settings.broadcastInterval),
      ("outputs_request_delay_ms", View.digits settings.outputsRequestDelay),
      ("expiry_ms", view (settings.expiry.map View.digits)),
      ("filter_policy", .string settings.filterPolicy.name),
      ("interrupt_on_forced_stop", .bool settings.interruptOnForcedStop),
      ("ipc_dir", view settings.ipcDirectory),
      ("allow_console", .bool settings.allowConsole)]),
    ("tcp", .object [("bind_ip", .string node.bindIp), ("advertised_ip", .string node.advertisedIp),
      ("port", view node.port), ("bootstrap_nodes", view node.bootstrapNodes),
      ("gossip", .bool node.gossip), ("allow_console", .bool node.allowConsole)])]

end PeerMesh
