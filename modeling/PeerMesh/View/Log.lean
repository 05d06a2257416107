import PeerMesh.Log.Event
import PeerMesh.View.Basic

/-! Views of log entries, and log events read from theirs. -/

namespace PeerMesh

/-- A network entry is shown with its component, the others with their agent. -/
instance : View Log.Entry := ⟨fun e =>
  let level := view e.level.name
  let agent := view e.agent
  .array (match e.body with
    | .network action address detail =>
      [view "net", view e.component, level, view action, view address, view detail]
    | .mapping action peer output detail =>
      [view "map", agent, level, view action, view peer, view output, view detail]
    | .command peer keyword accepted detail =>
      [view "cmd", agent, level, view keyword, view peer, view accepted, view detail]
    | .system action detail => [view "sys", agent, level, view action, view detail])⟩

namespace Json

def level (j : Json) : Log.Level := (Log.Level.ofName? j.text).getD .info

/-- Nanoseconds beyond a second are carried over. -/
def logEvent (j : Json) : Log.Event :=
  let action := (j.get "action").text
  let detail := j.text? "detail"
  let body : Log.Body := match (j.get "kind").text with
    | "network" => .network action (j.text? "addr") detail
    | "mapping" => .mapping action (j.text? "peer") (j.text? "output") detail
    | "command" => .command (j.get "peer").text action (j.get "accepted").isTrue detail
    | _ => .system action detail
  let nanoseconds := (j.get "nanos").toInt.toNat
  ⟨⟨(j.get "secs").toInt.toNat + nanoseconds / 1000000000, nanoseconds % 1000000000,
      (j.get "session").text, j.text? "corr"⟩,
    ⟨(j.get "level").level, (j.get "component").text, j.text? "agent", (j.get "suppress").isTrue,
      body⟩⟩

/-- The views of entries whose order says nothing: those of a mapping come last, and entries of the
same sort are in the order of their peers or addresses. -/
def sortedLogs (xs : List Json) : List Json :=
  let (mapped, others) := xs.partition fun x => (x.item 0).text == "map"
  sortBy 4 others ++ sortBy 4 mapped

end Json
end PeerMesh
