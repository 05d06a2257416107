import PeerMesh.Subscriber.Resolution
import PeerMesh.View.Model

/-! Views of subscribers and of the changes of their filters. -/

namespace PeerMesh

instance : View FilterChange := ⟨fun change =>
  match change with
  | .subscribe output => view ("SUB " ++ output)
  | .unsubscribe output => view ("UNSUB " ++ output)⟩

instance : View FilterDelta := ⟨fun delta => .object
  [("added", view delta.added), ("removed", view delta.removed), ("reset", view delta.reset),
    ("is_empty", view delta.isEmpty)]⟩

/-- A subscriber is shown with what its peer has told. -/
instance : View Subscriber := ⟨fun s => .object
  [("id", view s.peerId), ("name", view s.peerName), ("definition", view s.definition),
    ("mapping", view s.mapping)]⟩

namespace Json

def filterPolicy (j : Json) : FilterPolicy := if j.text = "prune" then .prune else .retain

def filterChange (j : Json) : FilterChange :=
  let output := (j.item 1).text
  if (j.item 0).text = "SUB" then .subscribe output else .unsubscribe output

end Json
end PeerMesh
