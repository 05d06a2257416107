import PeerMesh.Command.Frames
import PeerMesh.View.Model

/-! Views of commands. -/

namespace PeerMesh

instance : View Command := ⟨fun c =>
  let more : List (String × Json) := match c with
    | .order _ => []
    | .topic _ text | .state text => [("arg", view text)]
    | .flag _ on => [("flag", view on)]
    | .enclosure _ document => [("json", view document)]
    | .listing _ values => [("values", view values)]
    | .set _ name value => [("name", view name), ("value", view value)]
    | .map input agent output | .unmap input agent output =>
      [("input", view input), ("agent", view agent), ("output", view output)]
    | .bus frames => [("frames", view frames)]
  .object (("cmd", view c.keyword) :: more)⟩

/-- Reads a command from its view; a keyword that is not known makes it a bus message. -/
def Json.command (j : Json) : Command :=
  let keyword := (j.get "cmd").text
  let triple (make : String → String → String → Command) : Command :=
    make (j.get "input").text (j.get "agent").text (j.get "output").text
  let known : List (Option Command) :=
    [(Order.all.find? fun o => o.keyword == keyword).map .order,
      (Topic.all.find? fun t => t.keyword == keyword).map fun t => .topic t (j.get "arg").text,
      (Flag.all.find? fun f => f.keyword == keyword).map fun f => .flag f (j.get "flag").isTrue,
      (Enclosure.all.find? fun e => e.keyword == keyword).map fun e =>
        .enclosure e (j.get "json").text,
      (Listing.all.find? fun l => l.keyword == keyword).map fun l =>
        .listing l ((j.get "values").items.map Json.message),
      (SlotKind.all.find? fun k => Command.setKeyword k == keyword).map fun k =>
        .set k (j.get "name").text (j.get "value").text,
      if keyword = "MAP" then some (triple .map) else none,
      if keyword = "UNMAP" then some (triple .unmap) else none,
      if keyword = "STATE" then some (.state (j.get "arg").text) else none]
  (known.findSome? id).getD (.bus (j.get "frames").frames)

end PeerMesh
