import PeerMesh.Log.Event
import PeerMesh.Text.Quoted

/-! The console shows one line for each log event that matters enough. -/

namespace PeerMesh.Log

/-- Puts log lines in line with those that begin with a sign. -/
def indent : String := "   "

def defaultConsoleLevel : Level := .info

def Event.consoleLine (e : Event) : String :=
  let agent := e.entry.agent.getD "-"
  match e.entry.body with
  | .network action address detail =>
    s!"{indent}NET agent={agent} action={action} addr={Text.Quoted.optional address} " ++
      s!"detail={Text.Quoted.optional detail} corr={Text.Quoted.optional e.stamp.correlation}"
  | .mapping action peer output detail =>
    s!"{indent}MAP agent={agent} action={action} peer={Text.Quoted.optional peer} " ++
      s!"output={Text.Quoted.optional output} detail={Text.Quoted.optional detail}"
  | .command peer command accepted detail =>
    s!"{indent}CMD agent={agent} peer={peer} command={command} accepted={accepted} " ++
      s!"detail={Text.Quoted.optional detail}"
  | .system action detail =>
    s!"{indent}SYS agent={agent} action={action} detail={Text.Quoted.optional detail} " ++
      s!"corr={Text.Quoted.optional e.stamp.correlation}"

def Entry.isShown (e : Entry) (minimum : Level) : Bool :=
  !e.quiet && minimum.rank ≤ e.level.rank

/-- The line the console shows for an event, if it shows one. -/
def Event.shown? (e : Event) (minimum : Option Level) : Option String :=
  if e.entry.isShown (minimum.getD defaultConsoleLevel) then some e.consoleLine else none

end PeerMesh.Log
