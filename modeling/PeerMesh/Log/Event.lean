/-! Log events: what is told of connections, filters, commands and the program itself. -/

namespace PeerMesh.Log

inductive Level where
  | trace
  | debug
  | info
  | warn
  | error
  deriving DecidableEq, Repr

namespace Level

def all : List Level := [.trace, .debug, .info, .warn, .error]

def name : Level → String
  | .trace => "trace"
  | .debug => "debug"
  | .info => "info"
  | .warn => "warn"
  | .error => "error"

def ofName? (s : String) : Option Level := all.find? fun l => l.name == s

def rank : Level → Nat
  | .trace => 0
  | .debug => 1
  | .info => 2
  | .warn => 3
  | .error => 4

end Level

inductive Body where
  | network (action : String) (address detail : Option String)
  | mapping (action : String) (peer output detail : Option String)
  | command (peer command : String) (accepted : Bool) (detail : Option String)
  | system (action : String) (detail : Option String)
  deriving DecidableEq, Repr

/-- What is told, by which part of the program, and how much it matters. -/
structure Entry where
  level : Level
  component : String
  /-- The agent it is about. -/
  agent : Option String
  /-- Not to be shown on the console. -/
  quiet : Bool
  body : Body
  deriving DecidableEq, Repr

/-- When an entry was told, and in which run of the program. -/
structure Stamp where
  /-- Since the beginning of 1970. -/
  seconds : Nat
  nanoseconds : Nat
  session : String
  correlation : Option String
  deriving DecidableEq, Repr

structure Event where
  stamp : Stamp
  entry : Entry
  deriving DecidableEq, Repr

end PeerMesh.Log
