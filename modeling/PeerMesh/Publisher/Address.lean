import PeerMesh.Files

/-! Where an agent publishes: at a port, and to subscribers on its own host at a path as well. -/

namespace PeerMesh

/-- Where a publisher takes subscribers. -/
inductive Endpoint where
  | tcp (address : String)
  | ipc (path : String)
  deriving DecidableEq, Repr

def Endpoint.display : Endpoint → String
  | .tcp address => "tcp://" ++ address
  | .ipc path => "ipc://" ++ path

structure PublisherAddress where
  port : Nat
  ipcPath : Option String
  deriving DecidableEq, Repr

namespace PublisherAddress

/-- The path at which a node's agent publishes to its own host. -/
def localPath (directory nodeId : String) : String :=
  if directory.isEmpty || directory.endsWith "/" then directory ++ nodeId ++ ".sock"
  else directory ++ "/" ++ nodeId ++ ".sock"

/-- The most bytes in the path of a local endpoint. -/
def maxLocalPath : Nat := 107

/-- Whether a publisher can listen at a path: its directory is there or can be made, and at the path
there is nothing but a file, which makes way. -/
def canListen (files : Files) (path : String) : Bool :=
  let parts := Path.ofText path
  let made := (files.makeDirectories parts.parent).1
  match made.place? parts with
  | .ok place =>
    path.utf8ByteSize ≤ maxLocalPath && (Files.textFault? path).isNone &&
      made.node? place ≠ some .directory
  | .error _ => false

/-- The address of a publisher that is to listen at a path too. A path where it cannot listen is
left out. -/
def offered (files : Files) (port : Nat) (path : Option String) : PublisherAddress :=
  ⟨port, path.filter (canListen files)⟩

end PublisherAddress
end PeerMesh
