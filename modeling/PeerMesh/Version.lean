/-! The names and versions by which the program and its protocol are known. -/

namespace PeerMesh.Version

/-- The protocol's name, which nodes announce to each other. -/
def protocolName : String := "agentmesh"

/-- The protocol's version, raised with each change of what is sent. -/
def protocol : String := "1"

def application : String := "0.1.0"

def full : String := "v" ++ application ++ " (protocol=" ++ protocol ++ ")"

end PeerMesh.Version
