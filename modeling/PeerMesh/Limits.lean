/-! The sizes that bound what travels between agents. -/

namespace PeerMesh.Limits

/-- The greatest length of one frame on a stream, in bytes. -/
def frame : Nat := 64 * 1024 * 1024

/-- The greatest length of a stored text or binary value, in bytes. What is left of a frame is for
the name and the tag that travel with the value. -/
def value : Nat := frame - 8192

end PeerMesh.Limits
