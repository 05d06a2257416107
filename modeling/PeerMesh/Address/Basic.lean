import PeerMesh.Bytes

/-! Addresses of hosts, and of ports on hosts. -/

namespace PeerMesh

inductive IpAddress where
  | v4 (bits : UInt32)
  | v6 (bits : BitVec 128)
  deriving DecidableEq

namespace IpAddress

def ofOctets (octets : List UInt8) : IpAddress := .v4 (UInt32.ofNat (Bytes.ofBig octets))

def octets (bits : UInt32) : List UInt8 := Bytes.big 4 bits.toNat

def ofGroups (groups : List Nat) : IpAddress :=
  .v6 (BitVec.ofNat 128 (groups.foldl (fun bits group => 65536 * bits + group) 0))

def groups (bits : BitVec 128) : List Nat :=
  (List.range 8).map fun index => bits.toNat / Nat.pow 65536 (7 - index) % 65536

/-- The address that stands for every address of a host. -/
def isUnspecified : IpAddress → Bool
  | .v4 bits => bits = 0
  | .v6 bits => bits = 0

def isLoopback : IpAddress → Bool
  | .v4 bits => bits >>> 24 = 127
  | .v6 bits => bits = 1

def localhost : IpAddress := ofOctets [127, 0, 0, 1]

end IpAddress

structure SocketAddress where
  ip : IpAddress
  port : UInt16
  deriving DecidableEq

end PeerMesh
