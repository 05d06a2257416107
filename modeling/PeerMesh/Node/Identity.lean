import PeerMesh.Bytes
import PeerMesh.Text.Hex

/-! Ids of nodes: sixteen random bytes in hexadecimal digits, six bits of which say that the others
are random. -/

namespace PeerMesh.Node

/-- Sets the bits that mark an id as random. -/
def markRandom (bytes : List UInt8) : List UInt8 :=
  (bytes.modify 6 fun b => b &&& 0x0f ||| 0x40).modify 8 fun b => b &&& 0x3f ||| 0x80

def groupsOf {α : Type} : List Nat → List α → List (List α)
  | [], _ => []
  | length :: lengths, items => items.take length :: groupsOf lengths (items.drop length)

/-- The id that random bytes make. -/
def idOfRandom (bytes : List UInt8) : String :=
  "-".intercalate ((groupsOf [4, 2, 2, 2, 6] (markRandom bytes)).map fun group =>
    Text.Hex.encode (Bytes.ofList group))

example : idOfRandom (List.replicate 16 0xff) = "ffffffff-ffff-4fff-bfff-ffffffffffff" := by
  decide +kernel

end PeerMesh.Node
