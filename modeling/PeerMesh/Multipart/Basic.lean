import PeerMesh.Bytes

/-! Multipart messages: several parts in one frame, as their count and then each part behind its
length. Counts and lengths take four bytes, greatest first. -/

namespace PeerMesh

inductive MultipartFault where
  | truncatedCount
  | truncatedLength (part : Nat)
  | truncatedPart (part : Nat)
  | trailing (count : Nat)
  deriving DecidableEq, Repr

def MultipartFault.message : MultipartFault → String
  | .truncatedCount => "truncated part count"
  | .truncatedLength part => s!"truncated length of part {part}"
  | .truncatedPart part => s!"truncated part {part}"
  | .trailing count => s!"{count} trailing bytes"

namespace Multipart

/-- A number in four bytes. -/
def word (n : Nat) : Bytes := Bytes.ofList (Bytes.big 4 n)

def wordAt (frame : Bytes) (offset : Nat) : Nat :=
  Bytes.ofBig (Bytes.toBytes (frame.extract offset (offset + 4)))

def encodeParts : List Bytes → Bytes → Bytes
  | [], frame => frame
  | part :: rest, frame => encodeParts rest (frame ++ word part.size ++ part)

def encode (parts : List Bytes) : Bytes := encodeParts parts (word parts.length)

/-- Reads `count` parts from `offset` on, the first of which has the number `index`. -/
def decodeParts (frame : Bytes) (offset index : Nat) : Nat → Except MultipartFault (List Bytes)
  | 0 => if offset < frame.size then .error (.trailing (frame.size - offset)) else .ok []
  | count + 1 =>
    if frame.size < offset + 4 then .error (.truncatedLength index)
    else
      let start := offset + 4
      let stop := start + wordAt frame offset
      if frame.size < stop then .error (.truncatedPart index)
      else (decodeParts frame stop (index + 1) count).map (frame.extract start stop :: ·)

def decode (frame : Bytes) : Except MultipartFault (List Bytes) :=
  if frame.size < 4 then .error .truncatedCount
  else decodeParts frame 4 0 (wordAt frame 0)

end Multipart
end PeerMesh
