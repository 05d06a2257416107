import PeerMesh.Text.Blank

/-! Names of agents, inputs, outputs and parameters. A clean name is not empty, holds no blank
character and is not too long, so that it survives as one word of a command line. -/

namespace PeerMesh

namespace Name

/-- Longest name, in characters. -/
def maxLength : Nat := 1024

def sanitizeList (cs : List Char) : List Char :=
  ((Text.trim cs).map fun c => if Text.isBlank c then '_' else c).take maxLength

/-- Trimmed, with an underscore for each blank character inside, and cut to the longest length. -/
def sanitize (s : String) : String := String.ofList (sanitizeList s.toList)

/-- Not empty, and left alone by `sanitize`. -/
def isClean (s : String) : Bool := !s.isEmpty && sanitize s == s

end Name
end PeerMesh
