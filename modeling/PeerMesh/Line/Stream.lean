import PeerMesh.Bytes
import PeerMesh.Line.Text
import PeerMesh.Text.Utf8

/-! Presence lines on a stream of bytes. The text of each travels with a line feed behind it. -/

namespace PeerMesh.Line

def lineFeed : UInt8 := 10

/-- The bytes that write some texts, one after the other. -/
def writeAll (texts : List String) : List UInt8 :=
  texts.flatMap fun text => Bytes.toBytes text.toByteArray ++ [lineFeed]

/-- The pieces of a stream, each with its line feed, which the last may lack. -/
def cut : List UInt8 → List (List UInt8)
  | [] => []
  | b :: rest =>
    if b = lineFeed then [b] :: cut rest
    else
      match cut rest with
      | [] => [[b]]
      | piece :: pieces => (b :: piece) :: pieces

/-- The texts of the pieces up to one that is no text, which ends the reading. -/
def received : List (List UInt8) → List String
  | [] => []
  | piece :: pieces =>
    match Text.Utf8.decode? (Bytes.ofList piece) with
    | some text => text :: received pieces
    | none => []

/-- What a reader makes of a stream. A text that is no line does not end the reading. -/
def readAll (bytes : List UInt8) : List (Option Line) := (received (cut bytes)).map ofText?

end PeerMesh.Line
