import PeerMesh.Limits
import PeerMesh.Multipart.Basic

/-! Multipart messages on a stream of bytes. Each travels as one frame behind its length in four
bytes. A frame that is no multipart message is reported and passed over; a length above the limit,
or a stream that ends inside a length or a content, ends the reading. -/

namespace PeerMesh.Multipart

inductive StreamFault where
  | frame (fault : MultipartFault)
  | readTooLong
  | readTruncated
  | writeTooLong
  deriving DecidableEq, Repr

def StreamFault.message : StreamFault → String
  | .frame fault => fault.message
  | .readTooLong => "Read error: frame size too big"
  | .readTruncated => "Read error: bytes remaining on stream"
  | .writeTooLong => "Send error: frame size too big"

/-- What a reader of the stream gets next. -/
inductive Received where
  | parts (parts : List Bytes)
  | fault (fault : StreamFault)
  | closed
  deriving DecidableEq

/-- The frames of some bytes, in order, and what is left. -/
structure Frames where
  frames : List Bytes
  /-- The bytes after the last whole frame. -/
  rest : Bytes
  /-- Whether the rest starts with a length above the limit. -/
  tooLong : Bool

def split (bytes : Bytes) (offset : Nat) : Frames :=
  if bytes.size < offset + 4 then ⟨[], bytes.extract offset bytes.size, false⟩
  else
    let length := wordAt bytes offset
    if Limits.frame < length then ⟨[], bytes.extract offset bytes.size, true⟩
    else if bytes.size < offset + 4 + length then ⟨[], bytes.extract offset bytes.size, false⟩
    else
      let after := split bytes (offset + 4 + length)
      { after with frames := bytes.extract (offset + 4) (offset + 4 + length) :: after.frames }
termination_by bytes.size - offset

def received (frame : Bytes) : Received :=
  match decode frame with
  | .ok parts => .parts parts
  | .error fault => .fault (.frame fault)

/-- The reading end of a stream. -/
structure Reader where
  /-- Bytes that have come and make no whole frame yet. -/
  buffer : Bytes
  /-- Whether the reading has ended. -/
  ended : Bool
  deriving DecidableEq

namespace Reader

def start : Reader := ⟨ByteArray.empty, false⟩

def feed (r : Reader) (chunk : Bytes) : Reader × List Received :=
  if r.ended then (r, [])
  else
    let cut := split (r.buffer ++ chunk) 0
    let results := cut.frames.map received
    if cut.tooLong then (⟨cut.rest, true⟩, results ++ [.fault .readTooLong, .closed])
    else (⟨cut.rest, false⟩, results)

/-- Whether a stream may end after these bytes of a frame: before the frame, or between its length
and its content. -/
def mayEnd (rest : Bytes) : Bool := rest.isEmpty || rest.size = 4

/-- The stream has no further bytes. -/
def finish (r : Reader) : List Received :=
  if r.ended then []
  else if mayEnd r.buffer then [.closed]
  else [.fault .readTruncated, .closed]

def readAll (chunks : List Bytes) : List Received :=
  let (r, results) := chunks.foldl
    (fun (r, results) chunk =>
      let (r, more) := r.feed chunk
      (r, results ++ more))
    (start, [])
  results ++ r.finish

end Reader

def send (parts : List Bytes) : Except StreamFault Bytes :=
  let frame := encode parts
  if Limits.frame < frame.size then .error .writeTooLong else .ok (word frame.size ++ frame)

/-- The bytes that send messages one after the other; those whose frames are too long are left out.
-/
def sendAll (messages : List (List Bytes)) : Bytes :=
  messages.foldl (fun bytes parts => bytes ++ (send parts).toOption.getD ByteArray.empty)
    ByteArray.empty

def messages (bytes : Bytes) : List (List Bytes) :=
  (Reader.start.feed bytes).2.filterMap fun
    | .parts parts => some parts
    | _ => none

end PeerMesh.Multipart
