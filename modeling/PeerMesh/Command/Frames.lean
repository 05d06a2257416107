import PeerMesh.Command.Basic

/-! Commands as frames. The first frame is a line of text: the keyword and, after a space, what goes
with it, or the keyword, a number sign and a document. Values and bus frames follow as further
frames. -/

namespace PeerMesh

inductive Expected where
  | argument
  | nameAndValue
  | triple
  | flag
  | values
  deriving DecidableEq, Repr

def Expected.message : Expected → String
  | .argument => "an argument"
  | .nameAndValue => "<name> <value>"
  | .triple => "<input> <agent> <output>"
  | .flag => "0 or 1"
  | .values => "name/type/value frame triples"

inductive CommandFault where
  | empty
  | unknown (keyword : String)
  | missingArgument (keyword : String) (expected : Expected)
  | notUtf8
  deriving DecidableEq, Repr

def CommandFault.message : CommandFault → String
  | .empty => "empty message"
  | .unknown keyword => s!"unknown command '{keyword}'"
  | .missingArgument keyword expected => s!"command '{keyword}' expects {expected.message}"
  | .notUtf8 => "message is not valid UTF-8"

namespace Command

def flagText (on : Bool) : String := if on then "1" else "0"

def line : Command → String
  | .topic t text => t.keyword ++ " " ++ text
  | .state text => "STATE " ++ text
  | .flag f on => f.keyword ++ " " ++ flagText on
  | .set kind name value => setKeyword kind ++ " " ++ name ++ " " ++ value
  | .map input agent output => "MAP " ++ input ++ " " ++ agent ++ " " ++ output
  | .unmap input agent output => "UNMAP " ++ input ++ " " ++ agent ++ " " ++ output
  | .enclosure e document => e.keyword ++ "#" ++ document
  | command => command.keyword

def furtherFrames : Command → List Bytes
  | .listing _ values => values.flatMap DataMessage.toFrames
  | .bus frames => frames
  | _ => []

def toFrames (c : Command) : List Bytes := c.line.toByteArray :: c.furtherFrames

/-- The values that frames hold by threes. -/
def valuesOfFrames? : List Bytes → Option (List DataMessage)
  | [] => some []
  | name :: tag :: bytes :: rest =>
    match DataMessage.ofFrames [name, tag, bytes] with
    | .ok value => (valuesOfFrames? rest).map (value :: ·)
    | .error _ => none
  | _ => none

def readFlag? (rest : List Char) : Option Bool :=
  let text := String.ofList (Text.trim rest)
  if text = "1" || text = "true" then some true
  else if text = "0" || text = "false" then some false
  else none

/-- The name and the value after a set keyword: the name is not empty and ends at the first space.
-/
def readNameAndValue? (rest : List Char) : Option (String × String) :=
  match Text.splitAtFirst ' ' rest with
  | (c :: name, some value) => some (String.ofList (c :: name), String.ofList value)
  | _ => none

def required {α : Type} (keyword : String) (expected : Expected) :
    Option α → Except CommandFault α
  | some a => .ok a
  | none => .error (.missingArgument keyword expected)

def readTriple (keyword : String) (make : String → String → String → Command)
    (rest : List Char) : Except CommandFault Command :=
  match Text.words (String.ofList rest) with
  | [input, agent, output] => .ok (make input agent output)
  | _ => .error (.missingArgument keyword .triple)

/-- The document that a line encloses, if it starts with the keyword of an enclosure and a number
sign. -/
def readEnclosure? (text : List Char) : Option Command :=
  Enclosure.all.findSome? fun e =>
    ((e.keyword ++ "#").toList.isPrefixOf? text).map fun document =>
      .enclosure e (String.ofList document)

/-- Reads a command from its keyword, the rest of its line, and the further frames. -/
def ofParts (keyword : String) (rest : List Char) (frames : List Bytes) :
    Except CommandFault Command :=
  if let some found := Order.all.find? fun o => o.keyword == keyword then .ok (.order found)
  else if let some found := Topic.all.find? fun t => t.keyword == keyword then
    if Text.isAllBlank rest then .error (.missingArgument keyword .argument)
    else .ok (.topic found (String.ofList rest))
  else if let some found := Flag.all.find? fun f => f.keyword == keyword then
    (required keyword .flag (readFlag? rest)).map fun on => .flag found on
  else if let some found := Listing.all.find? fun l => l.keyword == keyword then
    (required keyword .values (valuesOfFrames? frames)).map fun values => .listing found values
  else if let some kind := SlotKind.all.find? fun k => setKeyword k == keyword then
    (required keyword .nameAndValue (readNameAndValue? rest)).map fun (name, value) =>
      .set kind name value
  else if keyword = "MAP" then readTriple keyword .map rest
  else if keyword = "UNMAP" then readTriple keyword .unmap rest
  else if keyword = "STATE" then .ok (.state (String.ofList rest))
  else if keyword = "BUS_MESSAGE" then .ok (.bus frames)
  else .error (.unknown keyword)

def ofLine (text : String) (frames : List Bytes) : Except CommandFault Command :=
  let cs := text.toList
  if Text.isAllBlank cs then .error .empty
  else match readEnclosure? cs with
    | some command => .ok command
    | none =>
      let (keyword, rest) := Text.splitAtFirst ' ' cs
      ofParts (String.ofList keyword) (rest.getD []) frames

def ofFrames : List Bytes → Except CommandFault Command
  | [] => .error .empty
  | first :: frames =>
    match Text.Utf8.decode? first with
    | none => .error .notUtf8
    | some text => ofLine text frames

end Command
end PeerMesh
