import PeerMesh.Bytes
import PeerMesh.Json.Value
import PeerMesh.Table
import PeerMesh.Text.Hex
import PeerMesh.Text.Utf8

/-! Views: how values of the mesh are shown as JSON to someone who watches it, and how they are read
back from what such a person writes. -/

namespace PeerMesh

class View (α : Type) where
  view : α → Json

export View (view)

namespace View

variable {α : Type}

instance : View Json := ⟨id⟩
instance : View String := ⟨.string⟩
instance : View Nat := ⟨Json.ofNat⟩
instance : View Bool := ⟨.bool⟩

/-- What is not there is shown as null. -/
instance [View α] : View (Option α) := ⟨fun a => (a.map view).getD .null⟩

instance [View α] : View (List α) := ⟨fun items => .array (items.map view)⟩

instance [View α] : View (Table α) := ⟨fun t => .object (t.entries.map fun e => (e.1, view e.2))⟩

instance : View NameSet := ⟨fun names => view names.toList⟩

/-- Bytes are shown as text if they are one, and else in hexadecimal digits. -/
instance : View Bytes := ⟨fun bytes =>
  match Text.Utf8.decode? bytes with
  | some s => .string s
  | none => .object [("hex", .string (Text.Hex.encode bytes))]⟩

end View

namespace Json

/-- A member of an object; null stands for one that is not there. -/
def get (j : Json) (key : String) : Json :=
  match j with
  | .object members => ((members.find? fun m => m.1 == key).map (·.2)).getD .null
  | _ => .null

def isNull : Json → Bool
  | .null => true
  | _ => false

def items : Json → List Json
  | .array items => items
  | _ => []

def item (j : Json) (n : Nat) : Json := j.items[n]?.getD .null

def toInt : Json → Int
  | .number (.int n) => n
  | _ => 0

def isTrue : Json → Bool
  | .bool b => b
  | _ => false

mutual

/-- A text: a string, or texts one after the other. -/
def text : Json → String
  | .string s => s
  | .array items => String.join (texts items)
  | _ => ""

def texts : List Json → List String
  | [] => []
  | item :: rest => text item :: texts rest

end

mutual

def mapStrings (f : String → Json) : Json → Json
  | .string s => f s
  | .array items => .array (mapItems f items)
  | .object members => .object (mapMembers f members)
  | other => other

def mapItems (f : String → Json) : List Json → List Json
  | [] => []
  | item :: rest => mapStrings f item :: mapItems f rest

def mapMembers (f : String → Json) : List (String × Json) → List (String × Json)
  | [] => []
  | (key, value) :: rest => (key, mapStrings f value) :: mapMembers f rest

end

/-- The stable order by the text of an element. -/
def sortBy (n : Nat) (xs : List Json) : List Json :=
  (xs.map fun x => ((x.item n).compact, x)).mergeSort (fun a b => a.1 ≤ b.1) |>.map (·.2)

/-- Bytes: a text or hexadecimal digits. -/
def bytes (j : Json) : Bytes :=
  match j.get "hex" with
  | .null => j.text.toByteArray
  | digits => (Text.Hex.decode digits.text).toOption.getD ByteArray.empty

def frames (j : Json) : List Bytes := j.items.map bytes

def headers : Json → Table String
  | .object members => Table.ofList (members.map fun (k, v) => (k, v.text))
  | _ => Table.empty

/-- A truth value that is a member, or the given one if it is not there. -/
def flag (j : Json) (key : String) (missing : Bool) : Bool :=
  match j.get key with
  | .null => missing
  | given => given.isTrue

def text? (j : Json) (key : String) : Option String :=
  match j.get key with
  | .null => none
  | value => some value.text

end Json
end PeerMesh
