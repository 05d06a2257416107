import PeerMesh.Json.Value

/-! JSON text as it is read. A document keeps what only matters to a reader of its parts: members in
their order with their repetitions, and the strings and numbers that have no value (a string with
half a surrogate pair, a number too large). They spoil the parts that are wanted, while a part that
nobody asks for only has to be well formed. -/

namespace PeerMesh.Json

inductive Document where
  | null
  | bool (value : Bool)
  | number (value : Option Number)
  | string (value : Option String)
  | array (items : List Document)
  | object (members : List (Option String × Document))

namespace Document

def isSpace (c : Char) : Bool := c = ' ' || c = '\n' || c = '\t' || c = '\r'

def skipSpace (cs : List Char) : List Char := cs.dropWhile isSpace

def unit? (a b c d : Char) : Option Nat := do
  let a ← Text.hexValue? a
  let b ← Text.hexValue? b
  let c ← Text.hexValue? c
  let d ← Text.hexValue? d
  some (((a * 16 + b) * 16 + c) * 16 + d)

def shortEscape? (c : Char) : Option Char :=
  if c = '"' || c = '\\' || c = '/' then some c
  else if c = 'b' then some '\x08'
  else if c = 'f' then some '\x0C'
  else if c = 'n' then some '\n'
  else if c = 'r' then some '\r'
  else if c = 't' then some '\t'
  else none

/-- The characters that code points spell, which come last first, before those that are known. Two
halves of a surrogate pair stand for one character. Half a pair alone spells nothing. -/
def joinHalves (known : List Char) : List Nat → Option (List Char)
  | [] => some known
  | [n] => if 0xD800 ≤ n && n ≤ 0xDFFF then none else some (Char.ofNat n :: known)
  | n :: m :: read =>
    if 0xDC00 ≤ n && n ≤ 0xDFFF then
      if 0xD800 ≤ m && m ≤ 0xDBFF then
        joinHalves (Char.ofNat (0x10000 + (m - 0xD800) * 0x400 + (n - 0xDC00)) :: known) read
      else none
    else if 0xD800 ≤ n && n ≤ 0xDBFF then none
    else joinHalves (Char.ofNat n :: known) (m :: read)

/-- Reads a string after its opening quote, of which the code points `read` are known, last first.
-/
def readString (read : List Nat) : List Char → Option (Option String × List Char)
  | [] => none
  | '"' :: rest => some ((joinHalves [] read).map String.ofList, rest)
  | '\\' :: 'u' :: a :: b :: c :: d :: rest =>
    match unit? a b c d with
    | none => none
    | some n => readString (n :: read) rest
  | '\\' :: c :: rest =>
    match shortEscape? c with
    | none => none
    | some c => readString (c.toNat :: read) rest
  | c :: rest => if c.toNat < 32 || c = '\\' then none else readString (c.toNat :: read) rest

def readWord : List Char → List Char → Option (List Char)
  | [], rest => some rest
  | w :: word, c :: rest => if w = c then readWord word rest else none
  | _ :: _, [] => none

mutual

/-- Reads a value and the spaces before it; `fuel` bounds the values and members read. -/
def readValue : Nat → List Char → Option (Document × List Char)
  | 0, _ => none
  | fuel + 1, cs =>
    match skipSpace cs with
    | [] => none
    | 'n' :: rest => (readWord "ull".toList rest).map (Document.null, ·)
    | 't' :: rest => (readWord "rue".toList rest).map (Document.bool true, ·)
    | 'f' :: rest => (readWord "alse".toList rest).map (Document.bool false, ·)
    | '"' :: rest => (readString [] rest).map fun (s, rest) => (.string s, rest)
    | '[' :: rest =>
      match skipSpace rest with
      | ']' :: rest => some (.array [], rest)
      | rest => (readItems fuel rest).map fun (items, rest) => (.array items, rest)
    | '\x7b' :: rest =>
      match skipSpace rest with
      | '\x7d' :: rest => some (.object [], rest)
      | rest => (readMembers fuel rest).map fun (members, rest) => (.object members, rest)
    | c :: rest =>
      (Numeral.read? (c :: rest)).map fun (numeral, rest) => (.number numeral.value?, rest)

/-- Reads the items of an array that has one, and its closing bracket. -/
def readItems : Nat → List Char → Option (List Document × List Char)
  | 0, _ => none
  | fuel + 1, cs =>
    match readValue fuel cs with
    | none => none
    | some (item, rest) =>
      match skipSpace rest with
      | ']' :: rest => some ([item], rest)
      | ',' :: rest => (readItems fuel rest).map fun (items, rest) => (item :: items, rest)
      | _ => none

/-- Reads the members of an object that has one, and its closing brace. -/
def readMembers : Nat → List Char → Option (List (Option String × Document) × List Char)
  | 0, _ => none
  | fuel + 1, cs =>
    match skipSpace cs with
    | '"' :: rest =>
      match readString [] rest with
      | none => none
      | some (key, rest) =>
        match skipSpace rest with
        | ':' :: rest =>
          match readValue fuel rest with
          | none => none
          | some (value, rest) =>
            match skipSpace rest with
            | '\x7d' :: rest => some ([(key, value)], rest)
            | ',' :: rest =>
              (readMembers fuel rest).map fun (members, rest) => ((key, value) :: members, rest)
            | _ => none
        | _ => none
    | _ => none

end

/-- Reads a whole text: one value and nothing after it but spaces. -/
def ofText? (text : String) : Option Document :=
  let cs := text.toList
  match readValue (2 * cs.length + 1) cs with
  | some (document, rest) => if (skipSpace rest).isEmpty then some document else none
  | none => none

/-- Puts a member among others in the order of their keys, in place of one with the same key. -/
def insertMember (key : String) (value : Json) : List (String × Json) → List (String × Json)
  | [] => [(key, value)]
  | (k, v) :: rest =>
    if key < k then (key, value) :: (k, v) :: rest
    else if key = k then (key, value) :: rest
    else (k, v) :: insertMember key value rest

mutual

/-- The value of a document nested at most `depth` levels: members ordered by their keys, the last
of several with one key kept. -/
def toValue? (depth : Nat) : Document → Option Json
  | .null => some .null
  | .bool b => some (.bool b)
  | .number n => n.map .number
  | .string s => s.map .string
  | .array items => if depth = 0 then none else (toValues? (depth - 1) items).map .array
  | .object members => if depth = 0 then none else (toMembers? (depth - 1) [] members).map .object

def toValues? (depth : Nat) : List Document → Option (List Json)
  | [] => some []
  | item :: rest =>
    match toValue? depth item, toValues? depth rest with
    | some item, some rest => some (item :: rest)
    | _, _ => none

def toMembers? (depth : Nat) (read : List (String × Json)) :
    List (Option String × Document) → Option (List (String × Json))
  | [] => some read
  | (key, value) :: rest =>
    match key, toValue? depth value with
    | some key, some value => toMembers? depth (insertMember key value read) rest
    | _, _ => none

end

/-- The deepest nesting of a value that is kept. -/
def maxDepth : Nat := 127

/-- Finds the field a member belongs to and stores its value; a field stands once only. -/
def storeField (key : String) (value : Document) :
    List String → List (Option Document) → Option (List (Option Document))
  | name :: names, slot :: slots =>
    if key = name then
      match slot with
      | none => some (some value :: slots)
      | some _ => none
    else (storeField key value names slots).map (slot :: ·)
  | _, slots => some slots

/-- The fields of a record, in the order of their names. A record is an object, in which unknown
members are passed over, or an array of the fields, in which the last may be missing, but none of
the first `least`. -/
def fields? (names : List String) (least : Nat) : Document → Option (List (Option Document))
  | .object members =>
    members.foldlM
      (fun slots (key, value) => key.bind fun key => storeField key value names slots)
      (names.map fun _ => none)
  | .array items =>
    if items.length < least || names.length < items.length then none
    else some (items.map some ++ List.replicate (names.length - items.length) none)
  | _ => none

def text? : Document → Option String
  | .string s => s
  | _ => none

def list? {α : Type} (item : Document → Option α) : Document → Option (List α)
  | .array items => items.mapM item
  | _ => none

def orDefault {α : Type} (default : α) (read : Document → Option α) : Option Document → Option α
  | none => some default
  | some document => read document

/-- A text that may be left out; then it is empty. -/
def textOrEmpty : Option Document → Option String := orDefault "" text?

/-- A choice by its name: a string, or an object with the name as its one key and its content. -/
def choice? : Document → Option (String × Document)
  | .string (some name) => some (name, .null)
  | .object [(some name, content)] => some (name, content)
  | _ => none

end Document

def ofText? (text : String) : Option Json :=
  (Document.ofText? text).bind (Document.toValue? Document.maxDepth)

end PeerMesh.Json
