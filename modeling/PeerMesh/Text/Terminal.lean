/-! Text for a terminal without what would steer it. Control characters are left out, except those
that make a blank, and so are the sequences that an escape character begins. -/

namespace PeerMesh.Text.Terminal

/-- Where a text stands between two characters. -/
inductive Place where
  /-- Outside of any sequence. -/
  | outside
  /-- After an escape character. -/
  | escape
  /-- After a sign that does not complete the sequence of an escape character. -/
  | signs
  /-- Among the parameters of a control sequence, which a letter completes. -/
  | parameters
  /-- In a title, which a bell completes. -/
  | title
  /-- In a string, which nothing completes but the start of another sequence. -/
  | string
  deriving DecidableEq, Repr

def Place.next (place : Place) (c : Char) : Place :=
  let n := c.toNat
  if n = 0x18 || n = 0x1A then .outside
  else if n = 0x1B then .escape
  else match place with
  | .escape =>
    if c = '[' then .parameters
    else if c = ']' then .title
    else if c = 'P' || c = 'X' || c = '^' || c = '_' then .string
    else if 0x20 ≤ n && n ≤ 0x2F then .signs
    else if 0x30 ≤ n && n ≤ 0x7E then .outside
    else .escape
  | .signs => if 0x30 ≤ n && n ≤ 0x7E then .outside else .signs
  | .parameters => if 0x40 ≤ n && n ≤ 0x7E then .outside else .parameters
  | .title => if n = 7 then .outside else .title
  | place => place

/-- The control characters that make a blank. -/
def isBlankControl (c : Char) : Bool := c = '\t' || c = '\n' || c = '\x0C' || c = '\r'

def Place.keeps (place : Place) (c : Char) : Bool :=
  match place with
  | .outside => isBlankControl c || (0x20 ≤ c.toNat && c.toNat ≠ 0x7F)
  | .title | .string => false
  | _ => isBlankControl c

/-- What is kept of a text. After a kept character the text counts as outside of any sequence up to
the next character that is left out; there an interrupted sequence is taken up again. -/
def keep : Place → Bool → List Char → List Char
  | _, _, [] => []
  | place, kept, c :: rest =>
    if place.keeps c || (kept && Place.outside.keeps c) then
      c :: keep (if 0x80 ≤ c.toNat then .outside else place) true rest
    else keep (place.next c) false rest

/-- A text without what would steer a terminal. -/
def plain (s : String) : String := String.ofList (keep .outside false s.toList)

example : plain "a\x1b[31mb\x07c" = "abc" ∧ plain "\x1b]0;t\x07x\tü" = "x\tü" ∧
    plain "a\x1b[3\tb\x01cd" = "a\tbd" := by decide +kernel

end PeerMesh.Text.Terminal
