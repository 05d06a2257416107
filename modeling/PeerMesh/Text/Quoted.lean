import PeerMesh.Text.Hidden

/-! Text in quotes, in which no character is hidden: tab, line ends, the backslash, the quote and
the null character have short escapes, other characters that would not show are written by their
number. -/

namespace PeerMesh.Text.Quoted

def hexDigits (n : Nat) : String := String.ofList (Nat.toDigits 16 n)

def escaped (quote c : Char) : String :=
  if c = '\x00' then "\\0"
  else if c = '\t' then "\\t"
  else if c = '\r' then "\\r"
  else if c = '\n' then "\\n"
  else if c = '\\' then "\\\\"
  else if c = quote then String.ofList ['\\', c]
  else if isHidden c then "\\u\x7b" ++ hexDigits c.toNat ++ "\x7d"
  else c.toString

def character (c : Char) : String := "'" ++ escaped '\'' c ++ "'"

def text (s : String) : String := "\"" ++ String.join (s.toList.map (escaped '"')) ++ "\""

/-- An optional text says whether it is there. -/
def optional : Option String → String
  | none => "None"
  | some s => "Some(" ++ text s ++ ")"

end PeerMesh.Text.Quoted
