import PeerMesh.Double.Text
import PeerMesh.Text.Integer
import PeerMesh.Toml.Value

/-! Reading TOML documents. -/

namespace PeerMesh.Toml

/-- Arrays and tables in a value, and the parts of a key, nest less deep. -/
def maxDepth : Nat := 80

def skipBlanks (cs : List Char) : List Char := cs.dropWhile fun c => c = ' ' || c = '\t'

/-- A line end: a line feed, alone or after a carriage return. -/
def lineEnd? : List Char → Option (List Char)
  | '\n' :: rest => some rest
  | '\r' :: '\n' :: rest => some rest
  | _ => none

/-- The characters that text and comments may hold on one line. -/
def isPlain (c : Char) : Bool := c = '\t' || (32 ≤ c.toNat && c.toNat ≠ 127)

def skipComment (cs : List Char) : List Char :=
  match cs with
  | '#' :: rest => rest.dropWhile isPlain
  | cs => cs

/-- After blanks, comments and line ends; `fuel` bounds their number. -/
def skipLines : Nat → List Char → List Char
  | 0, cs => cs
  | fuel + 1, cs =>
    let rest := skipComment (skipBlanks cs)
    match lineEnd? rest with
    | some rest => skipLines fuel rest
    | none => rest

/-- The rest of a line that is complete: blanks, a comment, and the line end or the end. -/
def endLine? (cs : List Char) : Option (List Char) :=
  match skipComment (skipBlanks cs) with
  | [] => some []
  | rest => lineEnd? rest

/-- The character that `count` hexadecimal digits number. -/
def numbered? (count : Nat) (cs : List Char) : Option (Char × List Char) := do
  let digits := cs.take count
  guard (digits.length = count)
  let n ← digits.foldlM (fun n c => (Text.hexValue? c).map fun v => n * 16 + v) 0
  guard (n < 0xD800 || (0xDFFF < n && n ≤ 0x10FFFF))
  some (Char.ofNat n, cs.drop count)

/-- What follows a backslash. -/
def escape? : List Char → Option (Char × List Char)
  | 'b' :: rest => some ('\x08', rest)
  | 't' :: rest => some ('\t', rest)
  | 'n' :: rest => some ('\n', rest)
  | 'f' :: rest => some ('\x0C', rest)
  | 'r' :: rest => some ('\r', rest)
  | '"' :: rest => some ('"', rest)
  | '\\' :: rest => some ('\\', rest)
  | 'u' :: rest => numbered? 4 rest
  | 'U' :: rest => numbered? 8 rest
  | _ => none

/-- A string after its opening quote, of which `read` is known, last character first. -/
def readBasic : Nat → List Char → List Char → Option (String × List Char)
  | 0, _, _ => none
  | fuel + 1, read, cs =>
    match cs with
    | '"' :: rest => some (String.ofList read.reverse, rest)
    | '\\' :: rest =>
      match escape? rest with
      | some (c, rest) => readBasic fuel (c :: read) rest
      | none => none
    | c :: rest => if isPlain c then readBasic fuel (c :: read) rest else none
    | [] => none

def readLiteral (cs : List Char) : Option (String × List Char) :=
  let inner := cs.takeWhile fun c => isPlain c && c ≠ '\''
  match cs.drop inner.length with
  | '\'' :: rest => some (String.ofList inner, rest)
  | _ => none

/-- After the blanks and line ends that a backslash at the end of a line joins. -/
def skipJoined : Nat → List Char → List Char
  | 0, cs => cs
  | fuel + 1, cs =>
    let rest := skipBlanks cs
    match lineEnd? rest with
    | some rest => skipJoined fuel rest
    | none => rest

/-- The end of a string of several lines: three marks, before which one or two more may stand that
belong to the string. -/
def closing? (mark : Char) (cs : List Char) : Option (List Char × List Char) :=
  let marks := (cs.takeWhile (· = mark)).take 5
  if marks.length < 3 then none else some (marks.drop 3, cs.drop marks.length)

def readBasicLines : Nat → List Char → List Char → Option (String × List Char)
  | 0, _, _ => none
  | fuel + 1, read, cs =>
    match closing? '"' cs with
    | some (more, rest) => some (String.ofList (more ++ read).reverse, rest)
    | none =>
      match lineEnd? cs with
      | some rest => readBasicLines fuel ('\n' :: read) rest
      | none =>
        match cs with
        | '\\' :: rest =>
          match lineEnd? (skipBlanks rest) with
          | some after => readBasicLines fuel read (skipJoined fuel after)
          | none =>
            match escape? rest with
            | some (c, rest) => readBasicLines fuel (c :: read) rest
            | none => none
        | c :: rest => if isPlain c then readBasicLines fuel (c :: read) rest else none
        | [] => none

def readLiteralLines : Nat → List Char → List Char → Option (String × List Char)
  | 0, _, _ => none
  | fuel + 1, read, cs =>
    match closing? '\'' cs with
    | some (more, rest) => some (String.ofList (more ++ read).reverse, rest)
    | none =>
      match lineEnd? cs with
      | some rest => readLiteralLines fuel ('\n' :: read) rest
      | none =>
        match cs with
        | c :: rest => if isPlain c then readLiteralLines fuel (c :: read) rest else none
        | [] => none

/-- After a line end that directly follows the opening of a string of several lines. -/
def skipFirstLineEnd (cs : List Char) : List Char := (lineEnd? cs).getD cs

/-- A string of any kind; `fuel` bounds its characters, as in all that follows. -/
def readString (fuel : Nat) (cs : List Char) : Option (String × List Char) :=
  match cs with
  | '"' :: '"' :: '"' :: rest => readBasicLines fuel [] (skipFirstLineEnd rest)
  | '"' :: rest => readBasic fuel [] rest
  | '\'' :: '\'' :: '\'' :: rest => readLiteralLines fuel [] (skipFirstLineEnd rest)
  | '\'' :: rest => readLiteral rest
  | _ => none

def isBare (c : Char) : Bool := c.isAlphanum || c = '_' || c = '-'

def readSimpleKey (fuel : Nat) (cs : List Char) : Option (String × List Char) :=
  match cs with
  | '"' :: rest => readBasic fuel [] rest
  | '\'' :: rest => readLiteral rest
  | _ =>
    let name := cs.takeWhile isBare
    if name.isEmpty then none else some (String.ofList name, cs.drop name.length)

/-- The parts of a key and the blanks around them, which dots join. -/
def readParts (fuel : Nat) : Nat → List Char → Option (List String × List Char)
  | 0, _ => none
  | parts + 1, cs =>
    match readSimpleKey fuel (skipBlanks cs) with
    | none => none
    | some (name, rest) =>
      match skipBlanks rest with
      | '.' :: rest => (readParts fuel parts rest).map fun (names, rest) => (name :: names, rest)
      | rest => some ([name], rest)

def readKey (fuel : Nat) (cs : List Char) : Option (List String × List Char) :=
  readParts fuel (maxDepth - 1) cs

/-- Digits of a class, with single underscores between them, after those in `read`, which come last
first. -/
def gatherDigits (isDigit : Char → Bool) (read : List Char) : List Char → List Char × List Char
  | c :: '_' :: d :: rest =>
    if isDigit c then
      if isDigit d then gatherDigits isDigit (c :: read) (d :: rest)
      else ((c :: read).reverse, '_' :: d :: rest)
    else (read.reverse, c :: '_' :: d :: rest)
  | c :: rest =>
    if isDigit c then gatherDigits isDigit (c :: read) rest else (read.reverse, c :: rest)
  | [] => (read.reverse, [])

def readDigits (isDigit : Char → Bool) (cs : List Char) : List Char × List Char :=
  gatherDigits isDigit [] cs

def maxInteger : Nat := 9223372036854775807

def readBased (base : Nat) (isDigit : Char → Bool) (cs : List Char) : Option (Toml × List Char) :=
  let (digits, rest) := readDigits isDigit cs
  let n := Text.numeral base (fun c => (Text.hexValue? c).getD 0) digits
  if digits.isEmpty || maxInteger < n then none else some (.integer n, rest)

def readSign : List Char → Bool × List Char
  | '-' :: rest => (true, rest)
  | '+' :: rest => (false, rest)
  | cs => (false, cs)

def readFraction : List Char → Option (List Char × List Char)
  | '.' :: rest =>
    let (digits, rest) := readDigits Char.isDigit rest
    if digits.isEmpty then none else some (digits, rest)
  | _ => none

def readExponent : List Char → Option (Int × List Char)
  | c :: rest =>
    if c = 'e' || c = 'E' then
      let (negative, rest) := readSign rest
      let (digits, rest) := readDigits Char.isDigit rest
      if digits.isEmpty then none
      else
        let n : Int := Double.exponentValue digits
        some (if negative then -n else n, rest)
    else none
  | [] => none

/-- A number in digits: an integer within sixty-four bits, or a float that is not too large. -/
def readDecimal (cs : List Char) : Option (Toml × List Char) :=
  let (negative, rest) := readSign cs
  let (whole, rest) := readDigits Char.isDigit rest
  if whole.isEmpty || (1 < whole.length && whole.head? = some '0') then none
  else
    let fraction := readFraction rest
    let afterFraction := (fraction.map (·.2)).getD rest
    let exponent := readExponent afterFraction
    if fraction.isNone && exponent.isNone then
      let n : Int := Text.digitsValue whole
      let value := if negative then -n else n
      if -(maxInteger + 1 : Int) ≤ value && value ≤ maxInteger then some (.integer value, rest)
      else none
    else
      let digits := (fraction.map (·.1)).getD []
      let power := (exponent.map (·.1)).getD 0
      let d := Double.ofDecimal negative (Text.digitsValue (whole ++ digits))
        (power - digits.length)
      if d.isInfinite && !negative then none
      else some (.float, (exponent.map (·.2)).getD afterFraction)

/-- Two digits whose number is within bounds. -/
def readTwo (low high : Nat) : List Char → Option (Nat × List Char)
  | a :: b :: rest =>
    if a.isDigit && b.isDigit then
      let n := Text.digitsValue [a, b]
      if low ≤ n && n ≤ high then some (n, rest) else none
    else none
  | _ => none

def expect (c : Char) : List Char → Option (List Char)
  | d :: rest => if d = c then some rest else none
  | [] => none

def isLeapYear (year : Nat) : Bool := year % 4 = 0 && (year % 100 ≠ 0 || year % 400 = 0)

def daysOfMonth (year month : Nat) : Nat :=
  if month = 2 then if isLeapYear year then 29 else 28
  else if month = 4 || month = 6 || month = 9 || month = 11 then 30
  else 31

def readTime (cs : List Char) : Option (List Char) := do
  let (_, rest) ← readTwo 0 23 cs
  let rest ← expect ':' rest
  let (_, rest) ← readTwo 0 59 rest
  let rest ← expect ':' rest
  let (_, rest) ← readTwo 0 60 rest
  match rest with
  | '.' :: after =>
    let digits := after.takeWhile Char.isDigit
    if digits.isEmpty then none else some (after.drop digits.length)
  | rest => some rest

def readOffset (cs : List Char) : Option (List Char) :=
  match cs with
  | 'Z' :: rest => some rest
  | 'z' :: rest => some rest
  | c :: rest =>
    if c = '+' || c = '-' then do
      let (_, rest) ← readTwo 0 23 rest
      let rest ← expect ':' rest
      let (_, rest) ← readTwo 0 59 rest
      some rest
    else some cs
  | [] => some []

def readDate (cs : List Char) : Option (List Char) := do
  let year := cs.take 4
  guard (year.length = 4 && year.all Char.isDigit)
  let rest ← expect '-' (cs.drop 4)
  let (month, rest) ← readTwo 1 12 rest
  let rest ← expect '-' rest
  let (_, rest) ← readTwo 1 (daysOfMonth (Text.digitsValue year) month) rest
  some rest

/-- A date, a time, or both with or without an offset. -/
def readDatetime (cs : List Char) : Option (List Char) :=
  match readDate cs with
  | some (c :: rest) =>
    if c = 'T' || c = 't' || c = ' ' then
      match readTime rest with
      | some rest => readOffset rest
      | none => if c = ' ' then some (c :: rest) else none
    else some (c :: rest)
  | some [] => some []
  | none => readTime cs

def readWord (word : String) (cs : List Char) : Option (List Char) :=
  if cs.take word.length = word.toList then some (cs.drop word.length) else none

def readNumber (cs : List Char) : Option (Toml × List Char) :=
  match readDatetime cs with
  | some rest => some (.datetime, rest)
  | none =>
    match cs with
    | '0' :: 'x' :: rest => readBased 16 (fun c => (Text.hexValue? c).isSome) rest
    | '0' :: 'o' :: rest => readBased 8 (fun c => '0' ≤ c && c ≤ '7') rest
    | '0' :: 'b' :: rest => readBased 2 (fun c => c = '0' || c = '1') rest
    | _ =>
      let unsigned := (readSign cs).2
      match (readWord "inf" unsigned).or (readWord "nan" unsigned) with
      | some rest => some (.float, rest)
      | none => readDecimal cs

mutual

def readValue : Nat → Nat → List Char → Option (Toml × List Char)
  | 0, _, _ => none
  | fuel + 1, depth, cs =>
    match cs with
    | [] => none
    | '[' :: rest =>
      if maxDepth ≤ depth + 1 then none
      else readItems fuel (depth + 1) [] rest
    | '\x7b' :: rest =>
      if maxDepth ≤ depth + 1 then none
      else match skipBlanks rest with
        | '\x7d' :: rest => some (.table .inline [], rest)
        | rest => readInline fuel (depth + 1) [] rest
    | 't' :: rest => (readWord "rue" rest).map fun rest => (.boolean true, rest)
    | 'f' :: rest => (readWord "alse" rest).map fun rest => (.boolean false, rest)
    | c :: rest =>
      if c = '"' || c = '\'' then
        (readString fuel (c :: rest)).map fun (s, rest) => (.string s, rest)
      else readNumber (c :: rest)

/-- An array of which `read` is known, the last item first. A comma may follow the last item. -/
def readItems : Nat → Nat → List Toml → List Char → Option (Toml × List Char)
  | 0, _, _, _ => none
  | fuel + 1, depth, read, cs =>
    match skipLines fuel cs with
    | ']' :: rest => some (.array read.reverse, rest)
    | cs =>
      match readValue fuel depth cs with
      | none => none
      | some (item, rest) =>
        match skipLines fuel rest with
        | ',' :: rest => readItems fuel depth (item :: read) rest
        | ']' :: rest => some (.array (item :: read).reverse, rest)
        | _ => none

/-- The entries of a table written as a value, and its closing brace. -/
def readInline : Nat → Nat → Entries → List Char → Option (Toml × List Char)
  | 0, _, _, _ => none
  | fuel + 1, depth, entries, cs =>
    match readKey fuel cs with
    | some (key, '=' :: rest) =>
      match readValue fuel depth (skipBlanks rest) with
      | none => none
      | some (value, rest) =>
        match store .inline key value entries with
        | none => none
        | some entries =>
          match skipBlanks rest with
          | ',' :: rest => readInline fuel depth entries rest
          | '\x7d' :: rest => some (.table .inline entries, rest)
          | _ => none
    | _ => none

end

/-- The header of a table or of an element of an array of tables, after its first bracket. -/
def readHeader (fuel : Nat) (d : Draft) (cs : List Char) : Option (Draft × List Char) :=
  match cs with
  | '[' :: rest => do
    let (key, rest) ← readKey fuel rest
    let rest ← (expect ']' rest).bind (expect ']')
    let d ← d.openElement key
    some (d, rest)
  | rest => do
    let (key, rest) ← readKey fuel rest
    let rest ← expect ']' rest
    let d ← d.openTable key
    some (d, rest)

/-- One entry of the current table. A value takes two turns for a character. -/
def readEntry (fuel : Nat) (d : Draft) (cs : List Char) : Option (Draft × List Char) := do
  let (key, rest) ← readKey fuel cs
  let rest ← expect '=' rest
  let (value, rest) ← readValue (2 * fuel) 0 (skipBlanks rest)
  let d ← d.store key value
  some (d, rest)

def readLines : Nat → Draft → List Char → Option Entries
  | 0, _, _ => none
  | fuel + 1, d, cs =>
    match skipLines fuel cs with
    | [] => d.finish
    | '[' :: rest =>
      match readHeader fuel d rest with
      | none => none
      | some (d, rest) =>
        match endLine? rest with
        | some rest => readLines fuel d rest
        | none => none
    | cs =>
      match readEntry fuel d cs with
      | none => none
      | some (d, rest) =>
        match endLine? rest with
        | some rest => readLines fuel d rest
        | none => none

/-- The root table of a document, which may start with a byte order mark. -/
def ofText? (text : String) : Option Entries :=
  let cs := match text.toList with
    | '\uFEFF' :: rest => rest
    | cs => cs
  readLines (cs.length + 2) Draft.start cs

end PeerMesh.Toml
