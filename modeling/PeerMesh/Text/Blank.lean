/-! Blank characters: the Unicode property White_Space, and the trimming and splitting of text
that use it. Every function here reads a text as its list of characters. -/

namespace PeerMesh.Text

/-- The twenty-five characters with the property White_Space. -/
def isBlank (c : Char) : Bool :=
  let n := c.toNat
  (0x09 ≤ n && n ≤ 0x0D) || n == 0x20 || n == 0x85 || n == 0xA0 || n == 0x1680 ||
    (0x2000 ≤ n && n ≤ 0x200A) || n == 0x2028 || n == 0x2029 || n == 0x202F || n == 0x205F ||
    n == 0x3000

/-- Without the blank characters it starts with. -/
def trimStart (cs : List Char) : List Char := cs.dropWhile isBlank

/-- Without the blank characters it ends with. -/
def trimEnd (cs : List Char) : List Char := (cs.reverse.dropWhile isBlank).reverse

def trim (cs : List Char) : List Char := trimEnd (trimStart cs)

/-- Nothing but blank characters. -/
def isAllBlank (cs : List Char) : Bool := cs.all isBlank

def trimmed (s : String) : String := String.ofList (trim s.toList)

def trimmedEnd (s : String) : String := String.ofList (trimEnd s.toList)

/-- A text that holds no character to be read: it is empty or blank throughout. -/
def isBlankText (s : String) : Bool := isAllBlank s.toList

/-- The maximal runs of characters that fail `separator`, in order. -/
def runs (separator : Char → Bool) : List Char → List Char → List (List Char)
  | [], [] => []
  | [], current => [current.reverse]
  | c :: rest, current =>
    if separator c then
      if current.isEmpty then runs separator rest [] else current.reverse :: runs separator rest []
    else runs separator rest (c :: current)

/-- The words of a text: its maximal runs without a blank character. -/
def words (s : String) : List String := (runs isBlank s.toList []).map String.ofList

/-- Splits at the first occurrence of `mark`, which belongs to neither part; with none, there is
no second part. -/
def splitAtFirst (mark : Char) (cs : List Char) : List Char × Option (List Char) :=
  (cs.takeWhile (· ≠ mark), (cs.dropWhile (· ≠ mark)).tail?)

/-- Small Latin letters for capital ones; every other character stays. -/
def lowerAscii (s : String) : String := String.ofList (s.toList.map Char.toLower)

/-- Capital Latin letters for small ones; every other character stays. -/
def upperAscii (s : String) : String := String.ofList (s.toList.map Char.toUpper)

end PeerMesh.Text
