import PeerMesh.Bytes
import PeerMesh.Table
import PeerMesh.Text.Blank
import PeerMesh.Text.Utf8

/-! Files and directories, held under their paths. A path is the list of its parts; the path without
parts is the directory that all others lie in, and it is always there. -/

namespace PeerMesh

inductive FileFault where
  | missing
  | isDirectory
  | notDirectory
  | notText
  | nameTooLong
  | nulInName
  | addressInUse
  | busy
  | notEmpty
  | insideItself
  deriving DecidableEq, Repr

def FileFault.message : FileFault → String
  | .missing => "ENOENT"
  | .isDirectory => "EISDIR"
  | .notDirectory => "Not a directory (os error 20)"
  | .notText => "EUTF8"
  | .nameTooLong => "File name too long (os error 36)"
  | .nulInName => "file name contained an unexpected NUL byte"
  | .addressInUse => "EADDRINUSE"
  | .busy => "Device or resource busy (os error 16)"
  | .notEmpty => "Directory not empty (os error 39)"
  | .insideItself => "Invalid argument (os error 22)"

inductive FileNode where
  | file (content : Bytes)
  | directory
  deriving DecidableEq

structure Files where
  nodes : Table FileNode
  deriving DecidableEq

abbrev Path := List String

namespace Path

/-- What stands between the slashes of a path's text. Empty parts mean nothing. -/
def parts (text : String) : List String :=
  (Text.runs (· = '/') text.toList []).map String.ofList

/-- The parts of a path's text. Single dots mean nothing. -/
def ofText (text : String) : Path :=
  let parts := (parts text).filter (· ≠ ".")
  if text.toList.head? = some '/' then "/" :: parts else parts

def endsInDot (text : String) : Bool := (parts text).getLast? = some "."

def endsInSlash (text : String) : Bool := text.toList.getLast? = some '/'

def namesDirectory (text : String) : Bool := endsInDot text || endsInSlash text

/-- The text that stands for a path in the table. -/
def key (path : Path) : String := "/".intercalate path

def parent (path : Path) : Path := path.dropLast

def up (path : Path) : Path :=
  if path.all (· = "..") then path ++ [".."]
  else if path = ["/"] then path
  else path.dropLast

/-- The parts before the last dot of a file's name, which is not the name's first character. -/
def stem (name : String) : String :=
  let reversed := name.toList.reverse
  match reversed.dropWhile (· ≠ '.') with
  | '.' :: front => if front.isEmpty then name else String.ofList front.reverse
  | _ => name

/-- The path whose last part has another extension. Where only a dot stands before the extension,
what is left without it is the way up. -/
def withExtension (path : Path) (extension : String) : Path :=
  match path.getLast? with
  | some name =>
    if name = ".." then path
    else if stem name = "." then path.dropLast ++ [".."]
    else path.dropLast ++ [stem name ++ "." ++ extension]
  | none => path

/-- How many bytes the text of a path may have. -/
def maxSize : Nat := 4095

/-- The size of a path's text whose last part has another extension. -/
def sizeWithExtension (text extension : String) : Nat :=
  match (ofText text).getLast? with
  | some name => text.utf8ByteSize - name.utf8ByteSize + (stem name ++ "." ++ extension).utf8ByteSize
  | none => text.utf8ByteSize

/-- Whether a path ends in a name: not on the way up, and not at the top. -/
def isNamed (path : Path) : Bool := path.getLast?.any (· ≠ "..") && path ≠ ["/"]

end Path

namespace Files

def empty : Files := ⟨Table.empty⟩

/-- What is at a place. Above the directory that all others lie in there are directories, of which
nothing else is known. -/
def node? (f : Files) (place : Path) : Option FileNode :=
  if place.all (· = "..") || place = ["/"] then some .directory else f.nodes.get? place.key

def maxNameSize : Nat := 255

/-- Goes on from a directory by the parts of a path, each of which but the last must name a
directory or go up. -/
def walk (f : Files) : Path → List String → Except FileFault Path
  | here, [] => .ok here
  | here, part :: rest =>
    if part = ".." then f.walk here.up rest
    else if rest.isEmpty then .ok (here ++ [part])
    else if maxNameSize < part.utf8ByteSize then .error .nameTooLong
    else
      match f.node? (here ++ [part]) with
      | some .directory => f.walk (here ++ [part]) rest
      | some (.file _) => .error .notDirectory
      | none => .error .missing

def locate (f : Files) (path : Path) : Except FileFault Path := f.walk [] path

/-- The place that a path leads to, whose name may not be too long. -/
def place? (f : Files) (path : Path) : Except FileFault Path :=
  match f.locate path with
  | .ok place =>
    if place.getLast?.any (maxNameSize < ·.utf8ByteSize) then .error .nameTooLong else .ok place
  | .error fault => .error fault

def textFault? (text : String) : Option FileFault :=
  if text.toList.contains '\x00' then some .nulInName
  else if text.isEmpty then some .missing
  else if Path.maxSize < text.utf8ByteSize then some .nameTooLong
  else none

def read (f : Files) (text : String) : Except FileFault Bytes :=
  match textFault? text with
  | some fault => .error fault
  | none =>
    match f.place? (Path.ofText text) with
    | .error fault => .error fault
    | .ok place =>
      match f.node? place with
      | some (.file content) =>
        if Path.namesDirectory text then .error .notDirectory else .ok content
      | some .directory => .error .isDirectory
      | none => .error .missing

def readText (f : Files) (text : String) : Except FileFault String :=
  match f.read text with
  | .error fault => .error fault
  | .ok bytes =>
    match Text.Utf8.decode? bytes with
    | some s => .ok s
    | none => .error .notText

/-- The place at which a file can be written. A slash at the end asks for a directory, whatever is
there. -/
def writable (f : Files) (text : String) : Except FileFault Path :=
  match textFault? text with
  | some fault => .error fault
  | none =>
    match f.locate (Path.ofText text) with
    | .error fault => .error fault
    | .ok place =>
      if Path.endsInSlash text && !Path.endsInDot text then .error .isDirectory
      else if place.getLast?.any (maxNameSize < ·.utf8ByteSize) then .error .nameTooLong
      else
        match f.node? place with
        | some .directory => .error .isDirectory
        | some (.file _) => if Path.endsInDot text then .error .notDirectory else .ok place
        | none => if Path.endsInDot text then .error .missing else .ok place

def writeFault? (f : Files) (text : String) : Option FileFault :=
  match f.writable text with
  | .ok _ => none
  | .error fault => some fault

def put (f : Files) (place : Path) (content : Bytes) : Files :=
  ⟨f.nodes.insert place.key (.file content)⟩

def write (f : Files) (text : String) (content : Bytes) : Except FileFault Files :=
  (f.writable text).map fun place => f.put place content

def content? (f : Files) (place : Path) : Option Bytes :=
  match f.node? place with
  | some (.file content) => some content
  | _ => none

/-- A directory takes up one block. -/
def directorySize : Nat := 4096

def size? (f : Files) (text : String) : Option Nat :=
  match textFault? text with
  | some _ => none
  | none =>
    match f.locate (Path.ofText text) with
    | .error _ => none
    | .ok place =>
      match f.node? place with
      | some (.file content) => if Path.namesDirectory text then none else some content.size
      | some .directory => some directorySize
      | none => none

/-- Writes at the end of the file at a place; it is made if it was missing. -/
def append (f : Files) (place : Path) (content : Bytes) : Files :=
  f.put place ((f.content? place).getD ByteArray.empty ++ content)

/-- Opens a file to write at its end, and tells its place. -/
def openForAppend (f : Files) (text : String) : Except FileFault (Files × Path) :=
  (f.writable text).map fun place => (f.append place ByteArray.empty, place)

/-- Makes the directories that the parts of a path name, as far as no file is in the way, and tells
where they lead. -/
def makeFrom (f : Files) : Path → List String → Files × Option Path
  | here, [] => (f, some here)
  | here, part :: rest =>
    if part = ".." then f.makeFrom here.up rest
    else if maxNameSize < part.utf8ByteSize then (f, none)
    else
      let next := here ++ [part]
      match f.node? next with
      | some .directory => f.makeFrom next rest
      | some (.file _) => (f, none)
      | none => (⟨f.nodes.insert next.key .directory⟩ : Files).makeFrom next rest

/-- Makes a directory and those on the way to it. The second part tells its place, if it is there.
-/
def makeDirectories (f : Files) (path : Path) : Files × Option Path := f.makeFrom [] path

/-- Puts a file in place, with the directories that it needs. -/
def place (f : Files) (text : String) (content : Bytes) : Files :=
  match f.makeDirectories (Path.ofText text).parent with
  | (made, some directory) =>
    match (Path.ofText text).getLast? with
    | some name => made.put (directory ++ [name]) content
    | none => made
  | (made, none) => made

/-- Whether the second path is the first or lies below it. -/
def isBelow (top path : String) : Bool := path = top || path.startsWith (top ++ "/")

/-- Whether nothing lies below a place. -/
def isBare (f : Files) (place : Path) : Bool :=
  f.nodes.entries.all fun (key, _) => key = place.key || !isBelow place.key key

/-- An entry after a move of what is at one key, and of what lies below it, to another. -/
def rebase (source target : String) (entry : String × FileNode) : String × FileNode :=
  if isBelow source entry.1 then (target ++ entry.1.drop source.length, entry.2) else entry

/-- Moves what is at a path, with all that lies below it. A file may replace a file, and a directory may
replace a directory below which nothing lies. -/
def rename (f : Files) (source target : Path) : Except FileFault Files :=
  match f.place? source, f.place? target with
  | .error fault, _ => .error fault
  | _, .error fault => .error fault
  | .ok here, .ok there =>
    if !source.isNamed || !target.isNamed then .error .busy
    else
      match f.node? here, f.node? there with
      | none, _ => .error .missing
      | some (.file _), some .directory => .error .isDirectory
      | some .directory, some (.file _) => .error .notDirectory
      | some (.file content), _ => .ok ((⟨f.nodes.erase here.key⟩ : Files).put there content)
      | some .directory, replaced =>
        if here = there then .ok f
        else if isBelow here.key there.key then .error .insideItself
        else if replaced.isSome && !f.isBare there then .error .notEmpty
        else .ok ⟨Table.ofList (f.nodes.entries.map (rebase here.key there.key))⟩

/-- Every file of the directory that all others lie in, with its content. -/
def contents (f : Files) : List (String × Bytes) :=
  f.nodes.entries.filterMap fun (key, node) =>
    match node with
    | .file content => if key.startsWith "../" then none else some (key, content)
    | .directory => none

end Files
end PeerMesh
