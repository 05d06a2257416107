import PeerMesh.Files
import PeerMesh.Json.Document
import PeerMesh.Log.Event

/-! The journal: log events in a file, one JSON object on each line. A journal that has grown to its
limit is put aside under a number before the next event is written, and the files put aside before
move on by one. -/

namespace PeerMesh.Log

/-- The name of the kind of event, and the fields of that kind alone. -/
def Body.toJson : Body → String × List (String × Json)
  | .network action address detail =>
    ("network", [("action", .string action), ("addr", Json.optionalText address),
      ("detail", Json.optionalText detail)])
  | .mapping action peer output detail =>
    ("mapping", [("action", .string action), ("peer", Json.optionalText peer),
      ("output", Json.optionalText output), ("detail", Json.optionalText detail)])
  | .command peer keyword accepted detail =>
    ("command", [("peer", .string peer), ("command", .string keyword),
      ("accepted", .bool accepted), ("detail", Json.optionalText detail)])
  | .system action detail =>
    ("system", [("action", .string action), ("detail", Json.optionalText detail)])

def Event.toJson (e : Event) : Json :=
  let time := Json.object [("secs_since_epoch", Json.ofNat e.stamp.seconds),
    ("nanos_since_epoch", Json.ofNat e.stamp.nanoseconds)]
  let circumstances := Json.object [("ts", time), ("level", .string e.entry.level.name),
    ("corr_id", Json.optionalText e.stamp.correlation), ("session_id", .string e.stamp.session),
    ("component", .string e.entry.component), ("agent", Json.optionalText e.entry.agent),
    ("suppress_console", .bool e.entry.quiet)]
  let (kind, fields) := e.entry.body.toJson
  .object (("type", .string kind) :: ("meta", circumstances) :: fields)

def Event.journalLine (e : Event) : Bytes := (e.toJson.compact ++ "\n").toByteArray

structure JournalSettings where
  path : String
  rotate : Bool
  /-- A file of so many bytes is put aside. -/
  maxBytes : Nat
  /-- So many of the files put aside are moved on. -/
  backups : Nat
  deriving DecidableEq, Repr

structure Journal where
  settings : JournalSettings
  /-- The place of the open file. Nothing is written while there is none. -/
  target : Option Path
  files : Files
  deriving DecidableEq

namespace Journal

def path (j : Journal) : Path := Path.ofText j.settings.path

/-- Opens the file at its end, and leaves the journal closed where that fails. -/
def openFile (j : Journal) : Journal :=
  match j.files.openForAppend j.settings.path with
  | .ok (files, place) => { j with files := files, target := some place }
  | .error _ => { j with target := none }

/-- Makes the directory of the journal, as far as possible, and opens it. -/
def start (settings : JournalSettings) (files : Files) : Journal :=
  let directory := (Path.ofText settings.path).parent
  openFile ⟨settings, none, (files.makeDirectories directory).1⟩

/-- The extension of the file that is put aside for the `n`th time. -/
def extension (n : Nat) : String := s!"jsonl.{n}"

/-- The name under which the file is put aside for the `n`th time. -/
def backup (path : Path) (n : Nat) : Path := path.withExtension (extension n)

/-- Moves a file to where the journal at a path puts its file aside for the `n`th time. -/
def moveTo (text : String) (files : Files) (source : Path) (n : Nat) : Except FileFault Files :=
  if Path.maxSize < Path.sizeWithExtension text (extension n) then .error .nameTooLong
  else files.rename source (backup (Path.ofText text) n)

/-- Moves the file put aside under a number on to the next, over what is there. -/
def moveOn (text : String) (files : Files) (n : Nat) : Files :=
  match moveTo text files (backup (Path.ofText text) n) (n + 1) with
  | .ok moved => moved
  | .error _ => files

/-- Moves all files put aside on, from the last to the first. -/
def moveAllOn (text : String) (backups : Nat) (files : Files) : Files :=
  ((List.range backups).map (· + 1)).reverse.foldl (moveOn text) files

/-- Moves what is at the journal's path to the first number. A path that ends in a dot cannot be moved. -/
def moveFirst (settings : JournalSettings) (files : Files) : Except FileFault Files :=
  if Path.endsInDot settings.path then .error .busy
  else moveTo settings.path files (Path.ofText settings.path) 1

/-- Closes the file, puts it aside and opens a new one. Where it cannot be put aside it stays
closed. -/
def putAside (j : Journal) : Journal :=
  let files := moveAllOn j.settings.path j.settings.backups j.files
  match moveFirst j.settings files with
  | .ok moved => openFile { j with files := moved, target := none }
  | .error _ => { j with files := files, target := none }

/-- Whether what is at the journal's path has grown to the limit. -/
def isFull (j : Journal) : Bool :=
  match j.files.size? j.settings.path with
  | some size => j.settings.rotate && j.settings.maxBytes ≤ size
  | none => false

def rotateIfFull (j : Journal) : Journal := if j.isFull then j.putAside else j

def write (j : Journal) (e : Event) : Journal :=
  let j := j.rotateIfFull
  match j.target with
  | some place => { j with files := j.files.append place e.journalLine }
  | none => j

end Journal
end PeerMesh.Log
