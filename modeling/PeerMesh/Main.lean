import PeerMesh.CommandLine.Session
import PeerMesh.Node.Identity

/-! The program. It runs one agent, whose node hears another node of this host line by line on
standard input; the end of the input shuts the agent down. Files are read before the agent starts,
and those that it saves are written when it has ended. -/

namespace PeerMesh.CommandLine

def readInto (files : Files) (path : String) : IO Files := do
  let .ok content ← (IO.FS.readBinFile path).toBaseIO | return files
  return files.place path content

/-- Reads the configuration and the documents that it or the arguments name. -/
def readFiles (arguments : List String) : IO Files := do
  let .ok (.run a) := invocation arguments | return Files.empty
  let files ← readInto Files.empty a.configPath
  let some (config, _) := a.readConfig files | return files
  ((a.definitionPath config).toList ++ (a.mappingPath config).toList).foldlM readInto files

def writeFiles (before after : Files) : IO Unit :=
  (after.contents.filter fun file => !before.contents.contains file).forM fun (path, content) =>
    discard (IO.FS.writeBinFile path content).toBaseIO

/-- Prints what a session has to report beyond the lines that have been printed. -/
def printReport (s : Session) (printed : Nat) : IO Nat := do
  let lines := Session.report s.told
  (lines.drop printed).forM IO.println
  return lines.length

/-- Follows the other node's lines until the run or the input ends. -/
partial def listen (input : IO.FS.Stream) (s : Session) (printed : Nat) : IO Session := do
  let printed ← printReport s printed
  if s.isOver then return s
  let line ← input.getLine
  if line.isEmpty then
    let last := s.hangUp 1
    discard (printReport last printed)
    return last
  listen input (s.receive 1 line) printed

def runSession (files : Files) (s : Session) : IO UInt32 := do
  IO.println s.greeting
  let last ← listen (← IO.getStdin) (s.accept 1 .localhost) 0
  IO.println last.farewell
  writeFiles files last.files
  return 0

/-- The first port that is given to a publisher without one of its own. -/
def freePort : Nat := 49152

end PeerMesh.CommandLine

open PeerMesh PeerMesh.CommandLine

def main (arguments : List String) : IO UInt32 := do
  let files ← readFiles arguments
  let id := Node.idOfRandom (← IO.getRandomBytes 16).toList
  let temporary := (← IO.getEnv "TMPDIR").getD "/tmp"
  let process : ProcessIdentity := ⟨"", " ".intercalate ("agentmesh" :: arguments), none⟩
  let opening := openRun arguments files id temporary process freePort
  opening.printed.forM IO.println
  match opening.outcome with
  | .ok session => runSession files session
  | .error ending =>
    unless ending.complaint.isEmpty do IO.eprintln ending.complaint
    return ending.code.toUInt32
