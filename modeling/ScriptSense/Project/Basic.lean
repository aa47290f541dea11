import ScriptSense.Analysis.Replay
import ScriptSense.Analysis.Scene
import ScriptSense.Data.Json
import ScriptSense.Diagnostic
import ScriptSense.Disk
import ScriptSense.Settings.Basic
import ScriptSense.Text.Utf8

/-! A project: a folder with compiled records, and the database built from them. The journal holds
what has happened, oldest first. -/
namespace ScriptSense

/-- Whether changes of record files are being watched for; a watcher whose source of changes has
ended is finished until it is stopped. -/
inductive Watcher where
  | absent
  | running
  | finished
  deriving DecidableEq, Repr

structure Project where
  root : FilePath
  settings : Settings
  parser : Parser
  disk : Disk
  database : Database
  /-- The class each record file described when it was last read. -/
  classOfFile : Assoc String
  initialized : Bool
  watcher : Watcher
  journal : List Event

namespace Project

inductive Failure where
  | badName (name : Namespace.BadName)
  | undecodable (fault : Utf8.Fault)
  | badPattern (pattern : Disk.BadPattern)
  | nameless (path : FilePath)
  | obstacle (o : Disk.Obstacle) (path : FilePath)
  /-- Data with overlong integers or overly deep nesting. -/
  | excess (fault : Json.Fault)
  /-- A path with a character that no path may have. -/
  | nullByte
  deriving DecidableEq, Repr

def Failure.message : Failure → String
  | badName e => e.message
  | undecodable f => f.message
  | badPattern p => p.message
  | nameless path => "PosixPath(" ++ Text.quotedString path.toText ++ ") has an empty name"
  | obstacle o path => o.message path.toText
  | excess fault => fault.message
  | nullByte => "embedded null byte"

def fresh (root : FilePath) (settings : Settings) (parser : Parser) (disk : Disk) : Project where
  root := root
  settings := settings
  parser := parser
  disk := disk
  database := .empty settings.metadata.implicitRoots
  classOfFile := []
  initialized := false
  watcher := .absent
  journal := []

def note (p : Project) (events : List Event) : Project :=
  { p with journal := p.journal ++ events }

def isWatching (p : Project) : Bool := p.watcher == .running

def classNames (p : Project) : List String := p.database.names.classNames

def place? (p : Project) (path : FilePath) : Option (List String) :=
  (path.relativeTo? p.root).map (·.parts)

def find (p : Project) (path : FilePath) : Except Failure (Option Disk) :=
  match p.place? path with
  | none => .ok none
  | some place =>
    match p.disk.lookup place with
    | .ok found => .ok found
    | .error o => .error (.obstacle o path)

def ingest (p : Project) (r : ClassRecord) : Except Failure Project :=
  match p.database.ingest r with
  | .ok (database, event) => .ok ({ p with database }.note [event])
  | .error e => .error (.badName e)

def remove (p : Project) (name : String) : Project :=
  match p.database.remove name with
  | some (database, event) => { p with database }.note [event]
  | none => p

def scene (p : Project) (source : List Char) : Scene := ⟨p.database.names, p.parser, source⟩

def follow {α : Type} (p : Project) (answer : Traced α) : α × Project :=
  let (database, events) := p.database.replay answer.steps
  (answer.value, { p with database }.note events)

def sourceFile (className : String) : Except Failure FilePath :=
  let segments := (Text.splitAt '.' className.toList).map String.ofList
  let path := segments.foldl (fun (acc : FilePath) s => acc.join (.ofText s)) ⟨0, []⟩
  match path.parts.getLast? with
  | none => .error (.nameless path)
  | some name => .ok { path with parts := path.parts.dropLast ++ [name ++ ".js"] }

/-- The first of some folders of sources that has a file. -/
def firstWith (p : Project) (file : FilePath) : List String → Except Failure (Option FilePath)
  | [] => .ok none
  | dir :: rest => do
    let path := (FilePath.ofText dir).join file
    if path.isAbsolute then p.firstWith file rest
    else if (← p.find (p.root.join path)).any (·.isFile) then return some path
    else p.firstWith file rest

/-- The source file of a class, seen from the root; the first folder of sources that has it wins. -/
def sourcePath (p : Project) (className : String) : Except Failure (Option FilePath) := do
  p.firstWith (← sourceFile className) p.settings.metadata.sourceDirs

end Project
end ScriptSense
