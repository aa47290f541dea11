import ScriptSense.Disk
import ScriptSense.Event
import ScriptSense.Log.Line
import ScriptSense.Settings.Basic
import ScriptSense.Text.Quoted

/-! A log with its outputs. An event below the level of the log is dropped; each output then
applies its own level. While a request is being answered, its id is written with every event. -/
namespace ScriptSense

structure Log where
  /-- The outputs that were asked for; before that, all events go to the standard output. -/
  outputs : Option Settings.Logging
  /-- Entries that are written with every event that lacks them. -/
  bound : Assoc Value
  request : Option String
  /-- How many ids have been drawn. -/
  drawn : Nat
  stdout : List Log.Line
  stderr : List Log.Line
  /-- The lines of each file, by its path. -/
  files : Assoc (List Log.Line)
  /-- The folders that are there, with the folders around them. -/
  folders : List FilePath
  deriving Repr

namespace Log

def fresh (folders : List FilePath) : Log := ⟨none, [], none, 0, [], [], [], folders⟩

inductive Refusal where
  | taken (path : FilePath)
  | blocked (o : Disk.Obstacle) (path : FilePath)
  deriving DecidableEq, Repr

def Refusal.message : Refusal → String
  | taken path => "[Errno 17] File exists: " ++ Text.quotedString path.toText
  | blocked o path => o.message path.toText

/-- A path without double dots, each of which takes the part before it away. -/
def straightened (path : FilePath) : FilePath :=
  { path with parts := path.parts.foldl (fun acc part =>
      if part == ".." then acc.dropLast else acc ++ [part]) [] }

def isFolder (l : Log) (path : FilePath) : Bool :=
  path.parts.isEmpty || l.folders.any fun f => path.parts.isPrefixOf f.parts

def isFile (l : Log) (path : FilePath) : Bool := l.files.has path.toText

def makeFolder (l : Log) (path : FilePath) : Except Refusal Log :=
  let place := straightened path
  let around := (List.range place.parts.length).map fun n =>
    { place with parts := place.parts.take n }
  if l.isFolder place then .ok l
  else if l.isFile place then .error (.taken path)
  else if around.any l.isFile then .error (.blocked .throughFile path)
  else if path.parts.any Disk.isTooLong then .error (.blocked .nameTooLong path)
  else .ok { l with folders := l.folders ++ [place] }

def openFile (l : Log) (path : FilePath) : Except Refusal Log := do
  let l ← l.makeFolder { path with parts := path.parts.dropLast }
  let place := straightened path
  if l.isFolder place then .error (.blocked .isFolder place)
  else if place.parts.any Disk.isTooLong then .error (.blocked .nameTooLong place)
  else return { l with files := l.files.putNew place.toText [] }

def append (l : Log) (lines : List Line) : Settings.Destination → Log
  | .stdout => { l with stdout := l.stdout ++ lines }
  | .stderr => { l with stderr := l.stderr ++ lines }
  | .file path =>
    let name := (straightened path).toText
    { l with files := l.files.put name ((l.files.get? name).getD [] ++ lines) }

def openOutput (l : Log) : Settings.Destination → Except Refusal Log
  | .stdout | .stderr => .ok l
  | .file path => l.openFile path

/-- Opens outputs in order; those before one that fails stay open. -/
def openOutputs (l : Log) (settings : Settings.Logging) (opened : List Settings.Output) :
    List Settings.Output → Option Refusal × Log
  | [] => (none, { l with outputs := some { settings with outputs := opened } })
  | o :: rest =>
    match l.openOutput o.destination with
    | .ok l => openOutputs l settings (opened ++ [o]) rest
    | .error e => (some e, { l with outputs := some { settings with outputs := opened } })

def configure (l : Log) (settings : Settings.Logging) : Option Refusal × Log :=
  l.openOutputs settings [] settings.outputs

def bind (l : Log) (fields : Assoc Value) : Log := { l with bound := l.bound.putAll fields }

/-- The entries of an event. Level and time are the event's own whatever its fields say, and an
event may be nothing. -/
def entries (l : Log) (time : String) (level : Level) (event : Value) (fields : Assoc Value) :
    Assoc Value :=
  let named :=
    match event with
    | .null => fields
    | v => fields.put "event" v
  let all := l.bound.foldl (fun acc b => acc.putNew b.1 b.2) named
  (all.put "level" (.str level.name)).put "timestamp" (.str time)

def withRequest (l : Log) (entries : Assoc Value) : Assoc Value :=
  match l.request with
  | some id => entries.put "request_id" (.str id)
  | none => entries

def formatted (format : Settings.Format) (entries : Assoc Value) : List Line :=
  match format with
  | .json => [.object entries]
  | .console => linesOf (readable narrowColumns entries)

/-- The least level that reaches the standard error if there is no output. -/
def lastResort : Level := .warning

/-- Hands an event to the outputs that take its level. Without any output, `bare` goes to the
standard error if the event is grave enough. -/
def deliver (l : Log) (settings : Settings.Logging) (level : Level) (entries : Assoc Value)
    (bare : String) : Log :=
  if settings.outputs.isEmpty then
    if level.reaches lastResort then l.append (linesOf bare) .stderr else l
  else
    settings.outputs.foldl (fun l o =>
      if level.reaches (o.level.getD settings.level) then
        l.append (formatted o.format entries) o.destination
      else l) l

def reserved : List String := ["_record", "_from_structlog"]

def write (l : Log) (time : String) (level : Level) (event : Value) (fields : Assoc Value) : Log :=
  let entries := l.entries time level event fields
  match l.outputs with
  | none => l.append (linesOf (readable wideColumns entries)) .stdout
  | some settings =>
    if level.reaches settings.level then
      let entries := l.withRequest entries
      let kept := entries.filter fun e => !reserved.contains e.1
      l.deliver settings level kept (Value.map entries).text
    else l

def record (l : Log) (time : String) (e : Event) : Log :=
  l.write time e.level (.str e.name) e.fields

/-- How an event is reported: by its level, or as an error that happened just now. -/
inductive Manner where
  | level (l : Level)
  | failure
  deriving DecidableEq, Repr

/-- A field with a name that is taken, and what took it. -/
structure Clash where
  taker : String
  name : String
  deriving DecidableEq, Repr

def Clash.message (c : Clash) : String :=
  c.taker ++ "() got multiple values for argument " ++ Text.quotedString c.name

def takenNames : List String := ["self", "event"]

def clash? (l : Log) (manner : Manner) (fields : Assoc Value) : Option Clash :=
  let level : Level :=
    match manner with
    | .level found => found
    | .failure => .error
  let dropped := l.outputs.any fun settings => !level.reaches settings.level
  let taker :=
    if manner == .failure then "exception"
    else if dropped then "_nop"
    else "_make_filtering_bound_logger.<locals>.make_method.<locals>.meth"
  match fields.find? fun f => takenNames.contains f.1 with
  | some f => some ⟨taker, f.1⟩
  | none =>
    if !dropped && fields.has "method_name" then
      some ⟨"BoundLoggerBase._proxy_to_logger", "method_name"⟩
    else none

def report (l : Log) (time : String) (manner : Manner) (event : Value) (fields : Assoc Value) :
    Except Clash Log :=
  match l.clash? manner fields with
  | some c => .error c
  | none =>
    .ok <|
      match manner with
      | .level level => l.write time level event fields
      | .failure => l.write time .error event (fields.putNew "exc_info" (.bool true))

def recordAll (l : Log) (time : String) (events : List Event) : Log :=
  events.foldl (fun l e => l.record time e) l

def chatty : String := "watchfiles.main"

def threshold (settings : Settings.Logging) (source : String) : Level :=
  if source == chatty || source.startsWith (chatty ++ ".") then .warning else settings.level

/-- Records a message that is no event of this library. Before outputs were asked for, only grave
messages are written. -/
def message (l : Log) (time source : String) (level : Level) (text : String) : Log :=
  match l.outputs with
  | none => if level.reaches lastResort then l.append (linesOf text) .stderr else l
  | some settings =>
    if level.reaches (threshold settings source) then
      l.deliver settings level (l.withRequest (l.entries time level (.str text) [])) text
    else l

def idOf (n : Nat) : String := String.ofList (Text.hexDigits 12 n)

/-- Begins a request under an id; an empty one stands for a fresh id. -/
def begin (l : Log) (id : String) : Log :=
  if id.isEmpty then { l with request := some (idOf l.drawn), drawn := l.drawn + 1 }
  else { l with request := some id }

def finish (l : Log) : Log := { l with request := none }

/-- Runs something under a fresh id, unless it is part of a request already. -/
def underRequest {α : Type} (l : Log) (run : Log → α × Log) : α × Log :=
  match l.request with
  | some _ => run l
  | none =>
    let (a, l) := run (l.begin "")
    (a, l.finish)

end Log
end ScriptSense
