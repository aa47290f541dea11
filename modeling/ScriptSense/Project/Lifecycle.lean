import ScriptSense.Project.Store

/-! The life of a project: loading its records, following changes of the record files, and letting
go of everything. Operations that may end early give the project as it was left. -/
namespace ScriptSense
namespace Project

abbrev Outcome (α : Type) := Except Failure α × Project

def initializedEvent (root : String) (files loaded classes : Nat) : Event :=
  ⟨.info, "project_initialized",
    [("root", .str root), ("files", .int files), ("loaded", .int loaded),
      ("classes", .int classes)]⟩

def disposedEvent (root : String) : Event := ⟨.info, "project_disposed", [("root", .str root)]⟩

def watcherStarted (root : String) (debounce : Int) : Event :=
  ⟨.info, "metadata_watcher_started", [("root", .str root), ("debounce_ms", .int debounce)]⟩

def watcherStopped : Event := ⟨.info, "metadata_watcher_stopped", []⟩

def changesDetected (count : Nat) : Event :=
  ⟨.info, "metadata_changes_detected", [("count", .int count)]⟩

def changeFailed (error : String) (count : Nat) : Event :=
  ⟨.error, "metadata_change_failed", [("error", .str error), ("count", .int count)]⟩

/-- Loads record files in order; the count of records goes up from `count`. -/
def loadAll (count : Nat) : List FilePath → Project → Outcome Nat
  | [], p => (.ok count, p)
  | path :: rest, p =>
    match p.load path with
    | .error e => (.error e, p)
    | .ok (none, p) => loadAll count rest p
    | .ok (some r, p) =>
      match p.ingest r with
      | .error e => (.error e, p)
      | .ok p => loadAll (count + 1) rest p

def populate (p : Project) : Outcome Nat :=
  match p.discover with
  | .error e => (.error e, p)
  | .ok paths =>
    match loadAll 0 paths p with
    | (.error e, p) => (.error e, p)
    | (.ok loaded, p) =>
      let classes := p.database.names.size
      (.ok classes, { p with initialized := true }.note
        [initializedEvent p.root.toText paths.length loaded classes])

def clear (p : Project) : Project :=
  { p.resetStore with database := p.database.clear, initialized := false }

def repopulate (p : Project) : Outcome Nat := p.clear.populate

/-- Brings the database in line with one changed file. A file that is gone takes its class with it;
one that now describes another class replaces the class it described before. -/
def applyChange (p : Project) (path : FilePath) : Outcome Unit :=
  if !p.isRecordFile path then (.ok (), p)
  else
    let previous := p.classForPath? path
    match p.find path with
    | .error e => (.error e, p)
    | .ok none =>
      let p := p.forget path
      (.ok (), (previous.map p.remove).getD p)
    | .ok (some _) =>
      match p.load path with
      | .error e => (.error e, p)
      | .ok (none, p) => (.ok (), p)
      | .ok (some r, p) =>
        let p := ((previous.filter (· != r.name)).map p.remove).getD p
        match p.ingest r with
        | .error e => (.error e, p)
        | .ok p => (.ok (), p)

/-- Brings the database in line with changed files, in order, up to the first that fails. -/
def applyChanges : List FilePath → Project → Outcome Unit
  | [], p => (.ok (), p)
  | path :: rest, p =>
    match p.applyChange path with
    | (.error e, p) => (.error e, p)
    | (.ok (), p) => applyChanges rest p

def startWatching (p : Project) : Project :=
  if p.watcher == .absent then
    { p with watcher := .running }.note
      [watcherStarted p.root.toText p.settings.watch.debounce]
  else p

def stopWatching (p : Project) : Project :=
  if p.watcher == .absent then p else { p with watcher := .absent }.note [watcherStopped]

def endChanges (p : Project) : Project :=
  if p.watcher == .running then { p with watcher := .finished } else p

def sortedPaths (paths : List FilePath) : List FilePath :=
  (paths.mergeSort fun a b => !(b.before a)).eraseDups

/-- Applies a batch of changes as a watcher does: other files than record files are passed over, and
a failing batch is reported. -/
def noticeChanges (p : Project) (paths : List FilePath) : Project :=
  let changed := sortedPaths (paths.filter p.isRecordFile)
  if changed.isEmpty then p
  else
    match applyChanges changed (p.note [changesDetected changed.length]) with
    | (.ok (), p) => p
    | (.error e, p) => p.note [changeFailed e.message changed.length]

def dispose (p : Project) : Project := p.stopWatching.clear.note [disposedEvent p.root.toText]

/-- Loads the project and watches for changes if the settings ask for it. -/
def enter (p : Project) : Outcome Unit :=
  match p.populate with
  | (.error e, p) => (.error e, p)
  | (.ok _, p) => (.ok (), if p.settings.watch.enabled then p.startWatching else p)

end Project
end ScriptSense
