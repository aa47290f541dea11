import ScriptSense.Data.Json
import ScriptSense.Project.Basic

/-! Reading the record files of a project. A file that cannot be read or holds no record is reported
and passed over. -/
namespace ScriptSense
namespace Project

def discover (p : Project) : Except Failure (List FilePath) :=
  match p.disk.glob p.settings.metadata.compiledGlob with
  | .ok paths => .ok (paths.map p.root.join)
  | .error e => .error (.badPattern e)

def isRecordFile (p : Project) (path : FilePath) : Bool :=
  match path.relativeTo? p.root with
  | some relative =>
    Glob.isMatch p.settings.metadata.compiledGlob.toList relative.toText.toList
  | none => false

def loadFailed (d : Diagnostic) : Event :=
  ⟨.warning, "metadata_load_failed",
    [("code", .int d.code), ("path", d.detail "path"), ("reason", d.detail "reason"),
      ("retryable", d.retryable)]⟩

def loaded (path className : String) : Event :=
  ⟨.debug, "metadata_loaded", [("path", .str path), ("class_name", .str className)]⟩

def reasonOf (violations : List Violation) : String :=
  "; ".intercalate (violations.map fun v => ".".intercalate v.path ++ ": " ++ v.problem.message)

def recordOfValue (path : String) (v : Value) : Except Diagnostic ClassRecord :=
  if ((v.get? "className").getD .null).isFalsy then
    .error (.invalidRecord (.str path) (.str "Missing className"))
  else
    match ClassRecord.decode v with
    | .ok r => .ok r
    | .failed first others =>
      .error (.invalidRecord (.str path) (.str (reasonOf (first :: others))))

/-- The record that a text describes. Data beyond what is read at all ends the operation. -/
def recordOfText (path : String) (text : List Char) :
    Except Failure (Except Diagnostic ClassRecord) :=
  match Json.read text with
  | .error fault =>
    if fault.cause.isExcess then .error (.excess fault)
    else .ok (.error (.invalidRecord (.str path) (.str ("Invalid JSON: " ++ fault.message))))
  | .ok v => .ok (recordOfValue path v)

/-- The record in a file. Bytes that are no text end the operation. -/
def readRecord (p : Project) (path : FilePath) : Except Failure (Except Diagnostic ClassRecord) :=
  let bytes :=
    match p.place? path with
    | some place => p.disk.read place
    | none => .error .missing
  if path.toText.contains '\x00' then .error .nullByte
  else
    match bytes with
    | .error o => .ok (.error (.unreadableRecord (.str path.toText) (.str (o.message path.toText))))
    | .ok bytes =>
      match Utf8.decode bytes with
      | .error fault => .error (.undecodable fault)
      | .ok text => recordOfText path.toText (Utf8.normalBreaks text)

def load (p : Project) (path : FilePath) : Except Failure (Option ClassRecord × Project) :=
  (readRecord p path).map fun found =>
    match found with
    | .error d => (none, p.note [loadFailed d])
    | .ok r =>
      (some r, { p with classOfFile := p.classOfFile.put path.toText r.name }.note
        [loaded path.toText r.name])

def classForPath? (p : Project) (path : FilePath) : Option String :=
  p.classOfFile.get? path.toText

def forget (p : Project) (path : FilePath) : Project :=
  { p with classOfFile := p.classOfFile.erase path.toText }

def resetStore (p : Project) : Project := { p with classOfFile := [] }

end Project
end ScriptSense
