import ScriptSense.Data.Shown
import ScriptSense.Diagnostic
import ScriptSense.Settings.Environment
import ScriptSense.Settings.Layers
import ScriptSense.Text.Utf8
import ScriptSense.Yaml.Document

/-! Loading the settings from two files, the environment and given values. The files are read first,
that of the user before that of the project, then the environment; only what all of them say
together is checked. -/
namespace ScriptSense
namespace Settings

/-- Why there are no settings. -/
inductive Failure where
  /-- A file that is not YAML. -/
  | malformed
  /-- A part of a file that is not what it says it is. -/
  | unreadable (fault : Yaml.Fault)
  /-- A value that is too long to be shown. -/
  | overlong
  /-- A value that is given twice. -/
  | repeated (caller name : String)
  | undecodable (fault : Utf8.Fault)
  /-- A folder in the place of a file. -/
  | folder (path : String)
  | environment (fault : Environment.Fault)
  /-- A section without a name. -/
  | unnamed
  | homeless
  | diagnosed (d : Diagnostic)
  /-- Settings that do not pass once more. -/
  | unkept (first : Violation) (others : List Violation)
  deriving Repr

def Failure.message : Failure → String
  | malformed => Yaml.Fault.malformed.message
  | unreadable fault => fault.message
  | overlong =>
    "Exceeds the limit (" ++ toString Value.mostDigits ++
      " digits) for integer string conversion; " ++
      "use sys.set_int_max_str_digits() to increase the limit"
  | repeated caller name =>
    caller ++ "() got multiple values for argument " ++ Text.quotedString name
  | undecodable fault => fault.message
  | folder path => "[Errno 21] Is a directory: " ++ Text.quotedString path
  | environment fault => fault.message
  | unnamed => "keywords must be strings"
  | homeless => Problem.homeless.message
  | diagnosed d => d.summary
  | unkept first _ => first.problem.message

/-- A file with settings, as far as it can be read. -/
inductive File where
  | absent
  | folder (path : String)
  | content (path : String) (bytes : List UInt8)
  deriving Repr

structure Stated where
  entries : Assoc Value
  /-- Whether every section has a name. -/
  named : Bool
  deriving Repr

/-- What the text of a file says. An empty document says nothing. -/
def statedBy (path : String) (text : List Char) : Except Failure Stated :=
  match Yaml.read text with
  | .error .malformed => .error .malformed
  | .error fault => .error (.unreadable fault)
  | .ok v =>
    match v.rows? with
    | some rows =>
      let entries := Value.namedRows rows
      .ok ⟨entries, entries.length == rows.length⟩
    | none =>
      if v.isFalsy then .ok ⟨[], true⟩
      else .error (.diagnosed
        (.unreadableSettings (.str path) (.str "top-level value must be a mapping")))

def File.stated : File → Except Failure Stated
  | absent => .ok ⟨[], true⟩
  | folder path => .error (.folder path)
  | content path bytes =>
    match Utf8.decode bytes with
    | .error fault => .error (.undecodable fault)
    | .ok text => statedBy path text

/-- What is reported about settings that do not pass: a home directory that is not known, or else
the first fault. -/
def Failure.ofViolations (first : Violation) (others : List Violation) : Failure :=
  if (first :: others).any (·.problem == .homeless) then homeless
  else if !first.value.isWritable then overlong
  else
    diagnosed
      (.invalidSetting (.str (".".intercalate first.path)) first.value
        (.str first.problem.message))

def rootName : String := "project_root"

/-- What becomes of settings that are checked once more. -/
def kept : Checked Settings → Except Failure Settings
  | .ok s => .ok s
  | .failed first others => .error (.unkept first others)

/-- The settings that two files, the environment and given values make together. -/
def load (home : FilePath) (user project : File) (environ : Assoc String) (given : Assoc Value) :
    Except Failure Settings := do
  if given.has rootName then .error (.repeated "load_config" rootName)
  else
    let user ← user.stated
    let project ← project.stated
    let environment ←
      match Environment.layer (.ofGiven given) environ with
      | .ok entries => .ok entries
      | .error fault => .error (.environment fault)
    let given := Environment.Options.settingsIn given
    if !user.named || !project.named then .error .unnamed
    else
      match (Layers.mk user.entries project.entries environment given).check home with
      | .ok s => kept (decode home s.toValue)
      | .failed first others => .error (.ofViolations first others)

end Settings
end ScriptSense
