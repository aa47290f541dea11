import ScriptSense.Event
import ScriptSense.FilePath
import ScriptSense.Schema.Decode

/-! The settings of a project, with their defaults and the conditions on them. -/
namespace ScriptSense
namespace Settings

def levels : List (String × Level) :=
  [("DEBUG", .debug), ("INFO", .info), ("WARNING", .warning), ("ERROR", .error),
    ("CRITICAL", .critical)]

def levelName : Level → String
  | .debug => "DEBUG"
  | .info => "INFO"
  | .warning => "WARNING"
  | .error => "ERROR"
  | .critical => "CRITICAL"

inductive Format where
  | json
  | console
  deriving DecidableEq, Repr

def Format.name : Format → String
  | json => "json"
  | console => "console"

def formats : List (String × Format) := [("json", .json), ("console", .console)]

/-- Where a log goes. -/
inductive Destination where
  | stderr
  | stdout
  | file (path : FilePath)
  deriving DecidableEq, Repr

namespace Destination

def toText : Destination → String
  | stderr => "stderr"
  | stdout => "stdout"
  | file path => path.toText

/-- A stream by its name, or else a file, which must have an absolute path. -/
def decode (home : FilePath) : Schema.Decoder Destination := fun v =>
  (Schema.text v).andThen fun s =>
    if s == "stderr" then .ok .stderr
    else if s == "stdout" then .ok .stdout
    else
      match (FilePath.ofText s).expandHome? home with
      | none => .fail .homeless v
      | some path =>
        if path.isAbsolute then .ok (.file path)
        else .fail (.refused ("File destination must be absolute path: " ++ s)) v

end Destination

/-- One output of the log; without a level of its own it takes that of the log. -/
structure Output where
  format : Format
  destination : Destination
  level : Option Level
  deriving DecidableEq, Repr

namespace Output

def default : Output := ⟨.console, .stderr, none⟩

def decode (home : FilePath) : Schema.Decoder Output :=
  Schema.record "LogOutputConfig" fun entries =>
    Output.mk <$> Schema.orElse (.plain "format") .console (Schema.literal formats) entries
      <*> Schema.orElse (.plain "destination") .stderr (Destination.decode home) entries
      <*> Schema.maybe (.plain "level") (Schema.literal levels) entries

def toValue (o : Output) : Value :=
  .map [("format", .str o.format.name), ("destination", .str o.destination.toText),
    ("level", Value.optStr (o.level.map levelName))]

end Output

structure Logging where
  level : Level
  outputs : List Output
  deriving DecidableEq, Repr

namespace Logging

def default : Logging := ⟨.info, [.default]⟩

def decode (home : FilePath) : Schema.Decoder Logging :=
  Schema.record "LoggingConfig" fun entries =>
    Logging.mk <$> Schema.orElse (.plain "level") .info (Schema.literal levels) entries
      <*> Schema.orElse (.plain "outputs") [.default] (Schema.list (Output.decode home)) entries

def single (level : Value) (format : Format) : Checked Logging :=
  (fun least => ⟨least, [⟨format, .stderr, none⟩]⟩) <$> (Schema.literal levels level).below "level"

def toValue (l : Logging) : Value :=
  .map [("level", .str (levelName l.level)), ("outputs", .list (l.outputs.map Output.toValue))]

end Logging

/-- Where the compiled records and the sources of a project are. -/
structure Metadata where
  compiledGlob : String
  sourceDirs : List String
  implicitRoots : List String
  deriving DecidableEq, Repr

namespace Metadata

def default : Metadata := ⟨"compiled/*/transpiled/**/*.json", ["source/class"], ["Object"]⟩

/-- Record files are found below the root of the project, and are JSON files. -/
def refuseGlob (glob : String) : Option String :=
  if glob.startsWith "/" then
    some ("compiled_glob must be relative to the project root: " ++ glob)
  else if !glob.endsWith ".json" then some ("compiled_glob must match .json files: " ++ glob)
  else none

def decode : Schema.Decoder Metadata :=
  Schema.record "MetadataConfig" fun entries =>
    Metadata.mk <$> Schema.orElse (.plain "compiled_glob") default.compiledGlob
        (Schema.ensuring Schema.text refuseGlob) entries
      <*> Schema.orElse (.plain "source_dirs") default.sourceDirs (Schema.list Schema.text) entries
      <*> Schema.orElse (.plain "implicit_root_classes") default.implicitRoots
        (Schema.list Schema.text) entries

def toValue (m : Metadata) : Value :=
  .map [("compiled_glob", .str m.compiledGlob), ("source_dirs", Value.strings m.sourceDirs),
    ("implicit_root_classes", Value.strings m.implicitRoots)]

end Metadata

structure Watch where
  enabled : Bool
  debounce : Int
  deriving DecidableEq, Repr

namespace Watch

def default : Watch := ⟨true, 300⟩

def refuseDebounce (n : Int) : Option String :=
  if n < 0 then some ("debounce_ms must be >= 0, got " ++ toString n) else none

def decode : Schema.Decoder Watch :=
  Schema.record "WatchConfig" fun entries =>
    Watch.mk <$> Schema.orElse (.plain "enabled") default.enabled Schema.truth entries
      <*> Schema.orElse (.plain "debounce_ms") default.debounce
        (Schema.ensuring Schema.integer refuseDebounce) entries

def toValue (w : Watch) : Value :=
  .map [("enabled", .bool w.enabled), ("debounce_ms", .int w.debounce)]

end Watch

structure Analysis where
  /-- How many characters before the cursor a pattern may look at. -/
  window : Int
  deriving DecidableEq, Repr

namespace Analysis

def default : Analysis := ⟨512⟩

def refuseWindow (n : Int) : Option String :=
  if n < 1 then some ("pattern_window must be positive, got " ++ toString n) else none

def decode : Schema.Decoder Analysis :=
  Schema.record "AnalysisConfig" fun entries =>
    Analysis.mk <$> Schema.orElse (.plain "pattern_window") default.window
      (Schema.ensuring Schema.integer refuseWindow) entries

def toValue (a : Analysis) : Value := .map [("pattern_window", .int a.window)]

end Analysis
end Settings

structure Settings where
  logging : Settings.Logging
  metadata : Settings.Metadata
  watch : Settings.Watch
  analysis : Settings.Analysis
  deriving DecidableEq, Repr

namespace Settings

def default : Settings := ⟨.default, .default, .default, .default⟩

def sections : List String := ["logging", "metadata", "watch", "analysis"]

def decodeSections (home : FilePath) (entries : Assoc Value) : Checked Settings :=
  Settings.mk <$> Schema.orElse (.plain "logging") .default (Logging.decode home) entries
    <*> Schema.orElse (.plain "metadata") .default Metadata.decode entries
    <*> Schema.orElse (.plain "watch") .default Watch.decode entries
    <*> Schema.orElse (.plain "analysis") .default Analysis.decode entries

def decode (home : FilePath) : Schema.Decoder Settings :=
  Schema.record "QxLensConfig" (decodeSections home)

def toValue (s : Settings) : Value :=
  .map [("logging", s.logging.toValue), ("metadata", s.metadata.toValue),
    ("watch", s.watch.toValue), ("analysis", s.analysis.toValue)]

end Settings
end ScriptSense
