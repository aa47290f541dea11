import ScriptSense.Data.Json
import ScriptSense.Data.Merge
import ScriptSense.Settings.Basic
import ScriptSense.Text.Case

/-! Settings from environment variables. A variable named for a section holds the section as JSON; a
variable named for a setting of it holds that setting, as JSON if it is a list and else as a text.
Names are usually compared without regard to case, and variables with other names mean nothing. -/
namespace ScriptSense
namespace Settings
namespace Environment

inductive Fault where
  | unreadable (name : String)
  /-- Data that is nested too deep. -/
  | tooDeep (message : String)
  deriving DecidableEq, Repr

def Fault.message : Fault → String
  | unreadable name =>
    "error parsing value for field \"" ++ name ++ "\" from source \"EnvSettingsSource\""
  | tooDeep message => message

structure Options where
  /-- How the names of all variables begin. -/
  leader : String
  /-- What divides the keys in a name; without it only sections have variables. -/
  divider : String
  /-- How many keys a name has at most, if that is limited. -/
  mostKeys : Option Nat
  matchCase : Bool
  /-- Whether variables without content are passed over. -/
  skipEmpty : Bool
  /-- The text that stands for null. -/
  nullText : Option String
  deriving DecidableEq, Repr

namespace Options

def usual : Options := ⟨"QXLENS__", "__", none, false, false, none⟩

def ofGiven (given : Assoc Value) : Options :=
  let text (key : String) (otherwise : String) : String :=
    ((given.get? key).bind Value.str?).getD otherwise
  let flag (key : String) (otherwise : Bool) : Bool :=
    match given.get? key with
    | none | some .null => otherwise
    | some v => !v.isFalsy
  { leader := text "_env_prefix" usual.leader
    divider := text "_env_nested_delimiter" usual.divider
    mostKeys := ((given.get? "_env_nested_max_split").bind Value.int?).bind fun n =>
      if n ≤ 0 then none else some n.toNat
    matchCase := flag "_case_sensitive" usual.matchCase
    skipEmpty := flag "_env_ignore_empty" usual.skipEmpty
    nullText := (given.get? "_env_parse_none_str").bind Value.str? }

def names : List String :=
  ["_case_sensitive", "_nested_model_default_partial_update", "_env_prefix", "_env_file",
    "_env_file_encoding", "_env_ignore_empty", "_env_nested_delimiter",
    "_env_nested_max_split", "_env_parse_none_str", "_env_parse_enums", "_cli_prog_name",
    "_cli_settings_source", "_cli_parse_none_str", "_cli_hide_none_type",
    "_cli_avoid_json", "_cli_enforce_required", "_cli_use_class_docs_for_groups",
    "_cli_exit_on_error", "_cli_prefix", "_cli_flag_prefix_char", "_cli_implicit_flags",
    "_cli_ignore_unknown_args", "_cli_kebab_case", "_secrets_dir"]

def settingsIn (given : Assoc Value) : Assoc Value := given.filter fun e => !names.contains e.1

end Options

inductive Kind where
  | single
  | list
  deriving DecidableEq, Repr

def fields : Assoc (Assoc Kind) :=
  [("logging", [("level", .single), ("outputs", .list)]),
    ("metadata", [("compiled_glob", .single), ("source_dirs", .list),
      ("implicit_root_classes", .list)]),
    ("watch", [("enabled", .single), ("debounce_ms", .single)]),
    ("analysis", [("pattern_window", .single)])]

def lowered (s : String) : String := String.ofList (s.toList.flatMap Text.lower)

def comparable (o : Options) (s : String) : String := if o.matchCase then s else lowered s

/-- The variables under their names as they are compared, with none for the text that stands for
null; of two with one name the later counts. -/
def folded (o : Options) (environ : Assoc String) : Assoc (Option String) :=
  let kept := environ.filter fun v => !(o.skipEmpty && v.2.isEmpty)
  Assoc.ofList (kept.map fun v =>
    (comparable o v.1, if o.nullText == some v.2 then none else some v.2))

/-- The pieces of a text between dividers, at most as many as `room` allows. -/
def pieces (divider : List Char) : (fuel : Nat) → (room : Option Nat) → List Char →
    List (List Char)
  | 0, _, text => [text]
  | fuel + 1, room, text =>
    match text with
    | [] => [[]]
    | c :: rest =>
      if room != some 0 && divider.isPrefixOf text then
        [] :: pieces divider fuel (room.map (· - 1)) (text.drop divider.length)
      else
        match pieces divider fuel room rest with
        | first :: more => (c :: first) :: more
        | [] => [[c]]

def keysOf (o : Options) (name : List Char) : List String :=
  (pieces o.divider.toList (name.length + 1) (o.mostKeys.map (· - 1)) name).map String.ofList

/-- Writes a value at the end of a path of keys; null does not replace what is there, unless that is
an empty map. -/
def putLast (entries : Assoc Value) (key : String) (v : Value) : Assoc Value :=
  match v, entries.get? key with
  | .null, some (.map []) => entries.put key v
  | .null, some _ => entries
  | _, _ => entries.put key v

/-- Writes a value below a path of keys. Maps are made on the way; where something that is no map
is in the way, nothing is written. -/
def putAt (entries : Assoc Value) : List String → Value → Assoc Value
  | [], _ => entries
  | [key], v => putLast entries key v
  | key :: more, v =>
    match entries.get? key with
    | none => entries.put key (.map (putAt [] more v))
    | some (.map inner) => entries.put key (.map (putAt inner more v))
    | some _ => entries

def readFor (name text : String) : Except Fault Value :=
  match Json.read text.toList with
  | .ok v => .ok v
  | .error fault =>
    match fault.cause with
    | .tooDeep _ => .error (.tooDeep fault.message)
    | _ => .error (.unreadable name)

def settingValue (o : Options) (name : String) (known : Assoc Kind) (path : List String)
    (text : Option String) : Except Fault Value :=
  let isList :=
    match path with
    | [key] => known.any fun k => comparable o k.1 == comparable o key && k.2 == .list
    | _ => false
  match text with
  | none => if isList then readFor name (o.nullText.getD "") else .ok .null
  | some s => if isList && !s.isEmpty then readFor name s else .ok (.str s)

def singles (o : Options) (name : String) (known : Assoc Kind)
    (environ : Assoc (Option String)) : Except Fault (Assoc Value) :=
  let start := (comparable o (o.leader ++ name) ++ o.divider).toList
  if o.divider.isEmpty then .ok []
  else
    environ.foldlM (fun entries v =>
      if start.isPrefixOf v.1.toList then do
        let path := keysOf o (v.1.toList.drop start.length)
        let value ← settingValue o name known path v.2
        return putAt entries path value
      else .ok entries) []

def recased (o : Options) (known : Assoc Kind) (entries : Assoc Value) : Assoc Value :=
  if o.matchCase then entries
  else
    Assoc.ofList (entries.map fun e =>
      (((known.find? fun k => k.1 == lowered e.1).map (·.1)).getD e.1, e.2))

/-- A section as the variables have it, if they have it. A section of its own that is no map stands
as it is, and JSON null is no section. -/
def sectionValue (o : Options) (name : String) (known : Assoc Kind)
    (environ : Assoc (Option String)) : Except Fault (Option Value) :=
  match environ.get? (comparable o (o.leader ++ name)) with
  | none => do
    let entries ← singles o name known environ
    return if entries.isEmpty then none else some (.map (recased o known entries))
  | some none => .ok (some .null)
  | some (some text) => do
    match ← readFor name text with
    | .map entries =>
      let more ← singles o name known environ
      return some (.map (recased o known (Value.mergeEntries entries more)))
    | .null => return none
    | v => return some v

/-- All that the variables say, section by section. -/
def layer (o : Options) (environ : Assoc String) : Except Fault (Assoc Value) :=
  let environ := folded o environ
  fields.foldlM (fun entries f => do
    match ← sectionValue o f.1 f.2 environ with
    | some v => return entries.put f.1 v
    | none => return entries) []

end Environment
end Settings
end ScriptSense
