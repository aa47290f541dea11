import ScriptSense.Data.Shown

/-! Failures worth reporting, each with a number, a text and named details. What is told about a
failure may be any data; in messages it stands as its text. -/
namespace ScriptSense

structure Diagnostic where
  code : Nat
  name : String
  message : Value
  retryable : Value
  details : Value
  deriving Repr

namespace Diagnostic

def codes : List (String × Nat) :=
  [("CONFIG_PARSE_ERROR", 2001), ("CONFIG_INVALID_VALUE", 2002), ("METADATA_IO_FAILURE", 3001),
    ("METADATA_INVALID_RECORD", 3002), ("CYCLIC_HIERARCHY", 4001)]

def ofName (name : String) (message retryable details : Value) : Diagnostic :=
  ⟨(Assoc.get? codes name).getD 0, name, message, retryable, details⟩

def stating (name : String) (message : List String) (retryable : Bool) (details : Assoc Value) :
    Diagnostic :=
  ofName name (.str (String.join message)) (.bool retryable) (.map details)

def unreadableSettings (path reason : Value) : Diagnostic :=
  stating "CONFIG_PARSE_ERROR" ["Failed to parse config at ", path.text, ": ", reason.text] false
    [("path", path), ("reason", reason)]

/-- A setting with a value that it may not have; only the text of the value is kept. -/
def invalidSetting (field value reason : Value) : Diagnostic :=
  stating "CONFIG_INVALID_VALUE" ["Invalid value for '", field.text, "': ", reason.text] false
    [("field", field), ("value", .str value.text), ("reason", reason)]

def unreadableRecord (path reason : Value) : Diagnostic :=
  stating "METADATA_IO_FAILURE" ["Failed to read metadata file ", path.text, ": ", reason.text] true
    [("path", path), ("reason", reason)]

def invalidRecord (path reason : Value) : Diagnostic :=
  stating "METADATA_INVALID_RECORD"
    ["Invalid metadata record in ", path.text, ": ", reason.text] false
    [("path", path), ("reason", reason)]

def cyclicHierarchy (chain : List String) : Diagnostic :=
  stating "CYCLIC_HIERARCHY" ["Cyclic class hierarchy: ", " -> ".intercalate chain] false
    [("chain", Value.strings chain)]

/-- The names in a chain: a text is the chain of its characters. -/
def chainOf : Value → List String
  | .str s => s.toList.map fun c => String.ofList [c]
  | .map entries => entries.map (·.1)
  | v => (v.list?.getD []).filterMap Value.str?

def summary (d : Diagnostic) : String :=
  "[" ++ toString d.code ++ "] " ++ d.name ++ ": " ++ d.message.text

def detail (d : Diagnostic) (key : String) : Value := (d.details.get? key).getD .null

def toValue (d : Diagnostic) : Value :=
  .map [("code", .int d.code), ("error", .str d.name), ("message", d.message),
    ("retryable", d.retryable), ("details", d.details)]

end Diagnostic
end ScriptSense
