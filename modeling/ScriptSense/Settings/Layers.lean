import ScriptSense.Data.Merge
import ScriptSense.Settings.Basic

/-! Settings from several places. What stands closer to the caller wins, setting by setting: given
values go before the environment, the environment before the file of the project, and that before
the file of the user. -/
namespace ScriptSense
namespace Settings

structure Layers where
  user : Assoc Value
  project : Assoc Value
  environment : Assoc Value
  given : Assoc Value
  deriving Repr

namespace Layers

def combined (l : Layers) : Assoc Value :=
  Value.mergeEntries (Value.mergeEntries l.user l.project)
    (Value.mergeEntries l.environment l.given)

def noStrangers (entries : Assoc Value) : Checked Unit :=
  let refusal (e : String × Value) : Violation := ⟨[e.1], .unknownKey, e.2⟩
  match entries.filter fun e => !sections.contains e.1 with
  | [] => .ok ()
  | e :: more => .failed (refusal e) (more.map refusal)

def check (home : FilePath) (l : Layers) : Checked Settings :=
  let entries := l.combined
  (fun s _ => s) <$> decodeSections home entries <*> noStrangers entries

end Layers
end Settings
end ScriptSense
