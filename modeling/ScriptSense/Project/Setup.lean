import ScriptSense.Project.Basic
import ScriptSense.Settings.Load

/-! A project with the settings that its folder and its surroundings ask for. -/
namespace ScriptSense
namespace Project

def settingsPath : FilePath := FilePath.ofText ".qxlens/config.yaml"

def settingsFile (root : FilePath) (disk : Disk) : Settings.File :=
  let path := (root.join settingsPath).toText
  match disk.read settingsPath.parts with
  | .ok bytes => .content path bytes
  | .error .isFolder => .folder path
  | .error _ => .absent

def ownNames : List String := ["cls", "root"]

def configured (home root : FilePath) (disk : Disk) (user : Settings.File) (environ : Assoc String)
    (given : Assoc Value) : Except Settings.Failure Project :=
  match ownNames.find? given.has with
  | some name => .error (.repeated "ProjectContext.load" name)
  | none =>
    (Settings.load home user (settingsFile root disk) environ given).map fun settings =>
      fresh root settings .script disk

end Project
end ScriptSense
