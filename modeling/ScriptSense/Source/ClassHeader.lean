import ScriptSense.Text.Name
import ScriptSense.Text.Word
import ScriptSense.Source.Occurrence

/-! The class a source file defines. The first call `qx.Class.define("a.b.C", {` of the file, or one
of its siblings, names it, and the first `extend:` key after that names its superclass. -/
namespace ScriptSense

open Text

structure ClassHeader where
  name : List Char
  start : Nat
  superClass : Option (List Char)
  deriving DecidableEq, Repr

namespace ClassHeader

def definers : List (List Char) :=
  ["Class".toList, "Mixin".toList, "Interface".toList, "Theme".toList, "Bootstrap".toList]

def expect? (text rest : List Char) : Option (List Char) :=
  if text.isPrefixOf rest then some (rest.drop text.length) else none

def quotedChain? (rest : List Char) : Option (List Char × List Char) := do
  match rest with
  | quote :: inner =>
    if quote == '"' || quote == '\'' then
      let (name, after) ← chain? inner
      let after ← expect? [quote] after
      return (name, after)
    else none
  | [] => none

/-- The opening of a definition; it captures the class name. -/
def opening : Occurrence.Pattern (List Char) := fun _ rest => do
  let after ← expect? "qx.".toList rest
  let after ← definers.findSome? (expect? · after)
  let after ← expect? ".define(".toList after
  let (name, after) ← quotedChain? (after.dropWhile isBlank)
  let after ← expect? [','] (after.dropWhile isBlank)
  let after ← expect? ['\x7b'] (after.dropWhile isBlank)
  return (rest.length - after.length, name)

def extension : Occurrence.Pattern (List Char) := fun previous rest => do
  if previous.any isWordChar then none
  else
    let after ← expect? "extend".toList rest
    let after ← expect? [':'] (after.dropWhile isBlank)
    let (name, after) ← chain? (after.dropWhile isBlank)
    return (rest.length - after.length, name)

def find? (source : List Char) : Option ClassHeader :=
  (Occurrence.firstFrom? opening none 0 source).map fun found =>
    let parent := Occurrence.firstFrom? extension source[found.stop - 1]? found.stop
      (source.drop found.stop)
    { name := found.captured
      start := found.start
      superClass := parent.map (·.captured) }

end ClassHeader
end ScriptSense
