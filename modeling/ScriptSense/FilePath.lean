import ScriptSense.Text.Name

/-! Paths as text, without looking at a disk. Empty segments and single dots mean nothing; double
dots are kept, since only a disk could tell where they lead. -/
namespace ScriptSense

structure FilePath where
  /-- How many slashes the path begins with: none, one, or exactly two. -/
  slashes : Nat
  parts : List String
  deriving DecidableEq, Repr

namespace FilePath

/-- The leading slashes that count: three and more are as good as one. -/
def leadingSlashes (text : List Char) : Nat :=
  let n := (text.takeWhile (· == '/')).length
  if n ≤ 2 then n else 1

def ofText (text : String) : FilePath :=
  let parts := (Text.splitAt '/' text.toList).filter fun p => !p.isEmpty && p != ['.']
  ⟨leadingSlashes text.toList, parts.map String.ofList⟩

def isAbsolute (p : FilePath) : Bool := p.slashes != 0

def toText (p : FilePath) : String :=
  if p.slashes == 0 && p.parts.isEmpty then "."
  else String.ofList (List.replicate p.slashes '/') ++ "/".intercalate p.parts

/-- A path seen from another one; an absolute path is the same from everywhere. -/
def join (base p : FilePath) : FilePath :=
  if p.isAbsolute then p else ⟨base.slashes, base.parts ++ p.parts⟩

/-- The path below a base, if it begins with the base. -/
def relativeTo? (p base : FilePath) : Option FilePath :=
  if p.slashes == base.slashes && base.parts.isPrefixOf p.parts then
    some ⟨0, p.parts.drop base.parts.length⟩
  else none

/-- Puts the home directory, as its text is read, in place of a leading tilde. The homes of others
are not known. -/
def expandHome? (p home : FilePath) : Option FilePath :=
  match p.slashes, p.parts with
  | 0, first :: rest =>
    if first == "~" then
      let home := ofText home.toText
      some ⟨home.slashes, home.parts ++ rest⟩
    else if first.startsWith "~" then none
    else some p
  | _, _ => some p

def before (p q : FilePath) : Bool := decide (p.parts < q.parts)

end FilePath
end ScriptSense
