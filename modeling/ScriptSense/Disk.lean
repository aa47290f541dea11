import ScriptSense.FilePath
import ScriptSense.Glob
import ScriptSense.Data.Assoc
import ScriptSense.Text.Quoted
import ScriptSense.Text.Utf8

/-! A disk as a value: a tree of folders and files. -/
namespace ScriptSense

inductive Disk where
  | file (bytes : List UInt8)
  | folder (entries : List (String × Disk))

namespace Disk

def empty : Disk := folder []

def isFolder : Disk → Bool
  | file _ => false
  | folder _ => true

def isFile (d : Disk) : Bool := !d.isFolder

def entries : Disk → Assoc Disk
  | file _ => []
  | folder es => es

/-- Why nothing can be read at a path. -/
inductive Obstacle where
  | missing
  | throughFile
  | isFolder
  | nameTooLong
  deriving DecidableEq, Repr

def Obstacle.number : Obstacle → Nat
  | missing => 2
  | throughFile => 20
  | isFolder => 21
  | nameTooLong => 36

def Obstacle.text : Obstacle → String
  | missing => "No such file or directory"
  | throughFile => "Not a directory"
  | isFolder => "Is a directory"
  | nameTooLong => "File name too long"

def Obstacle.message (o : Obstacle) (path : String) : String :=
  "[Errno " ++ toString o.number ++ "] " ++ o.text ++ ": " ++ Text.quotedString path

def longestName : Nat := 255

def isTooLong (name : String) : Bool := (Utf8.encode name.toList).length > longestName

/-- Walks a path from a place whose parents are `above`, nearest first. -/
def walk (above : List Disk) (here : Disk) : List String → Except Obstacle Disk
  | [] => .ok here
  | s :: rest =>
    match here with
    | file _ => .error .throughFile
    | folder es =>
      if s == ".." then
        match above with
        | [] => .error .missing
        | parent :: further => walk further parent rest
      else if isTooLong s then .error .nameTooLong
      else
        match Assoc.get? es s with
        | none => .error .missing
        | some d => walk (here :: above) d rest

def find? (d : Disk) (path : List String) : Option Disk := (walk [] d path).toOption

/-- What lies at a path, if anything does. A name that is too long is an obstacle all the same. -/
def lookup (d : Disk) (path : List String) : Except Obstacle (Option Disk) :=
  match walk [] d path with
  | .ok found => .ok (some found)
  | .error .nameTooLong => .error .nameTooLong
  | .error _ => .ok none

def read (d : Disk) (path : List String) : Except Obstacle (List UInt8) :=
  match walk [] d path with
  | .error e => .error e
  | .ok (folder _) => .error .isFolder
  | .ok (file bytes) => .ok bytes

def put (content : Disk) : List String → Disk → Disk
  | [], _ => content
  | s :: rest, d =>
    let es := d.entries
    folder (es.put s (put content rest ((Assoc.get? es s).getD empty)))

def makeFolder (d : Disk) (path : List String) : Disk :=
  match d.find? path with
  | some (folder _) => d
  | _ => put empty path d

def remove : List String → Disk → Disk
  | [], _ => empty
  | [s], d => folder (d.entries.erase s)
  | s :: rest, d =>
    match Assoc.get? d.entries s with
    | none => d
    | some child => folder (d.entries.put s (remove rest child))

mutual

/-- A folder and all folders below it, with their paths. -/
def folders (path : List String) : Disk → List (List String × Disk)
  | file _ => []
  | folder es => (path, folder es) :: foldersOf path es

/-- The folders among some entries, and all folders below those. -/
def foldersOf (path : List String) : List (String × Disk) → List (List String × Disk)
  | [] => []
  | (s, d) :: rest => folders (path ++ [s]) d ++ foldersOf path rest

end

def isWild (segment : String) : Bool :=
  segment.toList.any fun c => c == '*' || c == '?' || c == '['

/-- The paths that a list of pattern segments leads to, from a place on the disk. All but the last
segment lead to folders. -/
def select (root : Disk) : List String → List String → Disk → List (List String)
  | [], path, _ => [path]
  | segment :: rest, path, here =>
    if segment == "**" then
      ((folders path here).flatMap fun f => select root rest f.1 f.2).eraseDups
    else if isWild segment then
      here.entries.flatMap fun e =>
        if (rest.isEmpty || e.2.isFolder) && Glob.segmentMatches segment.toList e.1.toList then
          select root rest (path ++ [e.1]) e.2
        else []
    else
      match root.find? (path ++ [segment]) with
      | some d =>
        if rest.isEmpty || d.isFolder then select root rest (path ++ [segment]) d else []
      | none => []

/-- A pattern in which a double star is only a part of a segment. -/
structure BadPattern where
  deriving DecidableEq, Repr

def BadPattern.message (_ : BadPattern) : String :=
  "Invalid pattern: '**' can only be an entire path component"

def hasDoubleStar : List Char → Bool
  | [] => false
  | '*' :: '*' :: _ => true
  | _ :: rest => hasDoubleStar rest

def isBadSegment (segment : String) : Bool := segment != "**" && hasDoubleStar segment.toList

def glob (d : Disk) (pattern : String) : Except BadPattern (List FilePath) :=
  let segments := (FilePath.ofText pattern).parts
  if segments.any isBadSegment then .error {}
  else
    let paths := (select d segments [] d).filter fun path => (d.find? path).any isFile
    .ok ((paths.map (FilePath.mk 0)).mergeSort fun a b => !(b.before a))

end Disk
end ScriptSense
