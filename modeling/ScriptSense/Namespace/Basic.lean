import ScriptSense.Namespace.Trie
import ScriptSense.Record.ClassRecord
import ScriptSense.Text.Quoted

/-! The classes of a project by qualified name. A name that is a proper beginning of a class name
is a package; a class may lie below another class. -/
namespace ScriptSense

def sortTexts (texts : List String) : List String := texts.mergeSort fun a b => !(b < a)

structure Namespace where
  /-- Superclasses whose members are never merged in. -/
  roots : List String
  tree : Trie ClassRecord
  /-- The names of the classes, each once. -/
  registered : List String

namespace Namespace

/-- A name that is not qualified: it has an empty segment. -/
structure BadName where
  name : String
  deriving DecidableEq, Repr

def BadName.message (e : BadName) : String :=
  "Invalid qualified name: " ++ Text.quotedString e.name

def defaultRoots : List String := ["Object"]

def empty (roots : List String) : Namespace := ⟨roots, .empty, []⟩

def find? (ns : Namespace) (name : String) : Option (Trie ClassRecord) :=
  (Text.segments? name).bind fun path => Trie.sub? path ns.tree

def record? (ns : Namespace) (name : String) : Option ClassRecord := (ns.find? name).bind (·.value?)

def isClass (ns : Namespace) (name : String) : Bool := (ns.record? name).isSome

def containsPath (ns : Namespace) (name : String) : Bool := (ns.find? name).isSome

inductive Entry where
  | klass (record : ClassRecord)
  | package (children : List (String × Bool))
  deriving Repr

/-- The direct children of a package by name; the flag tells classes from packages. -/
def childrenOf (t : Trie ClassRecord) : List (String × Bool) :=
  (t.children.map fun child => (child.1, child.2.value?.isSome)).mergeSort
    fun a b => !(b.1 < a.1)

def lookup (ns : Namespace) (name : String) : Option Entry :=
  (ns.find? name).map fun t =>
    match t.value? with
    | some r => .klass r
    | none => .package (childrenOf t)

def classNames (ns : Namespace) : List String := sortTexts ns.registered

def size (ns : Namespace) : Nat := ns.registered.length

def classCount (ns : Namespace) : Nat := ns.tree.paths.length

/-- Registers a class, replacing what its name had before. -/
def insert (ns : Namespace) (r : ClassRecord) : Except BadName Namespace :=
  match Text.segments? r.name with
  | some path =>
    .ok { ns with tree := ns.tree.insert r path, registered := ns.registered.insert r.name }
  | none => .error ⟨r.name⟩

/-- Drops a class; classes below it stay. -/
def remove (ns : Namespace) (name : String) : Namespace :=
  match Text.segments? name with
  | some path =>
    if ns.isClass name then
      { ns with tree := ns.tree.erase path, registered := ns.registered.erase name }
    else ns
  | none => ns

end Namespace
end ScriptSense
