import ScriptSense.Yaml.Node

/-! The nodes of a document as a graph: an alias is one more way to the node it names. A list or map
may be reached from inside itself. -/
namespace ScriptSense
namespace Yaml

/-- What a node consists of; parts are given by their numbers. -/
inductive Shape where
  | scalar (text : String) (plain : Bool)
  | list (items : List Nat)
  | map (entries : List (Nat × Nat))
  deriving DecidableEq, Repr, Inhabited

structure Vertex where
  tag : Option String
  shape : Shape
  deriving DecidableEq, Repr, Inhabited

structure Graph where
  vertices : Array Vertex
  /-- The nodes that aliases can name. -/
  anchors : Assoc Nat
  deriving Repr

namespace Graph

def empty : Graph := ⟨#[], []⟩

/-- Adds a node, which may have a name; a name is given once. -/
def add? (g : Graph) (labels : Labels) (shape : Shape) : Option (Nat × Graph) :=
  let n := g.vertices.size
  let vertices := g.vertices.push ⟨labels.tag, shape⟩
  match labels.anchor with
  | none => some (n, { g with vertices })
  | some name =>
    if g.anchors.has name then none else some (n, ⟨vertices, g.anchors.put name n⟩)

/-- Gives a node its parts. -/
def fill (g : Graph) (n : Nat) (shape : Shape) : Graph :=
  { g with vertices := g.vertices.modify n fun v => { v with shape } }

mutual

/-- Adds a node with all its parts, which may refer to it already. -/
def ofNode? (g : Graph) : Node → Option (Nat × Graph)
  | .reference name => (g.anchors.get? name).map fun n => (n, g)
  | .scalar labels text plain => g.add? labels (.scalar text plain)
  | .list labels items => do
    let (n, g) ← g.add? labels (.list [])
    let (items, g) ← ofItems? g items
    return (n, g.fill n (.list items))
  | .map labels entries => do
    let (n, g) ← g.add? labels (.map [])
    let (entries, g) ← ofEntries? g entries
    return (n, g.fill n (.map entries))

def ofItems? (g : Graph) : List Node → Option (List Nat × Graph)
  | [] => some ([], g)
  | item :: rest => do
    let (n, g) ← ofNode? g item
    let (more, g) ← ofItems? g rest
    return (n :: more, g)

def ofEntries? (g : Graph) : List (Node × Node) → Option (List (Nat × Nat) × Graph)
  | [] => some ([], g)
  | (key, value) :: rest => do
    let (k, g) ← ofNode? g key
    let (v, g) ← ofNode? g value
    let (more, g) ← ofEntries? g rest
    return ((k, v) :: more, g)

end

def vertex (g : Graph) (n : Nat) : Vertex := g.vertices.getD n default

end Graph
end Yaml
end ScriptSense
