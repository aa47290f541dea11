import ScriptSense.Yaml.Graph
import ScriptSense.Yaml.Scalar

/-! What the nodes of a document stand for. The nodes are taken level by level: a list or map is
begun when it is met, and gets its parts when all that was begun before it has its parts. Of several
faults the one that is met first in this order counts. -/
namespace ScriptSense
namespace Yaml

/-- What a node stands for; parts are given by the numbers of their nodes. -/
inductive Content where
  | value (v : Value)
  | list (items : List Nat)
  | map (rows : List (Value × Nat))
  | set (keys : List Value)
  | pairs (entries : List (Nat × Nat))
  deriving Repr, Inhabited

structure Builder where
  graph : Graph
  contents : Array (Option Content)
  /-- The lists and maps that have been begun, the last one first. -/
  begun : List Nat
  deriving Repr

namespace Builder

def tagOf (b : Builder) (n : Nat) : String :=
  let v := b.graph.vertex n
  let usual (name : String) : String :=
    match v.tag with
    | none | some "!" => Node.standardTag name
    | some tag => tag
  match v.shape with
  | .scalar text plain => Scalar.tagOf ⟨none, v.tag⟩ text plain
  | .list _ => usual "seq"
  | .map _ => usual "map"

def hasTag (b : Builder) (n : Nat) (name : String) : Bool := b.tagOf n == Node.standardTag name

/-- The text of a node. A map may give its text under an equals sign. -/
def textOf (b : Builder) : (fuel : Nat) → Nat → Option String
  | 0, _ => none
  | fuel + 1, n =>
    match (b.graph.vertex n).shape with
    | .scalar text _ => some text
    | .list _ => none
    | .map entries =>
      (entries.find? fun e => b.hasTag e.1 "value").bind fun e => b.textOf fuel e.2

def put (b : Builder) (n : Nat) (c : Content) : Builder :=
  { b with contents := b.contents.setIfInBounds n (some c) }

def collections : List (String × Content) :=
  [("seq", .list []), ("map", .map []), ("set", .set []), ("omap", .pairs []),
    ("pairs", .pairs [])]

/-- Begins a node, unless it has been begun: texts are read, and lists and maps wait for their
parts. -/
def start (b : Builder) (n : Nat) : Except Fault (Content × Builder) :=
  match b.contents.getD n none with
  | some c => .ok (c, b)
  | none =>
    match collections.find? fun c => b.hasTag n c.1 with
    | some (_, c) => .ok (c, { b.put n c with begun := n :: b.begun })
    | none =>
      match b.textOf (b.graph.vertices.size + 1) n with
      | none => .error .malformed
      | some text => do
        let v ← Scalar.value (b.tagOf n) text
        return (.value v, b.put n (.value v))

def startAll (b : Builder) : List Nat → Except Fault (Unit × Builder)
  | [] => .ok ((), b)
  | n :: rest => do
    let (_, b) ← b.start n
    startAll b rest

def entriesOf (b : Builder) (n : Nat) : Option (List (Nat × Nat)) :=
  match (b.graph.vertex n).shape with
  | .map entries => some entries
  | _ => none

def setEntries (b : Builder) (n : Nat) (entries : List (Nat × Nat)) : Builder :=
  { b with graph := b.graph.fill n (.map entries) }

mutual

/-- Brings the entries of other maps into a map: those that come with merge keys go in front, in
order, and the merge keys go away. -/
def flatten : (fuel : Nat) → Nat → Builder → Except Fault Builder
  | 0, _, b => .ok b
  | fuel + 1, n, b => do
    let entries := (b.entriesOf n).getD []
    let isMerge (e : Nat × Nat) : Bool := b.hasTag e.1 "merge"
    let own := entries.filter (!isMerge ·)
    let (brought, b) ← broughtBy fuel (entries.filter isMerge) (b.setEntries n own)
    return if brought.isEmpty then b else b.setEntries n (brought ++ (b.entriesOf n).getD [])

def broughtBy : (fuel : Nat) → List (Nat × Nat) → Builder →
    Except Fault (List (Nat × Nat) × Builder)
  | 0, _, b => .ok ([], b)
  | _, [], b => .ok ([], b)
  | fuel + 1, e :: rest, b => do
    let (here, b) ←
      match (b.graph.vertex e.2).shape with
      | .map _ => do
        let b ← flatten fuel e.2 b
        pure ((b.entriesOf e.2).getD [], b)
      | .list items => do
        let (parts, b) ← broughtByAll fuel items b
        pure (parts.reverse.flatten, b)
      | .scalar .. => .error .malformed
    let (more, b) ← broughtBy fuel rest b
    return (here ++ more, b)

def broughtByAll : (fuel : Nat) → List Nat → Builder →
    Except Fault (List (List (Nat × Nat)) × Builder)
  | 0, _, b => .ok ([], b)
  | _, [], b => .ok ([], b)
  | fuel + 1, n :: rest, b =>
    match (b.graph.vertex n).shape with
    | .map _ => do
      let b ← flatten fuel n b
      let here := (b.entriesOf n).getD []
      let (more, b) ← broughtByAll fuel rest b
      return (here :: more, b)
    | _ => .error .malformed

end

def flattenFuel (b : Builder) : Nat := 4 * b.graph.vertices.size + 8

/-- The value of a key. Lists and maps are no keys, and an equals sign is a text there. -/
def key (b : Builder) (n : Nat) : Except Fault (Value × Builder) := do
  if b.hasTag n "value" then
    match b.textOf (b.graph.vertices.size + 1) n with
    | some text => return (.str text, b.put n (.value (.str text)))
    | none => .error .malformed
  else
    match ← b.start n with
    | (.value v, b) => return (v, b)
    | _ => .error .malformed

/-- Writes a row; a key that is there already keeps its place. -/
def putRow (rows : List (Value × Nat)) (key : Value) (n : Nat) : List (Value × Nat) :=
  match rows with
  | [] => [(key, n)]
  | row :: rest => if row.1.sameKey key then (row.1, n) :: rest else row :: putRow rest key n

def rowsOf (rows : List (Value × Nat)) : List (Nat × Nat) → Builder →
    Except Fault (List (Value × Nat) × Builder)
  | [], b => .ok (rows, b)
  | (k, v) :: rest, b => do
    let (found, b) ← b.key k
    let (_, b) ← b.start v
    rowsOf (putRow rows found v) rest b

/-- The rows of a node that must be a map, with the entries that merge keys bring. -/
def mapRows (b : Builder) (n : Nat) : Except Fault (List (Value × Nat) × Builder) := do
  if (b.entriesOf n).isNone then .error .malformed
  else
    let b ← flatten b.flattenFuel n b
    rowsOf [] ((b.entriesOf n).getD []) b

def pairsOf : List Nat → Builder → Except Fault (List (Nat × Nat) × Builder)
  | [], b => .ok ([], b)
  | n :: rest, b =>
    match (b.graph.vertex n).shape with
    | .map [(k, v)] => do
      let (_, b) ← b.start k
      let (_, b) ← b.start v
      let (more, b) ← pairsOf rest b
      return ((k, v) :: more, b)
    | _ => .error .malformed

def finish (b : Builder) (n : Nat) : Except Fault Builder := do
  match b.contents.getD n none with
  | some (.list _) =>
    match (b.graph.vertex n).shape with
    | .list items =>
      let (_, b) ← b.startAll items
      return b.put n (.list items)
    | _ => .error .malformed
  | some (.map _) =>
    let (rows, b) ← b.mapRows n
    return b.put n (.map rows)
  | some (.set _) =>
    let (rows, b) ← b.mapRows n
    return b.put n (.set (rows.map (·.1)))
  | some (.pairs _) =>
    match (b.graph.vertex n).shape with
    | .list items =>
      let (pairs, b) ← pairsOf items b
      return b.put n (.pairs pairs)
    | _ => .error .malformed
  | _ => return b

def finishAll : List Nat → Builder → Except Fault Builder
  | [], b => .ok b
  | n :: rest, b => do finishAll rest (← b.finish n)

/-- Finishes level after level; there are no more levels than nodes. -/
def levels : (fuel : Nat) → Builder → Except Fault Builder
  | 0, b => .ok b
  | fuel + 1, b => do
    if b.begun.isEmpty then return b
    else levels fuel (← finishAll b.begun.reverse { b with begun := [] })

def contentsFrom (g : Graph) (root : Nat) : Except Fault (Array (Option Content)) := do
  let (_, b) ← start ⟨g, Array.replicate g.vertices.size none, []⟩ root
  let b ← levels (g.vertices.size + 1) b
  return b.contents

end Builder
end Yaml
end ScriptSense
