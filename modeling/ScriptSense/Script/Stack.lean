import ScriptSense.Script.Tree

/-! The stacks of readers that follow several readings of a text at once. They share what they have
in common: a vertex is a state with the text still to be read, and its links lead down the stacks.
-/
namespace ScriptSense
namespace Script

/-- One step down a stack, over what was read there. -/
structure Link where
  target : Nat
  tree : Tree

structure Vertex where
  state : State
  /-- How much of the text has been read. -/
  place : Nat
  rest : List Char
  links : List Link
  /-- The greatest weight of a stack that ends here. -/
  weight : Int

/-- The vertices of all stacks, by their numbers. -/
abbrev Graph := Array Vertex

namespace Graph

def mostLinks : Nat := 8

def mostWalks : Nat := 64

def weightAt (g : Graph) (v : Nat) : Int := (g[v]?.map (·.weight)).getD 0

def linksAt (g : Graph) (v : Nat) : List Link := (g[v]?.map (·.links)).getD []

def same (g : Graph) (v w : Nat) : Bool :=
  v == w ||
    match g[v]?, g[w]? with
    | some a, some b => a.place == b.place && a.state.same b.state
    | _, _ => false

def push (g : Graph) (v : Nat) (state : State) (tree : Tree) : Graph × Nat :=
  (Array.push g
    ⟨state, tree.extent.stop, tree.extent.rest, [⟨v, tree⟩], g.weightAt v + tree.weight⟩, g.size)

/-- Gives a vertex one more way down. A link that is like an old one to the same vertex is dropped,
or takes its place if it has more weight; if it leads to another vertex of the same situation, the
two vertices become one. -/
def addLink : (fuel : Nat) → Graph → Nat → Link → Graph
  | 0, g, _, _ => g
  | fuel + 1, g, v, link =>
    if link.target == v then g
    else
      let links := g.linksAt v
      let weight := g.weightAt link.target + link.tree.weight
      match links.findIdx? fun old => old.tree.alike link.tree && g.same old.target link.target with
      | some i =>
        match links[i]? with
        | none => g
        | some old =>
          if old.target == link.target then
            if old.tree.weight < link.tree.weight then
              g.modify v fun x => { x with links := links.set i link, weight := weight }
            else g
          else
            let joined :=
              (g.linksAt link.target).foldl (fun g l => addLink fuel g old.target l) g
            joined.modify v fun x => { x with weight := max x.weight weight }
      | none =>
        if mostLinks ≤ links.length then g
        else
          g.modify v fun x => { x with links := x.links ++ [link], weight := max x.weight weight }

/-- A walk down a stack: where it is, what it has passed, and how many parts it still needs. -/
structure Walk where
  vertex : Nat
  trees : List Tree
  needed : Nat

namespace Walk

def follow (w : Walk) (l : Link) : Walk :=
  ⟨l.target, l.tree :: w.trees, if l.tree.isComment then w.needed else w.needed - 1⟩

end Walk

structure Ways where
  vertex : Nat
  trees : List (List Tree)

def addWay (found : List Ways) (w : Walk) : List Ways :=
  if found.any (·.vertex == w.vertex) then
    found.map fun ways =>
      if ways.vertex == w.vertex then { ways with trees := ways.trees ++ [w.trees] } else ways
  else found ++ [⟨w.vertex, [w.trees]⟩]

/-- The state of a round of walks: those that go on, those that branched off, how many there are
together, and the finished ones. -/
structure Round where
  onward : List Walk := []
  branches : List Walk := []
  size : Nat
  found : List Ways

/-- Takes one walk a step further. Its first link carries it on, the others branch off. -/
def stride (g : Graph) (r : Round) (w : Walk) : Round :=
  if w.needed == 0 then { r with size := r.size - 1, found := addWay r.found w }
  else
    match g.linksAt w.vertex with
    | [] => { r with size := r.size - 1 }
    | first :: others =>
      let branched := others.foldl
        (fun (r : Round) l =>
          if mostWalks ≤ r.size then r
          else { r with branches := r.branches ++ [w.follow l], size := r.size + 1 })
        r
      { branched with onward := branched.onward ++ [w.follow first] }

def walkAll (g : Graph) : (fuel : Nat) → List Walk → List Ways → List Ways
  | 0, _, found => found
  | fuel + 1, walks, found =>
    if walks.isEmpty then found
    else
      let r := walks.foldl (stride g) { size := walks.length, found := found }
      walkAll g fuel (r.onward ++ r.branches) r.found

/-- The ways down from a vertex over so many parts; comments on the way do not count. -/
def pop (g : Graph) (v count : Nat) : List Ways :=
  walkAll g (g.size + 2) [⟨v, [], count⟩] []

/-- All that lies below a vertex, once for every way to the bottom. -/
def bottoms (g : Graph) : (fuel : Nat) → List Walk → List (List Tree) → List (List Tree)
  | 0, _, found => found
  | fuel + 1, walks, found =>
    if walks.isEmpty then found
    else
      let ended := walks.filter fun w => (g.linksAt w.vertex).isEmpty
      let going := walks.filter fun w => !(g.linksAt w.vertex).isEmpty
      let onward := going.filterMap fun w => (g.linksAt w.vertex).head?.map w.follow
      let branches := going.flatMap fun w => ((g.linksAt w.vertex).drop 1).map w.follow
      bottoms g fuel ((onward ++ branches).take mostWalks) (found ++ ended.map (·.trees))

end Graph
end Script
end ScriptSense
