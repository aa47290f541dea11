import ScriptSense.Script.Lexer

/-! What is read of a script: tokens, and productions with what was read for their steps. Comments
may stand between the parts of any node. -/
namespace ScriptSense
namespace Script

structure Extent where
  /-- The end of what stands before it; blanks may lie between. -/
  before : Nat
  start : Nat
  stop : Nat
  /-- The text after it. -/
  rest : List Char

inductive Tree where
  | leaf (token : Nat) (extent : Extent)
  | node (production : Nat) (weight : Int) (extent : Extent) (children : List Tree)

namespace Tree

def extent : Tree → Extent
  | leaf _ e | node _ _ e _ => e

def weight : Tree → Int
  | leaf .. => 0
  | node _ w _ _ => w

def children : Tree → List Tree
  | leaf .. => []
  | node _ _ _ cs => cs

def isComment : Tree → Bool
  | leaf t _ => isExtra t
  | node .. => false

/-- The place of a tree's symbol in the order of preference: tokens come before constructs. -/
def order : Tree → Nat × Nat
  | leaf t _ => (0, t)
  | node p _ _ _ => (1, ruleOf p)

/-- A production with what was read for it; what is empty lies behind what stands before it. -/
def ofProduction (production : Nat) (behind : Extent) (children : List Tree) : Tree :=
  let extent :=
    match children.head?, children.getLast? with
    | some a, some b =>
      ⟨a.extent.before, a.extent.start, b.extent.stop, b.extent.rest⟩
    | _, _ => behind
  let own := (productions[production]?.map (·.weight)).getD 0
  node production (children.foldl (fun sum c => sum + c.weight) own) extent children

mutual

/-- Which of two trees comes first: the one with the earlier symbol, then the one with fewer parts,
then the one whose first differing part comes first. -/
def compare : Tree → Tree → Ordering
  | leaf t _, leaf u _ => Ord.compare t u
  | leaf .., node .. => .lt
  | node .., leaf .. => .gt
  | node p _ _ xs, node q _ _ ys =>
    (Ord.compare (ruleOf p) (ruleOf q)).then <|
      (Ord.compare xs.length ys.length).then (compareAll xs ys)

def compareAll : List Tree → List Tree → Ordering
  | x :: xs, y :: ys => (x.compare y).then (compareAll xs ys)
  | _, _ => .eq

end

/-- Whether the second of two readings of the same text is preferred: it has more weight, or the
same and comes first. -/
def yieldsTo (a b : Tree) : Bool :=
  a.weight < b.weight || (a.weight == b.weight && a.compare b == .gt)

/-- Whether two trees are readings of the same text as the same construct, as far as can be seen
from outside. -/
def alike (a b : Tree) : Bool :=
  a.order == b.order && a.extent.before == b.extent.before && a.extent.start == b.extent.start &&
    a.extent.stop == b.extent.stop && a.children.length == b.children.length

end Tree
end Script
end ScriptSense
