import ScriptSense.Data.Assoc

/-! A tree of names. Every step of a path is one node; a node may hold a value and may have
children. Writing creates the nodes on the way, and erasing drops the nodes that lead to no value
any more. -/
namespace ScriptSense

inductive Trie (α : Type) where
  | node (value : Option α) (children : List (String × Trie α))

namespace Trie

variable {α : Type}

def empty : Trie α := node none []

def value? : Trie α → Option α
  | node v _ => v

def children : Trie α → Assoc (Trie α)
  | node _ cs => cs

def isBare (t : Trie α) : Bool := t.value?.isNone && t.children.isEmpty

def sub? : List String → Trie α → Option (Trie α)
  | [], t => some t
  | s :: path, t => (t.children.get? s).bind (sub? path)

def get? (t : Trie α) (path : List String) : Option α := (sub? path t).bind value?

def insert (v : α) : List String → Trie α → Trie α
  | [], t => node (some v) t.children
  | s :: path, t =>
    node t.value? (t.children.put s (insert v path ((t.children.get? s).getD empty)))

/-- Erases the value at a path, and the nodes that led only to it. -/
def erase : List String → Trie α → Trie α
  | [], t => node none t.children
  | s :: path, t =>
    match t.children.get? s with
    | none => t
    | some child =>
      let left := erase path child
      if left.isBare then node t.value? (t.children.erase s)
      else node t.value? (t.children.put s left)

mutual

def paths : Trie α → List (List String)
  | node v cs => (if v.isSome then [[]] else []) ++ pathsBelow cs

def pathsBelow : List (String × Trie α) → List (List String)
  | [] => []
  | (s, t) :: rest => (paths t).map (s :: ·) ++ pathsBelow rest

end

end Trie
end ScriptSense
