/-! Syntax trees as a reader of scripts hands them out. -/
namespace ScriptSense
namespace Script

/-- A part of a script; its parts are named unless they are mere marks. -/
structure Node where
  kind : String
  isNamed : Bool
  /-- What it is to the node above it. -/
  field : Option String
  text : String
  children : List Node

namespace Node

def namedChildren (n : Node) : List Node := n.children.filter (·.isNamed)

def child? (n : Node) (field : String) : Option Node := n.children.find? (·.field == some field)

theorem sizeOf_lt_of_mem {m n : Node} (h : m ∈ n.children) : sizeOf m < sizeOf n := by
  obtain ⟨kind, isNamed, field, text, children⟩ := n
  have hlt : sizeOf m < sizeOf children := List.sizeOf_lt_of_mem h
  rw [mk.sizeOf_spec]
  omega

theorem mem_children_of_mem_named {m n : Node} (h : m ∈ n.namedChildren) : m ∈ n.children :=
  (List.mem_filter.mp h).1

theorem mem_children_of_child? {m n : Node} {field : String} (h : n.child? field = some m) :
    m ∈ n.children :=
  List.mem_of_find?_eq_some h

end Node

/-- Reads a script; there is no tree for a text that is not well formed. -/
abbrev SyntaxReader := List Char → Option Node

end Script
end ScriptSense
