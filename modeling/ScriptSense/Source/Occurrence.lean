/-! Occurrences of a pattern in reading order. A pattern is tried at each place, with the character
before it in view; after an occurrence the search goes on behind it, so occurrences never overlap.
-/
namespace ScriptSense

structure Occurrence (α : Type) where
  start : Nat
  stop : Nat
  captured : α
  deriving DecidableEq, Repr

namespace Occurrence

/-- A pattern: given the character before a place and the text from there, the length of the match
and what it captured. -/
abbrev Pattern (α : Type) := Option Char → List Char → Option (Nat × α)

/-- All occurrences from `position` on, leaving out the first `skip` places. -/
def allFrom {α : Type} (pattern : Pattern α) (previous : Option Char) (position skip : Nat) :
    List Char → List (Occurrence α)
  | [] =>
    match skip, pattern previous [] with
    | 0, some (n, a) => [⟨position, position + n, a⟩]
    | _, _ => []
  | c :: cs =>
    match skip with
    | k + 1 => allFrom pattern (some c) (position + 1) k cs
    | 0 =>
      match pattern previous (c :: cs) with
      | some (n, a) =>
        ⟨position, position + n, a⟩ :: allFrom pattern (some c) (position + 1) (n - 1) cs
      | none => allFrom pattern (some c) (position + 1) 0 cs

def all {α : Type} (pattern : Pattern α) (text : List Char) : List (Occurrence α) :=
  allFrom pattern none 0 0 text

/-- The first occurrence in a text that stands at `position` after `previous`. -/
def firstFrom? {α : Type} (pattern : Pattern α) (previous : Option Char) (position : Nat) :
    List Char → Option (Occurrence α)
  | [] => (pattern previous []).map fun (n, a) => ⟨position, position + n, a⟩
  | c :: cs =>
    match pattern previous (c :: cs) with
    | some (n, a) => some ⟨position, position + n, a⟩
    | none => firstFrom? pattern (some c) (position + 1) cs

/-- The part of the source up to a cursor, which may lie anywhere. -/
def upTo (source : List Char) (cursor : Int) : List Char := source.take cursor.toNat

/-- The last occurrence that ends at or before the cursor. -/
def lastBefore? {α : Type} (pattern : Pattern α) (source : List Char) (cursor : Int) :
    Option (Occurrence α) :=
  (all pattern (upTo source cursor)).getLast?

def literal (text : List Char) : Pattern (List Char) := fun _ rest =>
  if text.isPrefixOf rest then some (text.length, text) else none

end Occurrence
end ScriptSense
