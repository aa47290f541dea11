import ScriptSense.Source.Backward

/-! The addressable expression that ends at a cursor, found without parsing: identifiers joined by
`.` or `?.`, groups in brackets after them, and a leading `new`. -/
namespace ScriptSense
namespace Scan

open Backward

/-- Where an expression sits, with its text. -/
structure Span where
  start : Nat
  stop : Nat
  text : List Char
  deriving DecidableEq, Repr

/-- Takes the longest expression off the end. Brackets come first, then an identifier, then either a
member mark, after which the expression goes on, or its beginning. -/
def expression? (behind : List Char) : Option (List Char) :=
  match _hg : group? behind with
  | some rest => expression? (skipOptionalMark rest)
  | none =>
    match _hi : identifier? behind with
    | none => none
    | some rest =>
      match _hm : memberMark? rest with
      | some further => expression? further
      | none => some ((newKeyword? rest).getD rest)
termination_by behind.length
decreasing_by
  · exact Nat.lt_of_le_of_lt (skipOptionalMark_length rest) (group?_length _hg)
  · exact Nat.lt_trans (memberMark?_length _hm) (identifier?_length _hi)

def at? (source : List Char) (position : Int) : Option Span :=
  if 0 < position ∧ position ≤ source.length then
    (expression? (before source position.toNat)).map fun rest =>
      { start := rest.length
        stop := position.toNat
        text := (source.take position.toNat).drop rest.length }
  else none

def dropNew (text : List Char) : List Char :=
  match text with
  | 'n' :: 'e' :: 'w' :: rest =>
    let name := rest.dropWhile Text.isBlank
    if name.length < rest.length then name else text
  | _ => text

end Scan
end ScriptSense
