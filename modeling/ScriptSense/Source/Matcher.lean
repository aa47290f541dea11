import ScriptSense.Source.Backward

/-! Matchers: descriptions of what may end at a position. `Matcher.start` reads a description at any
integer position and answers where the match starts. Positions before the text end most matches;
beyond the end, reading a character is out of range. Positions and windows are all integers: that a
search with regular expressions takes none beyond a machine word is left out. -/
namespace ScriptSense

open Text

/-- A pattern that ends at a given position. The windowed patterns look at a bounded number of
characters before it: `digits` for the expression `[0-9]+`, which no other digit of Unicode fits, and
`windowed` for a text. -/
inductive Matcher where
  | literal (text : List Char)
  | word (text : List Char)
  | identifier
  | whitespace (required : Bool)
  | bracketed
  | digits (window : Int)
  | windowed (text : List Char) (window : Int)
  | receiverTail (window : Int)
  | exceptAfter (inner : Matcher) (chars : List Char)
  | seq (first second : Matcher)
  | alt (first second : Matcher)
  | maybe (inner : Matcher)
  deriving DecidableEq, Repr

namespace Matcher

inductive EmptyCombination where
  | seq
  | alt
  deriving DecidableEq, Repr

def EmptyCombination.message : EmptyCombination → String
  | .seq => "seq() needs at least one matcher"
  | .alt => "alt() needs at least one matcher"

/-- All matchers in order, the last one ending at the position. -/
def seqOf : List Matcher → Except EmptyCombination Matcher
  | [] => .error .seq
  | [m] => .ok m
  | m :: ms => (seqOf ms).map (.seq m)

def altOf : List Matcher → Except EmptyCombination Matcher
  | [] => .error .alt
  | [m] => .ok m
  | m :: ms => (altOf ms).map (.alt m)

/-- A character was read where the text has none. -/
structure OutOfRange where
  deriving DecidableEq, Repr

def OutOfRange.message (_ : OutOfRange) : String := "string index out of range"

/-- Runs a function of the characters before `position`. Nothing stands before a negative position,
and a position beyond the end is out of range. -/
def reading (source : List Char) (position : Int) (read : List Char → Option Int) :
    Except OutOfRange (Option Int) :=
  if position ≤ 0 then .ok (read [])
  else if position ≤ source.length then .ok (read (Backward.before source position.toNat))
  else .error {}

/-- A windowed search: both ends of the window are moved into the text, and an inverted window holds
no match. -/
def inWindow (source : List Char) (position window : Int)
    (find : Nat → List Char → Option (List Char)) : Option Int :=
  let last := min position.toNat source.length
  let first := min (position - window).toNat source.length
  if first ≤ last then
    (find (last - first) (Backward.before source last)).map fun rest => (rest.length : Int)
  else none

/-- The digits at the end, at most `window` of them. -/
def digitRun? (window : Nat) (behind : List Char) : Option (List Char) :=
  let run := (behind.take window).takeWhile isDigit
  if run.isEmpty then none else some (behind.drop run.length)

def literalWithin? (text : List Char) (window : Nat) (behind : List Char) : Option (List Char) :=
  if text.length ≤ window then Backward.literal? text behind else none

def literalStart (source text : List Char) (position : Int) : Option Int :=
  let start := position - text.length
  if 0 ≤ start ∧ position ≤ source.length ∧ text.isPrefixOf (source.drop start.toNat) then
    some start
  else none

/-- Where the match that ends at `position` starts, if there is one. -/
def start (source : List Char) : Matcher → Int → Except OutOfRange (Option Int)
  | literal text, position => .ok (literalStart source text position)
  | word text, position =>
    .ok ((literalStart source text position).filter fun s =>
      !((Backward.before source s.toNat).head?.any isNameChar))
  | identifier, position =>
    reading source position fun behind =>
      (Backward.identifier? behind).map fun rest => (rest.length : Int)
  | whitespace required, position =>
    reading source position fun behind =>
      let taken := behind.length - (Backward.skipBlanks behind).length
      if required && taken == 0 then none else some (position - taken)
  | bracketed, position =>
    reading source position fun behind =>
      (Backward.group? behind).map fun rest => (rest.length : Int)
  | digits window, position => .ok (inWindow source position window digitRun?)
  | windowed text window, position => .ok (inWindow source position window (literalWithin? text))
  | receiverTail window, position =>
    .ok (inWindow source position window Backward.receiverTail?)
  | exceptAfter inner chars, position => do
    match ← inner.start source position with
    | none => return none
    | some s =>
      if s ≤ 0 then return some s
      else
        match source[s.toNat - 1]? with
        | none => throw {}
        | some c => return if chars.contains c then none else some s
  | seq first second, position => do
    match ← second.start source position with
    | none => return none
    | some s => first.start source s
  | alt first second, position => do
    match ← first.start source position with
    | some s => return some s
    | none => second.start source position
  | maybe inner, position => do
    match ← inner.start source position with
    | some s => return some s
    | none => return some position

end Matcher
end ScriptSense
