import ScriptSense.Text.Name

/-! Path patterns. A pattern is a list of segments between slashes: `**` stands for any number of
path segments, every other segment for one path segment that it matches character by character. -/
namespace ScriptSense
namespace Glob

open Text

inductive Item where
  | single (c : Char)
  | range (first last : Char)
  deriving DecidableEq, Repr

def Item.contains (c : Char) : Item → Bool
  | single d => c == d
  | range first last => first ≤ c && c ≤ last

inductive Piece where
  | star
  | any
  | set (negated : Bool) (items : List Item)
  | char (c : Char)
  deriving DecidableEq, Repr

def Piece.accepts (c : Char) : Piece → Bool
  | star => false
  | any => true
  | set negated items => items.any (·.contains c) != negated
  | char d => c == d

/-- A mark inside a set: a character, or the hyphen of a range. -/
inductive Mark where
  | char (c : Char)
  | hyphen
  deriving DecidableEq, Repr

/-- Cuts a set's text at the hyphens that make ranges. The first `quiet` characters make none: the
character a set begins with, and the two after each such hyphen. -/
def chunks (quiet : Nat) : List Char → List (List Char)
  | [] => [[]]
  | c :: cs =>
    match quiet with
    | k + 1 =>
      match chunks k cs with
      | [] => [[c]]
      | chunk :: more => (c :: chunk) :: more
    | 0 =>
      if c == '-' then [] :: chunks 2 cs
      else
        match chunks 0 cs with
        | [] => [[c]]
        | chunk :: more => (c :: chunk) :: more

/-- A hyphen at the very end makes no range. -/
def closeLast : List (List Char) → List (List Char)
  | [] => []
  | [chunk, []] => [chunk ++ ['-']]
  | chunk :: more => chunk :: closeLast more

/-- Drops the ranges that run backward, together with both their ends. -/
def dropReversed : List (List Char) → List (List Char)
  | [] => []
  | chunk :: more =>
    match dropReversed more with
    | [] => [chunk]
    | next :: rest =>
      match chunk.getLast?, next with
      | some first, last :: tail =>
        if last < first then (chunk.dropLast ++ tail) :: rest else chunk :: next :: rest
      | _, _ => chunk :: next :: rest

def marks : List (List Char) → List Mark
  | [] => []
  | [chunk] => chunk.map .char
  | chunk :: more => chunk.map .char ++ .hyphen :: marks more

def items : List Mark → List Item
  | [] => []
  | .char first :: .hyphen :: .char last :: rest => .range first last :: items rest
  | .char c :: rest => .single c :: items rest
  | .hyphen :: rest => .single '-' :: items rest

/-- The set written between square brackets. A leading exclamation mark negates it. -/
def setOf (inner : List Char) : Piece :=
  let quiet := if inner.head? = some '!' then 2 else 1
  match marks (dropReversed (closeLast (chunks quiet inner))) with
  | .char '!' :: rest => .set true (items rest)
  | ms => .set false (items ms)

/-- The text of a set up to its closing bracket, and what follows the bracket. A closing bracket in
first place, after the exclamation mark if there is one, belongs to the set. -/
def setText? (rest : List Char) : Option (List Char × List Char) :=
  let lead := if rest.head? = some '!' then 1 else 0
  let lead := if (rest.drop lead).head? = some ']' then lead + 1 else lead
  let body := (rest.drop lead).takeWhile (· != ']')
  match rest.drop (lead + body.length) with
  | [] => none
  | _ :: after => some (rest.take lead ++ body, after)

theorem setText?_length {rest inner after : List Char} (h : setText? rest = some (inner, after)) :
    after.length < rest.length := by
  simp only [setText?] at h
  generalize hb : rest.drop _ = tail at h
  cases tail with
  | nil => cases h
  | cons c cs =>
    simp only [Option.some.injEq, Prod.mk.injEq] at h
    have hl := congrArg List.length hb
    simp only [List.length_drop, List.length_cons] at hl
    rw [← h.2]; omega

/-- The pieces of a segment; an unclosed square bracket stands for itself. -/
def pieces : List Char → List Piece
  | [] => []
  | '*' :: rest => .star :: pieces rest
  | '?' :: rest => .any :: pieces rest
  | '[' :: rest =>
    match _h : setText? rest with
    | some (inner, after) => setOf inner :: pieces after
    | none => .char '[' :: pieces rest
  | c :: rest => .char c :: pieces rest
termination_by text => text.length
decreasing_by
  all_goals simp only [List.length_cons]
  · omega
  · omega
  · exact Nat.lt_succ_of_lt (setText?_length _h)
  · omega
  · omega

/-- For each tail of a list, whether the list or one of its later tails has the property. -/
def orLater : List Bool → List Bool
  | [] => []
  | b :: bs => (b || bs.any id) :: orLater bs

/-- For each tail of the text, longest first, whether the pieces cover it. -/
def coverage (text : List Char) : List Piece → List Bool
  | [] => text.map (fun _ => false) ++ [true]
  | .star :: more => orLater (coverage text more)
  | piece :: more =>
    List.zipWith (fun c rest => piece.accepts c && rest) text (coverage text more).tail ++ [false]

def covers (pattern : List Piece) (text : List Char) : Bool :=
  (coverage text pattern).head? == some true

def segmentMatches (pattern segment : List Char) : Bool := covers (pieces pattern) segment

def doubleStar : List Char := ['*', '*']

def segmentsMatch : List (List Char) → List (List Char) → Bool
  | [], parts => parts.isEmpty
  | head :: rest, [] => head == doubleStar && segmentsMatch rest []
  | head :: rest, part :: parts =>
    if head == doubleStar then
      segmentsMatch rest (part :: parts) || segmentsMatch (head :: rest) parts
    else segmentMatches head part && segmentsMatch rest parts

def isMatch (pattern path : List Char) : Bool :=
  segmentsMatch (splitAt '/' pattern) (splitAt '/' path)

end Glob
end ScriptSense
