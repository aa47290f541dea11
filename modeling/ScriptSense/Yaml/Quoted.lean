import ScriptSense.Data.Json
import ScriptSense.Yaml.Cursor

/-! Texts in quotes. Single quotes know no escape but a doubled quote; double quotes know escapes. A
text may run over several lines, which are then folded. -/
namespace ScriptSense
namespace Yaml

/-- A piece of a text: what it stands for, and how many characters it takes. -/
abbrev Piece := List Char × Nat

/-- Blanks and line breaks inside quotes; they may not run into a mark between documents. -/
def blankPiece (text : List Char) : Option Piece :=
  let blanks := text.takeWhile isBlank
  let rest := text.drop blanks.length
  let gap := breaksIn isBlank rest
  match rest with
  | [] => none
  | c :: _ =>
    if isBreak c then
      if gap.marker then none else some (folded gap.breaks, blanks.length + gap.length)
    else some (blanks, blanks.length)

def escapes : List (Char × Char) :=
  [('0', '\x00'), ('a', '\x07'), ('b', '\x08'), ('t', '\t'), ('\t', '\t'), ('n', '\n'),
    ('v', '\x0b'), ('f', '\x0c'), ('r', '\r'), ('e', '\x1b'), (' ', ' '), ('"', '"'),
    ('\\', '\\'), ('/', '/'), ('N', '\x85'), ('_', '\xa0'), ('L', '\u2028'), ('P', '\u2029')]

def escapeDigits? (c : Char) : Option Nat :=
  if c == 'x' then some 2 else if c == 'u' then some 4 else if c == 'U' then some 8 else none

def hexNumber? (digits : List Char) : Option Nat :=
  digits.foldlM (fun n c => (Json.hexDigit? c).map (n * 16 + ·)) 0

inductive Misquote where
  /-- It does not end, or has an escape that means nothing. -/
  | malformed
  /-- An escape names a character that does not exist. -/
  | noCharacter (code : Nat)
  deriving DecidableEq, Repr

def characterCount : Nat := 0x110000

/-- What follows a backslash. A line break there joins two lines. -/
def escapePiece (text : List Char) : Except Misquote Piece :=
  match text with
  | [] => .error .malformed
  | c :: rest =>
    match escapes.lookup c, escapeDigits? c with
    | some e, _ => .ok ([e], 1)
    | none, some n =>
      if rest.length < n then .error .malformed
      else
        match hexNumber? (rest.take n) with
        | none => .error .malformed
        | some code =>
          if code < characterCount then .ok ([Json.unitChar code], n + 1)
          else .error (.noCharacter code)
    | none, none =>
      if isBreak c then
        let gap := breaksIn isBlank text
        if gap.marker then .error .malformed else .ok (gap.breaks.drop 1, gap.length)
      else .error .malformed

/-- The text up to the closing quote, and how many characters it takes with that quote. The first
`skip` characters belong to a piece that was read before. -/
def quotedFrom (double : Bool) : (skip : Nat) → List Char → Except Misquote Piece
  | _, [] => .error .malformed
  | skip + 1, _ :: rest => (quotedFrom double skip rest).map fun p => (p.1, p.2 + 1)
  | 0, c :: rest =>
    let continuing (said : List Char) (skip : Nat) : Except Misquote Piece :=
      (quotedFrom double skip rest).map fun p => (said ++ p.1, p.2 + 1)
    if isBlank c || isBreak c then
      match blankPiece (c :: rest) with
      | some (said, n) => continuing said (n - 1)
      | none => .error .malformed
    else if double then
      if c == '"' then .ok ([], 1)
      else if c == '\\' then
        match escapePiece rest with
        | .ok (said, n) => continuing said n
        | .error e => .error e
      else continuing [c] 0
    else if c == '\'' then
      if rest.head? == some '\'' then continuing ['\''] 1 else .ok ([], 1)
    else continuing [c] 0

def quoted (double : Bool) (p : Cursor) : Except Misquote (List Char × Cursor) :=
  (quotedFrom double 0 p.next.rest).map fun piece => (piece.1, p.next.skip piece.2)

end Yaml
end ScriptSense
