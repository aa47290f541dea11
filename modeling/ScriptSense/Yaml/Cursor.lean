/-! A place in a YAML text, and the kinds of characters that divide it. Columns and lines count from
zero; a byte order mark takes no column. -/
namespace ScriptSense
namespace Yaml

def isBreak (c : Char) : Bool :=
  c == '\n' || c == '\x85' || c == '\u2028' || c == '\u2029'

def isBlank (c : Char) : Bool := c == ' ' || c == '\t'

def breakText (c : Char) : Char := if c == '\x85' then '\n' else c

def endsLine : List Char → Bool
  | [] => true
  | c :: _ => isBreak c

def endsField : List Char → Bool
  | [] => true
  | c :: _ => c == ' ' || isBreak c

def endsWord : List Char → Bool
  | [] => true
  | c :: _ => isBlank c || isBreak c

def atMarker : List Char → Bool
  | '-' :: '-' :: '-' :: rest => endsWord rest
  | '.' :: '.' :: '.' :: rest => endsWord rest
  | _ => false

def isAllowed (c : Char) : Bool :=
  c == '\t' || c == '\n' || c == '\r' || c == '\x85' ||
    (' ' ≤ c && c ≤ '~') ||
    ('\xa0' ≤ c && c.toNat ≤ 0xfffd) || 0x10000 ≤ c.toNat

def byteOrderMark : Char := '\ufeff'

structure Cursor where
  rest : List Char
  index : Nat
  line : Nat
  column : Nat
  deriving Repr

namespace Cursor

def ofText (text : List Char) : Cursor := ⟨text, 0, 0, 0⟩

def next (p : Cursor) : Cursor :=
  match p.rest with
  | [] => p
  | c :: rest =>
    if isBreak c then ⟨rest, p.index + 1, p.line + 1, 0⟩
    else if c == byteOrderMark then ⟨rest, p.index + 1, p.line, p.column⟩
    else ⟨rest, p.index + 1, p.line, p.column + 1⟩

def skip (p : Cursor) : Nat → Cursor
  | 0 => p
  | n + 1 => p.next.skip n

/-- Steps over the longest run of characters of a kind. -/
def span (kind : Char → Bool) (p : Cursor) : List Char × Cursor :=
  let run := p.rest.takeWhile kind
  (run, p.skip run.length)

def skipSpaces (p : Cursor) : Cursor := (p.span (· == ' ')).2

/-- Steps over spaces, a comment and the line break at the end of a line, which must hold nothing
else. -/
def finishLine? (p : Cursor) : Option Cursor :=
  let p := p.skipSpaces
  let p := if p.rest.head? == some '#' then (p.span fun c => !isBreak c).2 else p
  if endsLine p.rest then some p.next else none

end Cursor

/-- How many characters of spaces, comments and line breaks are in front. -/
def gapLength (comment : Bool) : List Char → Nat
  | [] => 0
  | c :: rest =>
    if isBreak c then gapLength false rest + 1
    else if comment then gapLength true rest + 1
    else if c == ' ' then gapLength false rest + 1
    else if c == '#' then gapLength true rest + 1
    else 0

/-- The line breaks in front, among characters of a kind. -/
structure Breaks where
  breaks : List Char
  length : Nat
  /-- Whether they end at a mark between documents. -/
  marker : Bool
  deriving Repr

/-- Collects line breaks; a mark between documents ends them. -/
def breaksIn (between : Char → Bool) : List Char → Breaks
  | [] => ⟨[], 0, false⟩
  | c :: rest =>
    if isBreak c then
      if atMarker rest then ⟨[breakText c], 1, true⟩
      else
        let more := breaksIn between rest
        ⟨breakText c :: more.breaks, more.length + 1, more.marker⟩
    else if between c then
      let more := breaksIn between rest
      { more with length := more.length + 1 }
    else ⟨[], 0, false⟩

/-- What line breaks inside a text stand for: a single one for a space, and of several the first for
nothing. -/
def folded : List Char → List Char
  | [] => []
  | ['\n'] => [' ']
  | '\n' :: more => more
  | breaks => breaks

end Yaml
end ScriptSense
