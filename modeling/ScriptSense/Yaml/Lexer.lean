import ScriptSense.Yaml.Block
import ScriptSense.Yaml.Label
import ScriptSense.Yaml.Plain
import ScriptSense.Yaml.Quoted

/-! Cutting a YAML text into tokens. Whether a node is a key shows only at the colon behind it, so
the lexer remembers where a key may have begun, and marks the place when the colon comes. Such a
key stands on one line and is not long. -/
namespace ScriptSense
namespace Yaml

/-- A place where a key may have begun. -/
structure Candidate where
  /-- The number of tokens before it. -/
  place : Nat
  index : Nat
  line : Nat
  column : Nat
  /-- Whether nothing but a key can stand there. -/
  needed : Bool
  deriving Repr

/-- A place where a key did begin, and whether a map begins with it. -/
structure Opening where
  place : Nat
  opensMap : Bool
  deriving Repr

structure Lexer where
  cursor : Cursor
  /-- The tokens so far, the last one first. -/
  tokens : List Token
  openings : List Opening
  /-- The indentation of the open blocks, the innermost first. -/
  indents : List Int
  /-- The key that may have begun in each open bracket, the innermost first; the last one is that
  outside of all brackets. -/
  candidates : List (Option Candidate)
  /-- Whether a key may begin here. -/
  keyMayBegin : Bool
  /-- The character that does not exist and yet is named here, where nothing further is read. -/
  stuck : Option Nat
  deriving Repr

namespace Lexer

def start (text : List Char) : Lexer := ⟨.ofText text, [], [], [], [none], true, none⟩

/-- The longest key that needs no mark of its own. -/
def longestKey : Nat := 1024

def inFlow (l : Lexer) : Bool := l.candidates.length > 1

def indent (l : Lexer) : Int := l.indents.headD (-1)

def emit (l : Lexer) (t : Token) : Lexer := { l with tokens := t :: l.tokens }

def take (l : Lexer) (n : Nat) (t : Token) : Lexer :=
  { l with cursor := l.cursor.skip n, tokens := t :: l.tokens }

/-- Steps over a gap between tokens. A new line may begin with a key. -/
def skipGap (l : Lexer) : Lexer :=
  let p :=
    if l.cursor.index == 0 && l.cursor.rest.head? == some byteOrderMark then l.cursor.next
    else l.cursor
  let q := p.skip (gapLength false p.rest)
  { l with cursor := q, keyMayBegin := l.keyMayBegin || (q.line != p.line && !l.inFlow) }

/-- Gives up a possible key; one that is needed cannot be given up. -/
def giveUp? : Option Candidate → Option (Option Candidate)
  | some c => if c.needed then none else some none
  | none => some none

def dropStale (l : Lexer) : Option Lexer := do
  let candidates ← l.candidates.mapM fun k =>
    match k with
    | some c =>
      if c.line != l.cursor.line || l.cursor.index - c.index > longestKey then giveUp? k
      else some k
    | none => some none
  return { l with candidates }

def dropKey (l : Lexer) : Option Lexer :=
  match l.candidates with
  | k :: outer => (giveUp? k).map fun k => { l with candidates := k :: outer }
  | [] => some l

def markKey (l : Lexer) : Option Lexer :=
  if l.keyMayBegin then do
    let p := l.cursor
    let l ← l.dropKey
    let k : Candidate :=
      ⟨l.tokens.length, p.index, p.line, p.column, !l.inFlow && l.indent == p.column⟩
    return { l with candidates := some k :: l.candidates.drop 1 }
  else some l

def unwind (column : Int) (l : Lexer) : Lexer :=
  if l.inFlow then l
  else
    let ended := l.indents.takeWhile (column < ·)
    { l with indents := l.indents.drop ended.length,
             tokens := ended.map (fun _ => Token.blockEnd) ++ l.tokens }

/-- Begins a block at the column of the cursor, if that is deeper than the innermost one. -/
def deepen (l : Lexer) (t : Token) : Lexer :=
  if !l.inFlow && l.indent < l.cursor.column then
    { l with indents := (l.cursor.column : Int) :: l.indents, tokens := t :: l.tokens }
  else l

/-- A mark that stands outside of all blocks. -/
def outermost (l : Lexer) : Option Lexer := do
  let l ← (l.unwind (-1)).dropKey
  return { l with keyMayBegin := false }

def documentMark (l : Lexer) (t : Token) : Option Lexer := do
  let l ← l.outermost
  return l.take 3 t

def openBracket (l : Lexer) (t : Token) : Option Lexer := do
  let l ← l.markKey
  return { l.take 1 t with candidates := none :: l.candidates, keyMayBegin := true }

/-- A closing bracket without an opening one is refused. -/
def closeBracket (l : Lexer) (t : Token) : Option Lexer :=
  match l.candidates with
  | _ :: outer :: more =>
    some { l.take 1 t with candidates := outer :: more, keyMayBegin := false }
  | _ => none

def comma (l : Lexer) : Option Lexer := do
  let l ← l.dropKey
  return { l.take 1 .comma with keyMayBegin := true }

def dash (l : Lexer) : Option Lexer :=
  if !l.inFlow && !l.keyMayBegin then none
  else do
    let l ← (l.deepen .blockList).dropKey
    return { l.take 1 .dash with keyMayBegin := true }

def key (l : Lexer) : Option Lexer :=
  if !l.inFlow && !l.keyMayBegin then none
  else do
    let l ← (l.deepen .blockMap).dropKey
    return { l.take 1 .key with keyMayBegin := !l.inFlow }

/-- A colon before a value: what began at a possible key is the key, or else there is none. -/
def value (l : Lexer) : Option Lexer :=
  match l.candidates with
  | some k :: outer =>
    let opensMap := !l.inFlow && l.indent < k.column
    some { l.take 1 .value with
      candidates := none :: outer
      openings := ⟨k.place, opensMap⟩ :: l.openings
      indents := if opensMap then (k.column : Int) :: l.indents else l.indents
      keyMayBegin := false }
  | _ =>
    if !l.inFlow && !l.keyMayBegin then none
    else do
      let l ← (l.deepen .blockMap).dropKey
      return { l.take 1 .value with keyMayBegin := !l.inFlow }

def labelled (l : Lexer) (t : Token) (p : Cursor) : Option Lexer := do
  let l ← l.markKey
  return { l.emit t with cursor := p, keyMayBegin := false }

def plainScalar (l : Lexer) : Option Lexer := do
  let l ← l.markKey
  let s := plain l.inFlow (l.indent + 1) l.cursor
  return { l.emit (.scalar (String.ofList s.text) true) with
    cursor := s.cursor, keyMayBegin := s.crossed }

def quotedScalar (double : Bool) (l : Lexer) : Option Lexer := do
  let l ← l.markKey
  match quoted double l.cursor with
  | .ok (text, p) =>
    some { l.emit (.scalar (String.ofList text) false) with cursor := p, keyMayBegin := false }
  | .error (.noCharacter code) => some { l with stuck := some code }
  | .error .malformed => none

def blockScalar (folding : Bool) (l : Lexer) : Option Lexer := do
  let (text, p) ← block? folding l.indent l.cursor
  let l ← l.dropKey
  return { l.emit (.scalar (String.ofList text) false) with cursor := p, keyMayBegin := true }

/-- The next token, with the blocks that end before it. -/
def token (l : Lexer) : Option Lexer :=
  let p := l.cursor
  let divides (rest : List Char) : Bool := l.inFlow || endsWord rest
  if p.column == 0 && atMarker p.rest then
    l.documentMark (if p.rest.head? == some '-' then .documentStart else .documentEnd)
  else
    match p.rest with
    | '%' :: _ =>
      if p.column == 0 then do
        let (d, q) ← directive? p
        let l ← l.outermost
        return { l.emit (.directive d) with cursor := q }
      else none
    | '[' :: _ => l.openBracket .openList
    | '\x7b' :: _ => l.openBracket .openMap
    | ']' :: _ => l.closeBracket .closeList
    | '\x7d' :: _ => l.closeBracket .closeMap
    | ',' :: _ => l.comma
    | '*' :: _ => do
      let (name, q) ← anchorName? p
      l.labelled (.reference name) q
    | '&' :: _ => do
      let (name, q) ← anchorName? p
      l.labelled (.anchor name) q
    | '!' :: _ => do
      let (t, q) ← tag? p
      l.labelled (.tag t) q
    | '\'' :: _ => l.quotedScalar false
    | '"' :: _ => l.quotedScalar true
    | '|' :: _ => if l.inFlow then none else l.blockScalar false
    | '>' :: _ => if l.inFlow then none else l.blockScalar true
    | c :: rest =>
      if c == '-' && endsWord rest then l.dash
      else if c == '?' && divides rest then l.key
      else if c == ':' && divides rest then l.value
      else if startsPlain l.inFlow p.rest then l.plainScalar
      else none
    | [] => none

/-- The tokens that are sure when no further one can be read: those before every possible key. -/
def sure (l : Lexer) : List Token :=
  let places := l.candidates.filterMap (·.map Candidate.place)
  l.tokens.drop (l.tokens.length - places.foldl min l.tokens.length)

/-- Reads tokens to the end of the text, or to a character that does not exist. -/
def run : Nat → Lexer → Option Lexer
  | 0, _ => none
  | fuel + 1, l => do
    let next ← l.skipGap.dropStale
    let next := next.unwind next.cursor.column
    if next.cursor.rest.isEmpty then next.outermost
    else
      let next ← next.token
      match next.stuck with
      | some code => return { l with tokens := .noCharacter code :: (← l.dropStale).sure }
      | none => run fuel next

def withKeys (l : Lexer) : List Token :=
  l.tokens.reverse.zipIdx.flatMap fun t =>
    match l.openings.find? (·.place == t.2) with
    | some o => (if o.opensMap then [.blockMap, .key] else [.key]) ++ [t.1]
    | none => [t.1]

end Lexer

def cut? (text : List Char) : Option (List Token) :=
  ((Lexer.start text).run (text.length + 2)).map fun l => l.withKeys

end Yaml
end ScriptSense
