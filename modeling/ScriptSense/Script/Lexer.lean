import ScriptSense.Script.Automaton
import ScriptSense.Script.Ending

/-! The next token of a text, in view of what the grammar expects. -/
namespace ScriptSense
namespace Script

/-- A token in a text, with the blanks before it and its length. -/
structure Sighting where
  token : Nat
  skipped : Nat
  length : Nat
  /-- A keyword, which may turn out to be a name. -/
  isKeyword : Bool

def commentToken : Nat := tokenIndex (.lexeme .comment)

def markupCommentToken : Nat := tokenIndex (.lexeme .markupComment)

def statementEndToken : Nat := tokenIndex (.lexeme .statementEnd)

def templateTextToken : Nat := tokenIndex (.lexeme .templateText)

def questionMarkToken : Nat := tokenIndex (.lexeme .questionMark)

def markupTextToken : Nat := tokenIndex (.lexeme .markupText)

def orToken : Nat := tokenIndex (.text "||")

def escapeToken : Nat := tokenIndex (.lexeme .escape)

def patternToken : Nat := tokenIndex (.lexeme .pattern)

def isExtra (token : Nat) : Bool := token == commentToken || token == markupCommentToken

def keywords : List (String × Nat) :=
  tokens.toList.zipIdx.filterMap fun entry =>
    match entry.1 with
    | .text chars => if entry.1.isKeyword then some (chars, entry.2) else none
    | .lexeme _ => none

def keywordSet : TokenSet := keywords.foldl (fun set k => set.union (.singleton k.2)) .empty

/-- The tokens that are read off the text alone; keywords are read as names. -/
def readable : List (Token × Nat) :=
  tokens.toList.zipIdx.filter fun entry =>
    entry.2 != endToken && !entry.1.isKeyword &&
      (entry.2 == commentToken || !(contextualLexemes.map Token.lexeme).contains entry.1)

/-- The token that depends on its surroundings, if there is one. Where a statement may end, nothing
but its end and the question mark is looked for. -/
def surrounding? (expected : TokenSet) (text : List Char) : Option (Nat × Reading) :=
  let expects := fun t => expected.contains t
  if expects templateTextToken then
    if expects statementEndToken then none
    else (templateText? text).map fun r => (templateTextToken, r)
  else
    let shown := text.takeWhile fun c => !endsMarkup c
    if expects markupTextToken && showsText false shown then
      some (markupTextToken, ⟨0, shown.length⟩)
    else
      let passed := if expects markupTextToken then shown.length else 0
      let mark := fun (code : List Char) =>
        (questionMark? code).map fun r =>
          (questionMarkToken, { r with skipped := text.length - code.length + r.skipped })
      if expects statementEndToken then
        let found := ending (!expects orToken) (text.length + 1) false text
        if found.ends then some (statementEndToken, ⟨0, 0⟩)
        else if !found.commented && expects questionMarkToken && found.rest.head? == some '?' then
          mark found.rest
        else none
      else if expects questionMarkToken then mark text
      else if expects orToken || expects escapeToken || expects patternToken then none
      else
        (markupComment? (text.drop passed)).map fun r =>
          (markupCommentToken, { r with skipped := passed + r.skipped })

/-- A token at the front of a text, with what speaks for it. -/
structure Candidate where
  token : Nat
  priority : Int
  length : Nat
  standing : Nat

namespace Candidate

/-- A higher priority wins, then greater length, then higher standing. -/
def beats (a b : Candidate) : Bool :=
  b.priority < a.priority ||
    (a.priority == b.priority &&
      (b.length < a.length || (a.length == b.length && b.standing < a.standing)))

end Candidate

/-- The token that is meant at the front of a text; `touching` tells that no blank was passed. -/
def candidate? (expected : TokenSet) (touching : Bool) (text : List Char) : Option Candidate :=
  let names := (expected.bits &&& keywordSet.bits) != 0
  readable.foldl
    (fun best entry =>
      if (expected.contains entry.2 || entry.2 == commentToken || (names && entry.2 == nameToken))
          && (touching || !entry.1.isImmediate) then
        match entry.1.length text with
        | 0 => best
        | n + 1 =>
          let found : Candidate := ⟨entry.2, entry.1.priority, n + 1, entry.1.standing⟩
          match best with
          | none => some found
          | some old => if found.beats old then some found else best
      else best)
    none

def plain? (expected : TokenSet) (text : List Char) : Option (Nat × Reading) :=
  let skipped := run isSpace text
  let code := text.drop skipped
  let here := candidate? expected true text
  let later := if skipped == 0 then none else candidate? expected false code
  let found := fun (c : Candidate) (n : Nat) => some (c.token, (⟨n, c.length⟩ : Reading))
  match here, later with
  | none, none =>
    if code.isEmpty && expected.contains endToken then some (endToken, ⟨skipped, 0⟩) else none
  | some c, none => found c 0
  | none, some c => found c skipped
  | some c, some d => if c.priority < d.priority then found d skipped else found c 0

/-- The next token. A word is a keyword where the grammar expects the keyword, and where it is
reserved. -/
def State.sight? (s : State) (text : List Char) : Option Sighting :=
  match surrounding? s.expected text with
  | some (token, r) => some ⟨token, r.skipped, r.length, false⟩
  | none =>
    (plain? s.expected text).map fun (token, r) =>
      let plain : Sighting := ⟨token, r.skipped, r.length, false⟩
      if token != nameToken then plain
      else
        let word := String.ofList ((text.drop r.skipped).take r.length)
        match keywords.find? fun k => k.1 == word with
        | some k =>
          if s.expected.contains k.2 || (s.reserves && reserved.contains word) then
            { plain with token := k.2, isKeyword := true }
          else plain
        | none => plain

def State.reservesToken (s : State) (token : Nat) : Bool :=
  s.reserves && keywords.any fun k => k.2 == token && reserved.contains k.1

end Script
end ScriptSense
