import ScriptSense.Script.Trivia
import ScriptSense.Text.Word

/-! Tokens that depend on what surrounds them: the end of a statement without a semicolon, the text
of templates and of markup, the question mark of a conditional expression, and the comments of
markup. -/
namespace ScriptSense
namespace Script

inductive Gap where
  /-- At a slash that begins no comment; what follows the slash. -/
  | slash (rest : List Char)
  /-- Right after a block comment that holds no line break. -/
  | inLine (rest : List Char)
  /-- Before something else. -/
  | clear (rest : List Char)

/-- Runs over blanks and comments, and tells whether there was a comment. With `pausing` set, it
stops after a block comment, unless a slash follows; `broken` says whether a line break was seen in
one. -/
def gap (pausing broken commented : Bool) (text : List Char) : Gap × Bool :=
  match _h : text.dropWhile isBreaking with
  | '/' :: '/' :: rest => gap pausing broken true (rest.dropWhile fun c => !isLineEnd c)
  | '/' :: '*' :: rest =>
    match blockTail rest with
    | 0 => (.clear [], commented)
    | n + 1 =>
      let broken := broken || (rest.take n).any isLineEnd
      let after := rest.drop (n + 1)
      if pausing && after.head? != some '/' then
        (if broken then .clear after else .inLine after, true)
      else gap pausing broken true after
  | '/' :: rest => (.slash rest, commented)
  | rest => (.clear rest, commented)
termination_by text.length
decreasing_by
  · have h₁ := (List.dropWhile_suffix isBreaking (l := text)).length_le
    have h₂ := (List.dropWhile_suffix (fun c => !isLineEnd c) (l := rest)).length_le
    rw [_h] at h₁
    simp only [List.length_cons] at h₁
    omega
  · have h₁ := (List.dropWhile_suffix isBreaking (l := text)).length_le
    rw [_h] at h₁
    simp only [List.length_cons] at h₁
    simp only [List.length_drop]
    omega

def isOperatorLetter (c : Char) : Bool := Text.isWordChar c && c != '_' && !(('0' ≤ c && c ≤ '9'))

def isDigit (c : Char) : Bool := '0' ≤ c && c ≤ '9'

def carriesOn : List Char :=
  ['\x60', ',', ':', ';', '*', '%', '>', '<', '=', '[', '(', '?', '^', '|', '&', '/']

/-- Whether a text begins with the word `in` or `instanceof`, and what follows the part of it that
was needed to tell. -/
def inOperator : List Char → Bool × List Char
  | 'i' :: 'n' :: rest =>
    if !(rest.head?.any isOperatorLetter) then (true, rest)
    else if "stanceof".toList.isPrefixOf rest then
      (!((rest.drop 8).head?.any isOperatorLetter), rest.drop 8)
    else (false, rest)
  | text => (false, text)

/-- Whether the first token after a line break begins a new statement, and what follows the part of
it that was needed to tell. -/
def beginsStatement : List Char → Bool × List Char
  | [] => (true, [])
  | '.' :: rest => (rest.head?.any isDigit, rest)
  | '+' :: rest => (rest.head? == some '+', rest)
  | '-' :: rest => (rest.head? == some '-', rest)
  | '!' :: rest => (rest.head? != some '=', rest)
  | 'i' :: rest =>
    let found := inOperator ('i' :: rest)
    (!found.1, found.2)
  | c :: rest => (!carriesOn.contains c, c :: rest)

/-- Whether a statement may end at a point, whether a comment was met in finding out, and where the
search stopped. -/
structure Ending where
  ends : Bool
  commented : Bool
  rest : List Char

/-- A statement may end without a semicolon at the end of the text, before a closing brace, and at a
line break after which a new statement begins. With `afterComment` set, also a comment ends it. -/
def ending (afterComment : Bool) : (fuel : Nat) → (commented : Bool) → List Char → Ending
  | 0, commented, text => ⟨false, commented, text⟩
  | _ + 1, commented, [] => ⟨true, commented, []⟩
  | fuel + 1, commented, '/' :: more =>
    match gap true false commented ('/' :: more) with
    | (.slash rest, commented) => ⟨false, commented, rest⟩
    | (.clear rest, commented) =>
      if afterComment && rest.head? != some ',' && rest.head? != some '=' then
        ⟨true, commented, rest⟩
      else look fuel commented rest
    | (.inLine rest, commented) => look fuel commented rest
  | fuel + 1, commented, text => look fuel commented text
where
  /-- Decides on the character at hand. -/
  look (fuel : Nat) (commented : Bool) : List Char → Ending
    | [] => ⟨false, commented, []⟩
    | '\x7d' :: rest => ⟨true, commented, '\x7d' :: rest⟩
    | c :: rest =>
      if isLineEnd c then
        match gap false false commented rest with
        | (.slash rest, commented) => ⟨false, commented, rest⟩
        | (.clear rest, commented) | (.inLine rest, commented) =>
          let found := beginsStatement rest
          ⟨found.1, commented, found.2⟩
      else if isBreaking c then ending afterComment fuel commented rest
      else ⟨false, commented, c :: rest⟩

structure Reading where
  skipped : Nat
  length : Nat
  deriving DecidableEq, Repr

/-- The question mark of a conditional expression: not one of two, and before a point only if that
begins a number. -/
def questionMark? (text : List Char) : Option Reading :=
  let skipped := run isBreaking text
  match text.drop skipped with
  | '?' :: '?' :: _ => none
  | '?' :: '.' :: rest => if rest.head?.any isDigit then some ⟨skipped, 1⟩ else none
  | '?' :: _ => some ⟨skipped, 1⟩
  | _ => none

/-- The length of template text up to its closing mark, an escape or a substitution, if one of them
comes. -/
def templateStop? : List Char → Option Nat
  | [] => none
  | c :: rest =>
    if c == '\x60' || c == '\\' || (c == '$' && rest.head? == some '\x7b') then some 0
    else if c.toNat == 0 then none
    else (templateStop? rest).map (· + 1)

def templateText? (text : List Char) : Option Reading :=
  match templateStop? text with
  | some (n + 1) => some ⟨0, n + 1⟩
  | _ => none

def endsMarkup (c : Char) : Bool :=
  c == '<' || c == '>' || c == '\x7b' || c == '\x7d' || c == '&' || c.toNat == 0

def showsText (atBreak : Bool) : List Char → Bool
  | [] => false
  | c :: rest =>
    if c == '\n' then showsText true rest
    else if atBreak && isBreaking c then showsText true rest
    else true

def markupComment? (text : List Char) : Option Reading :=
  let skipped := run isBreaking text
  let code := text.drop skipped
  if "<!--".toList.isPrefixOf code || "-->".toList.isPrefixOf code then
    some ⟨skipped, run (fun c => !isLineEnd c) code⟩
  else none

end Script
end ScriptSense
