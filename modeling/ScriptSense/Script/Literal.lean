import ScriptSense.Script.Trivia
import ScriptSense.Data.Json

/-! The lengths of words and literals at the front of a text: names, numbers, the fragments and
escapes of strings, and the patterns of regular expressions. -/
namespace ScriptSense
namespace Script

def isHex (c : Char) : Bool := (Json.hexDigit? c).isSome

def isDecimal (c : Char) : Bool := '0' ≤ c && c ≤ '9'

def isLatin (c : Char) : Bool := ('a' ≤ c && c ≤ 'z') || ('A' ≤ c && c ≤ 'Z')

def marks : List Char :=
  [':', ';', '\x60', '"', '\'', '@', '#', '.', ',', '|', '^', '&', '<', '=', '>', '+', '-', '*',
    '/', '\\', '%', '?', '!', '~', '(', ')', '[', ']', '\x7b', '\x7d']

def isWordPart (c : Char) : Bool := !(c.toNat ≤ 0x1f || isSpace c || marks.contains c)

def isWordStart (c : Char) : Bool := isWordPart c && !isDecimal c

/-- The length of a character written as `\u0041` or `\u{41}` inside a word. -/
def wordEscape : List Char → Nat
  | '\\' :: 'u' :: '\x7b' :: rest =>
    let digits := run isHex rest
    if digits != 0 && (rest.drop digits).head? == some '\x7d' then digits + 4 else 0
  | '\\' :: 'u' :: rest => if (Json.hex4? rest).isSome then 6 else 0
  | _ => 0

/-- The length of the rest of a word; the first `inside` characters belong to an escape. -/
def wordTail (inside : Nat) : List Char → Nat
  | [] => 0
  | c :: cs =>
    match inside with
    | k + 1 => wordTail k cs + 1
    | 0 =>
      if isWordPart c then wordTail 0 cs + 1
      else
        match wordEscape (c :: cs) with
        | n + 1 => wordTail n cs + 1
        | 0 => 0

def wordLength (text : List Char) : Nat :=
  if text.head?.any isWordStart || wordEscape text != 0 then wordTail 0 text else 0

def privateLength : List Char → Nat
  | '#' :: rest =>
    match wordLength rest with
    | 0 => 0
    | n + 1 => n + 2
  | _ => 0

def tagLength (text : List Char) : Nat :=
  let isPart := fun c => isLatin c || isDecimal c || c == '_' || c == '$'
  if text.head?.any fun c => isPart c && !isDecimal c then
    let n := run isPart text
    match text.drop n with
    | '-' :: rest => n + 1 + run (fun c => isPart c || c == '-') rest
    | _ => 0
  else 0

def digitRun (digit : Char → Bool) : List Char → Nat
  | [] => 0
  | c :: cs =>
    if digit c then digitRun digit cs + 1
    else if c == '_' && cs.head?.any digit then
      match digitRun digit cs with
      | 0 => 0
      | n + 1 => n + 2
    else 0

def digits (digit : Char → Bool) (text : List Char) : Nat :=
  if text.head?.any digit then digitRun digit text else 0

def exponentLength (text : List Char) : Nat :=
  match text with
  | e :: rest =>
    if e == 'e' || e == 'E' then
      let sign := if rest.head? == some '-' || rest.head? == some '+' then 1 else 0
      let n := digits isDecimal (rest.drop sign)
      if n == 0 then 0 else n + sign + 1
    else 0
  | [] => 0

def basedLength (letters : List Char) (digit : Char → Bool) : List Char → Nat
  | '0' :: b :: rest =>
    if letters.contains b then
      let n := digits digit rest
      if n == 0 then 0
      else if (rest.drop n).head? == some 'n' then n + 3 else n + 2
    else 0
  | _ => 0

def wholeLength (text : List Char) : Nat :=
  match text with
  | '0' :: rest =>
    if rest.head?.any (fun c => '1' ≤ c && c ≤ '9') then digits isDecimal text else 1
  | _ => digits isDecimal text

def fractionLength (text : List Char) : Nat :=
  match text with
  | '.' :: rest =>
    let n := digits isDecimal rest
    if n == 0 then 0 else n + 1 + exponentLength (rest.drop n)
  | _ =>
    let whole := wholeLength text
    if whole == 0 then 0
    else
      match text.drop whole with
      | '.' :: rest =>
        let n := digits isDecimal rest
        whole + 1 + n + exponentLength (rest.drop n)
      | rest =>
        let e := exponentLength rest
        if e == 0 then 0 else whole + e

def numberLength (text : List Char) : Nat :=
  let plain := digits isDecimal text
  let big := if plain != 0 && (text.drop plain).head? == some 'n' then plain + 1 else plain
  [big, fractionLength text, basedLength ['x', 'X'] isHex text,
    basedLength ['b', 'B'] (fun c => c == '0' || c == '1') text,
    basedLength ['o', 'O'] (fun c => '0' ≤ c && c ≤ '7') text].foldl max 0

def escapeLength : List Char → Nat
  | '\\' :: 'x' :: a :: b :: _ => if isHex a && isHex b then 4 else 0
  | '\\' :: 'x' :: _ => 0
  | '\\' :: 'u' :: '\x7b' :: rest =>
    let digits := run isHex rest
    if digits != 0 && (rest.drop digits).head? == some '\x7d' then digits + 4 else 0
  | '\\' :: 'u' :: rest => if (Json.hex4? rest).isSome then 6 else 0
  | '\\' :: c :: rest =>
    if '0' ≤ c && c ≤ '7' then
      1 + run (fun d => '0' ≤ d && d ≤ '7') ((c :: rest).take 3)
    else if (c == '\r' || c == '?') && rest.head?.any isLineEnd then 3
    else 2
  | _ => 0

def stringText (quote : Char) (text : List Char) : Nat :=
  run (fun c => c != quote && c != '\\' && c != '\n' && c != '\r') text

/-- The length of a stretch of text in the value of a markup attribute: an ampersand belongs to it,
together with the character after it, unless it begins a character reference. -/
def attributeText (quote : Char) : List Char → Nat
  | [] => 0
  | '&' :: c :: rest => if c == '#' || isLatin c then 0 else attributeText quote rest + 2
  | c :: rest => if c == quote || c == '&' then 0 else attributeText quote rest + 1

/-- The length of a character reference: a name, a decimal or a hexadecimal number. -/
def referenceLength : List Char → Nat
  | '&' :: rest =>
    let closed := fun (before n least most : Nat) =>
      if least ≤ n && n ≤ most && (rest.drop (before + n)).head? == some ';' then before + n + 2
      else 0
    match rest with
    | '#' :: x :: more =>
      if x == 'x' || x == 'X' then closed 2 (run isHex more) 1 6
      else closed 1 (run isDecimal (x :: more)) 1 5
    | _ => closed 0 (run isLatin rest) 1 30
  | _ => 0

/-- The length of a set of characters in a regular expression, its brackets included. -/
def setTail (escaped : Bool) : List Char → Nat
  | [] => 0
  | c :: rest =>
    if c == '\n' then 0
    else if !escaped && c == ']' then 1
    else
      match setTail (!escaped && c == '\\') rest with
      | 0 => 0
      | n + 1 => n + 2

/-- The length of the pattern of a regular expression; the first `inside` characters belong to a set
or an escape. -/
def patternTail (inside : Nat) : List Char → Nat
  | [] => 0
  | c :: rest =>
    match inside with
    | k + 1 => patternTail k rest + 1
    | 0 =>
      if c == '/' || c == '\n' then 0
      else if c == '\\' then
        if rest.head?.any (· != '\n') then patternTail 1 rest + 1 else 0
      else if c == '[' then
        match setTail false rest with
        | 0 => 0
        | n + 1 => patternTail (n + 1) rest + 1
      else patternTail 0 rest + 1

def staticGetLength (text : List Char) : Nat :=
  if "static".toList.isPrefixOf text then
    let gap := run isPlainSpace (text.drop 6)
    let rest := text.drop (6 + gap)
    if gap != 0 && "get".toList.isPrefixOf rest then
      let blanks := (rest.drop 3).takeWhile isPlainSpace
      let ended := (blanks.reverse.dropWhile (· != '\n')).length
      if ended == 0 then 0 else 9 + gap + ended
    else 0
  else 0

end Script
end ScriptSense
