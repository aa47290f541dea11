import ScriptSense.Text.Utf8
import ScriptSense.Yaml.Cursor
import ScriptSense.Yaml.Quoted
import ScriptSense.Yaml.Token

/-! The words with which a YAML text labels its nodes: names of anchors, tags, and the directives in
front of a document. -/
namespace ScriptSense
namespace Yaml

def isLabelChar (c : Char) : Bool := c.isAlphanum || c == '-' || c == '_'

def anchorName? (p : Cursor) : Option (String × Cursor) :=
  let (name, q) := p.next.span isLabelChar
  let ended := endsWord q.rest ||
    match q.rest with
    | c :: _ => ['?', ':', ',', ']', '\x7d', '%', '@', '\x60'].contains c
    | [] => true
  if name.isEmpty || !ended then none else some (String.ofList name, q)

def isTagChar (c : Char) : Bool :=
  c.isAlphanum || [';', '/', '?', ':', '@', '&', '=', '+', '$', ',', '_', '.', '!', '~', '*', '\'',
    '(', ')', '[', ']', '-'].contains c

def escapedBytes? : List Char → Option (List UInt8)
  | '%' :: a :: b :: rest => do
    let byte ← hexNumber? [a, b]
    let more ← escapedBytes? rest
    return byte.toUInt8 :: more
  | '%' :: _ => none
  | _ => some []

/-- The text of a tag, in which escapes stand for bytes. The first `skip` characters belong to
escapes that were read before. -/
def tagChars? : (skip : Nat) → List Char → Option Piece
  | _, [] => some ([], 0)
  | skip + 1, _ :: rest => (tagChars? skip rest).map fun p => (p.1, p.2 + 1)
  | 0, c :: rest =>
    if c == '%' then do
      let bytes ← escapedBytes? (c :: rest)
      let said ← (Utf8.decode bytes).toOption
      let more ← tagChars? (3 * bytes.length - 1) rest
      return (said ++ more.1, more.2 + 1)
    else if isTagChar c then (tagChars? 0 rest).map fun p => (c :: p.1, p.2 + 1)
    else some ([], 0)

def tagText? (p : Cursor) : Option (String × Cursor) := do
  let (said, n) ← tagChars? 0 p.rest
  if n == 0 then none else return (String.ofList said, p.skip n)

/-- A handle: a name between two exclamation marks, or a single one before a space. -/
def tagHandle? (p : Cursor) : Option (String × Cursor) :=
  match p.rest with
  | '!' :: ' ' :: _ => some ("!", p.next)
  | '!' :: rest =>
    let name := rest.takeWhile isLabelChar
    if rest[name.length]? == some '!' then
      some (String.ofList ('!' :: (name ++ ['!'])), p.skip (name.length + 2))
    else none
  | _ => none

def tag? (p : Cursor) : Option (TagText × Cursor) := do
  let (tag, q) ←
    match p.next.rest with
    | '<' :: _ => do
      let (suffix, q) ← tagText? (p.skip 2)
      if q.rest.head? == some '>' then some (TagText.mk none suffix, q.next) else none
    | rest =>
      if endsWord rest then some (TagText.mk none "!", p.next)
      else if (rest.takeWhile fun c => c != ' ' && !isBreak c).contains '!' then do
        let (handle, q) ← tagHandle? p
        let (suffix, q) ← tagText? q
        some (TagText.mk (some handle) suffix, q)
      else do
        let (suffix, q) ← tagText? p.next
        some (TagText.mk (some "!") suffix, q)
  if endsField q.rest then some (tag, q) else none

def digits? (p : Cursor) : Option (Nat × Cursor) :=
  let (digits, q) := p.span Char.isDigit
  if digits.isEmpty then none else some (Json.natOfDigits digits, q)

def directiveValue? (name : String) (p : Cursor) : Option (Directive × Cursor) :=
  if name == "YAML" then do
    let (major, q) ← digits? p.skipSpaces
    if q.rest.head? != some '.' then none
    else
      let (_, q) ← digits? q.next
      if endsField q.rest then some (.version major, q) else none
  else if name == "TAG" then do
    let (handle, q) ← tagHandle? p.skipSpaces
    if q.rest.head? != some ' ' then none
    else
      let (stem, q) ← tagText? q.skipSpaces
      if endsField q.rest then some (.tagHandle handle stem, q) else none
  else some (.unknown, (p.span fun c => !isBreak c).2)

/-- Reads a directive from its percent sign on, to the end of the line. -/
def directive? (p : Cursor) : Option (Directive × Cursor) := do
  let (name, q) := p.next.span isLabelChar
  if name.isEmpty || !endsField q.rest then none
  else
    let (d, q) ← directiveValue? (String.ofList name) q
    let q ← q.finishLine?
    return (d, q)

end Yaml
end ScriptSense
