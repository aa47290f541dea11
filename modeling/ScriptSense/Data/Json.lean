import ScriptSense.Data.Value

/-! Reading structured data from its JSON text. A text that cannot be read is refused with the cause
and the place of the fault. Key order is kept, and a repeated key takes its last value. Overlong
integers and overly deep nesting are beyond what is read at all. -/
namespace ScriptSense
namespace Json

inductive Cause where
  | value
  | propertyName
  | comma
  | colon
  | extraData
  | unterminated
  | control
  | escape
  | unicodeEscape
  | byteOrderMark
  /-- An integer with more digits than are read. -/
  | overlong (digits : Nat)
  /-- Lists or maps that are nested deeper than is read. -/
  | tooDeep (inList : Bool)
  deriving DecidableEq, Repr

def Cause.isExcess : Cause → Bool
  | overlong _ | tooDeep _ => true
  | _ => false

def mostDigits : Nat := 4300

def overlongText (digits : Nat) : String :=
  "Exceeds the limit (" ++ toString mostDigits ++ " digits) for integer string conversion: " ++
    "value has " ++ toString digits ++
    " digits; use sys.set_int_max_str_digits() to increase the limit"

def deepest : Nat := 975

def Cause.text : Cause → String
  | value => "Expecting value"
  | propertyName => "Expecting property name enclosed in double quotes"
  | comma => "Expecting ',' delimiter"
  | colon => "Expecting ':' delimiter"
  | extraData => "Extra data"
  | unterminated => "Unterminated string starting at"
  | control => "Invalid control character at"
  | escape => "Invalid \\escape"
  | unicodeEscape => "Invalid \\uXXXX escape"
  | byteOrderMark => "Unexpected UTF-8 BOM (decode using utf-8-sig)"
  | overlong digits => overlongText digits
  | tooDeep inList =>
    "maximum recursion depth exceeded while decoding a JSON " ++
      (if inList then "array" else "object") ++ " from a unicode string"

/-- Why and where a text is not JSON; the position counts characters from zero. -/
structure Fault where
  cause : Cause
  position : Nat
  line : Nat
  column : Nat
  deriving DecidableEq, Repr

def Fault.message (f : Fault) : String :=
  if f.cause.isExcess then f.cause.text
  else f.cause.text ++ ": line " ++ toString f.line ++ " column " ++ toString f.column ++
    " (char " ++ toString f.position ++ ")"

/-- A fault while reading: the cause and how many characters were left. -/
abbrev Stop := Cause × Nat

abbrev Reader (α : Type) := List Char → Except Stop (α × List Char)

def isSpace (c : Char) : Bool := c == ' ' || c == '\t' || c == '\n' || c == '\r'

def skipSpace (text : List Char) : List Char := text.dropWhile isSpace

def isDigit (c : Char) : Bool := '0' ≤ c && c ≤ '9'

def hexDigit? (c : Char) : Option Nat :=
  if '0' ≤ c && c ≤ '9' then some (c.toNat - '0'.toNat)
  else if 'a' ≤ c && c ≤ 'f' then some (c.toNat - 'a'.toNat + 10)
  else if 'A' ≤ c && c ≤ 'F' then some (c.toNat - 'A'.toNat + 10)
  else none

def hex4? : List Char → Option Nat
  | a :: b :: c :: d :: _ => do
    let a ← hexDigit? a
    let b ← hexDigit? b
    let c ← hexDigit? c
    let d ← hexDigit? d
    return ((a * 16 + b) * 16 + c) * 16 + d
  | _ => none

def isHighSurrogate (n : Nat) : Bool := 0xd800 ≤ n && n ≤ 0xdbff

def isLowSurrogate (n : Nat) : Bool := 0xdc00 ≤ n && n ≤ 0xdfff

/-- The character of a code unit; half a pair on its own becomes the replacement character. -/
def unitChar (n : Nat) : Char :=
  if isHighSurrogate n || isLowSurrogate n then Char.ofNat 0xfffd else Char.ofNat n

def escaped? : Char → Option Char
  | '"' => some '"'
  | '\\' => some '\\'
  | '/' => some '/'
  | 'b' => some '\x08'
  | 'f' => some '\x0c'
  | 'n' => some '\n'
  | 'r' => some '\r'
  | 't' => some '\t'
  | _ => none

/-- The escape after `\u`: its character and how many characters it takes. The escape is refused
unless a character follows it, which the closing quote always does. -/
def unicodeEscape (text : List Char) : Except Stop (Char × Nat) :=
  if text.length ≤ 4 then .error (.unicodeEscape, text.length + 1)
  else
    match hex4? text with
    | none => .error (.unicodeEscape, text.length + 1)
    | some high =>
      match text.drop 4 with
      | '\\' :: 'u' :: more =>
        if isHighSurrogate high && more.length > 4 then
          match hex4? more with
          | none => .error (.unicodeEscape, more.length + 1)
          | some low =>
            if isLowSurrogate low then
              .ok (Char.ofNat (0x10000 + (high - 0xd800) * 0x400 + (low - 0xdc00)), 10)
            else .ok (unitChar high, 4)
        else .ok (unitChar high, 4)
      | _ => .ok (unitChar high, 4)

/-- The rest of a string after its opening quote. `opened` counts the characters from that quote on,
and `skip` those that an escape has already used up. -/
def stringBody (opened : Nat) : (skip : Nat) → List Char → Except Stop (List Char × List Char)
  | _, [] => .error (.unterminated, opened)
  | skip + 1, _ :: cs => stringBody opened skip cs
  | 0, c :: cs =>
    if c == '"' then .ok ([], cs)
    else if c == '\\' then
      match cs with
      | [] => .error (.unterminated, opened)
      | 'u' :: more => do
        let (d, n) ← unicodeEscape more
        let (body, rest) ← stringBody opened (n + 1) ('u' :: more)
        return (d :: body, rest)
      | e :: more =>
        match escaped? e with
        | none => .error (.escape, more.length + 2)
        | some d => do
          let (body, rest) ← stringBody opened 1 (e :: more)
          return (d :: body, rest)
    else if c.toNat ≤ 0x1f then .error (.control, cs.length + 1)
    else do
      let (body, rest) ← stringBody opened 0 cs
      return (c :: body, rest)

def string : Reader String := fun text => do
  let (body, rest) ← stringBody (text.length + 1) 0 text
  return (String.ofList body, rest)

def natOfDigits (digits : List Char) : Nat :=
  digits.foldl (fun n c => n * 10 + (c.toNat - '0'.toNat)) 0

def wholeDigits? : List Char → Option (List Char × List Char)
  | '0' :: rest => some (['0'], rest)
  | c :: rest =>
    if isDigit c then some (c :: rest.takeWhile isDigit, rest.dropWhile isDigit) else none
  | [] => none

def fraction : List Char → List Char × List Char
  | '.' :: rest =>
    let digits := rest.takeWhile isDigit
    if digits.isEmpty then ([], '.' :: rest) else (digits, rest.dropWhile isDigit)
  | text => ([], text)

def exponent? (text : List Char) : Option (Int × List Char) :=
  match text with
  | e :: rest =>
    if e == 'e' || e == 'E' then
      let (negative, body) :=
        match rest with
        | '-' :: more => (true, more)
        | '+' :: more => (false, more)
        | more => (false, more)
      let digits := body.takeWhile isDigit
      if digits.isEmpty then none
      else
        let n : Int := natOfDigits digits
        some (if negative then -n else n, body.dropWhile isDigit)
    else none
  | [] => none

def number : Reader Value := fun text =>
  let (negative, body) :=
    match text with
    | '-' :: more => (true, more)
    | more => (false, more)
  match wholeDigits? body with
  | none => .error (.value, text.length)
  | some (whole, rest) =>
    let (tenths, rest) := fraction rest
    match tenths, exponent? rest with
    | [], none =>
      if whole.length > mostDigits then .error (.overlong whole.length, text.length)
      else
        let n : Int := natOfDigits whole
        .ok (.int (if negative then -n else n), rest)
    | _, found =>
      let (power, rest) := found.getD (0, rest)
      let digits := natOfDigits (whole ++ tenths)
      .ok (.float (Binary64.ofDecimal negative digits (power - tenths.length)), rest)

def words : List (List Char × Value) :=
  [("null".toList, .null), ("true".toList, .bool true), ("false".toList, .bool false),
    ("NaN".toList, .float .nan), ("Infinity".toList, .float (.infinite false)),
    ("-Infinity".toList, .float (.infinite true))]

def word? (text : List Char) : Option (Value × List Char) :=
  words.findSome? fun (w, v) => if w.isPrefixOf text then some (v, text.drop w.length) else none

mutual

/-- A value at the front; `fuel` bounds the nesting and the number of parts, and `room` is how much
deeper lists and maps may be nested. -/
def value (room : Nat) : Nat → Reader Value
  | 0, text => .error (.value, text.length)
  | fuel + 1, text =>
    match text with
    | '"' :: rest => do
      let (s, rest) ← string rest
      return (.str s, rest)
    | '\x7b' :: rest =>
      if room = 0 then .error (.tooDeep false, text.length)
      else
        match skipSpace rest with
        | '\x7d' :: after => .ok (.map [], after)
        | inner => do
          let (entries, after) ← members (room - 1) fuel [] inner
          return (.map entries, after)
    | '[' :: rest =>
      if room = 0 then .error (.tooDeep true, text.length)
      else
        match skipSpace rest with
        | ']' :: after => .ok (.list [], after)
        | inner => do
          let (items, after) ← elements (room - 1) fuel inner
          return (.list items, after)
    | _ =>
      match word? text with
      | some found => .ok found
      | none => number text

def members (room : Nat) : Nat → Assoc Value → Reader (Assoc Value)
  | 0, _, text => .error (.propertyName, text.length)
  | fuel + 1, read, text =>
    match text with
    | '"' :: rest => do
      let (key, rest) ← string rest
      match skipSpace rest with
      | ':' :: rest =>
        let (v, rest) ← value room fuel (skipSpace rest)
        let read := read.put key v
        match skipSpace rest with
        | '\x7d' :: after => return (read, after)
        | ',' :: after => members room fuel read (skipSpace after)
        | other => throw (.comma, other.length)
      | other => throw (.colon, other.length)
    | other => .error (.propertyName, other.length)

def elements (room : Nat) : Nat → Reader (List Value)
  | 0, text => .error (.value, text.length)
  | fuel + 1, text => do
    let (v, rest) ← value room fuel text
    match skipSpace rest with
    | ']' :: after => return ([v], after)
    | ',' :: after =>
      let (more, after) ← elements room fuel (skipSpace after)
      return (v :: more, after)
    | other => throw (.comma, other.length)

end

def document (text : List Char) : Except Stop Value := do
  if text.head? = some (Char.ofNat 0xfeff) then throw (.byteOrderMark, text.length)
  let (v, rest) ← value deepest (2 * text.length + 2) (skipSpace text)
  match skipSpace rest with
  | [] => return v
  | other => throw (.extraData, other.length)

def lineColumn (text : List Char) (position : Nat) : Nat × Nat :=
  let front := text.take position
  (front.count '\n' + 1, (front.reverse.takeWhile (· != '\n')).length + 1)

def read (text : List Char) : Except Fault Value :=
  match document text with
  | .ok v => .ok v
  | .error (cause, left) =>
    let position := text.length - left
    let (line, column) := lineColumn text position
    .error ⟨cause, position, line, column⟩

end Json
end ScriptSense
