import ScriptSense.Data.Value
import ScriptSense.Schema.Checked
import ScriptSense.Text.Blank
import ScriptSense.Text.Name
import ScriptSense.Text.Utf8

/-! Reading typed values from structured data. Integers and truth values are read leniently: an
integer may be written as a text, a whole fraction or a truth value, and a truth value as a number
or as one of a few words. -/
namespace ScriptSense
namespace Schema

variable {α : Type}

abbrev Decoder (α : Type) := Value → Checked α

/-- A text; bytes are one if they are encoded characters. -/
def text : Decoder String
  | .str s => .ok s
  | .bytes content =>
    match Utf8.decode content with
    | .ok cs => .ok (String.ofList cs)
    | .error _ => .fail .undecodable (.bytes content)
  | v => .fail .notText v

def optional (decode : Decoder α) : Decoder (Option α)
  | .null => .ok none
  | v => (decode v).map some

def list (decode : Decoder α) : Decoder (List α) := fun v =>
  match v.bare with
  | .list items =>
    Checked.all (fun item => (decode item.1).below (toString item.2)) (items.zipIdx)
  | _ => .fail .notList v

def map (decode : Decoder α) : Decoder (Assoc α)
  | .map entries =>
    Checked.all (fun entry => ((decode entry.2).below entry.1).map (Prod.mk entry.1)) entries
  | v => .fail .notMap v

def choice (problem : List String → Problem) (options : List (String × α)) : Decoder α := fun v =>
  match v.str?.bind (Assoc.get? options) with
  | some a => .ok a
  | none => .fail (problem (options.map (·.1))) v

def among (options : List (String × α)) : Decoder α := choice .notAmong options

def literal (options : List (String × α)) : Decoder α := choice .notAmongLiterals options

def ensuring (decode : Decoder α) (refusal : α → Option String) : Decoder α := fun v =>
  (decode v).andThen fun a =>
    match refusal a with
    | some reason => .fail (.refused reason) v
    | none => .ok a

/-- Nothing stands for an empty list. -/
def listOrNothing (decode : Decoder α) : Decoder (List α) := fun v =>
  if v.isFalsy then .ok [] else list decode v

/-- Nothing stands for an empty map. -/
def mapOrNothing (decode : Decoder α) : Decoder (Assoc α) := fun v =>
  if v.isFalsy then .ok [] else map decode v

/-- Drops the zeros in front, with any underscores among them, up to a digit or a minus; a lone zero
stays. -/
def dropLeadingZeros (t : List Char) : List Char :=
  match t with
  | '0' :: _ =>
    let zeros := t.takeWhile fun c => c == '0' || c == '_'
    match t.drop zeros.length with
    | c :: rest =>
      if Text.isDigit c || c == '-' then c :: rest else zeros.reverse.take 1 ++ c :: rest
    | [] => zeros.reverse.take 1
  | _ => t

/-- Drops a point with nothing but zeros after it. -/
def dropZeroFraction (t : List Char) : List Char :=
  let whole := t.takeWhile (· != '.')
  match t.drop whole.length with
  | '.' :: c :: zeros => if (c :: zeros).all (· == '0') then whole else t
  | _ => t

/-- Drops underscores, which stand neither at an end nor side by side. -/
def dropUnderscores? (t : List Char) : Option (List Char) :=
  let pieces := Text.splitAt '_' t
  if pieces.all (!·.isEmpty) then some pieces.flatten else none

def natOfDigits (digits : List Char) : Nat :=
  digits.foldl (fun n c => n * 10 + (c.toNat - '0'.toNat)) 0

def signedDigits? (t : List Char) : Option (Bool × List Char) :=
  match t with
  | '-' :: '0' :: _ :: _ => none
  | '-' :: digits => some (true, digits)
  | '_' :: _ => none
  | digits => some (false, digits)

/-- The digits that an integer text spells: blanks around it, a sign, leading zeros, underscores
between digits and a zero fraction are allowed. -/
def integerDigits? (s : String) : Option (Bool × List Char) := do
  let (negative, body) ←
    match Text.trimSpacing s.toList with
    | '-' :: rest => some (true, rest)
    | '+' :: '-' :: _ => none
    | '+' :: rest => some (false, rest)
    | rest => some (false, rest)
  let body := dropZeroFraction (dropLeadingZeros body)
  let (inner, digits) ← signedDigits? (← dropUnderscores? body)
  if (negative && inner) || body.head? == some '_' || digits.isEmpty || !digits.all Text.isDigit
  then none
  else some (negative || inner, digits)

def mostDigits : Nat := 4300

def integerOfText (s : String) (v : Value) : Checked Int :=
  match integerDigits? s with
  | none => .fail .notIntegerText v
  | some (negative, digits) =>
    if digits.length > mostDigits then .fail .tooManyDigits v
    else .ok (if negative then -(natOfDigits digits : Int) else natOfDigits digits)

/-- The bound beyond which a number with a fraction part is not taken as an integer. -/
def wholeBound : Int := Int.pow 2 63

def integerOfFloat (x : Binary64) (v : Value) : Checked Int :=
  match x with
  | .finite .. =>
    match x.toInt? with
    | some n => if -wholeBound < n && n < wholeBound then .ok n else .fail .tooManyDigits v
    | none => .fail .fractional v
  | _ => .fail .notFinite v

def integer : Decoder Int
  | .int n => .ok n
  | .bool b => .ok (if b then 1 else 0)
  | .float x => integerOfFloat x (.float x)
  | .str s => integerOfText s (.str s)
  | .bytes content =>
    match Utf8.decode content with
    | .ok cs => integerOfText (String.ofList cs) (.bytes content)
    | .error _ => .fail .notIntegerText (.bytes content)
  | v => .fail .notInteger v

def trueWords : List String := ["1", "on", "t", "true", "y", "yes"]

def falseWords : List String := ["0", "off", "f", "false", "n", "no"]

def asciiLower (s : String) : String := String.ofList (s.toList.map Char.toLower)

/-- Zero and one are truth values, and other numbers are unclear. -/
def truthOfInteger (n : Int) (v : Value) : Checked Bool :=
  if n == 0 then .ok false
  else if n == 1 then .ok true
  else .fail .unclearTruth v

def truthOfText (s : String) (v : Value) : Checked Bool :=
  if trueWords.contains (asciiLower s) then .ok true
  else if falseWords.contains (asciiLower s) then .ok false
  else .fail .unclearTruth v

/-- Numbers beyond a bound are no truth values at all. -/
def truth : Decoder Bool
  | .bool b => .ok b
  | .int n =>
    if -wholeBound ≤ n && n < wholeBound then truthOfInteger n (.int n)
    else .fail .notTruth (.int n)
  | .float x =>
    match x.toInt? with
    | some n =>
      if -wholeBound < n && n < wholeBound then truthOfInteger n (.float x)
      else .fail .notTruth (.float x)
    | none => .fail .notTruth (.float x)
  | .str s => truthOfText s (.str s)
  | .bytes content =>
    match Utf8.decode content with
    | .ok cs => truthOfText (String.ofList cs) (.bytes content)
    | .error _ => .fail .unclearTruth (.bytes content)
  | v => .fail .notTruth v

/-- A key of a record: its usual spelling, and another one that is also understood. -/
structure Key where
  usual : String
  other : String
  deriving DecidableEq, Repr

def Key.plain (name : String) : Key := ⟨name, name⟩

/-- The entry of a key with the spelling it was found under; the usual spelling goes first. -/
def Key.find? (key : Key) (entries : Assoc Value) : Option (String × Value) :=
  match entries.get? key.usual with
  | some v => some (key.usual, v)
  | none => (entries.get? key.other).map (Prod.mk key.other)

def required (key : Key) (decode : Decoder α) (entries : Assoc Value) : Checked α :=
  match key.find? entries with
  | some (name, v) => (decode v).below name
  | none => .failed ⟨[key.usual], .missing, .map entries⟩ []

def orElse (key : Key) (absent : α) (decode : Decoder α) (entries : Assoc Value) : Checked α :=
  match key.find? entries with
  | some (name, v) => (decode v).below name
  | none => .ok absent

def maybe (key : Key) (decode : Decoder α) (entries : Assoc Value) : Checked (Option α) :=
  orElse key none (optional decode) entries

def record (shape : String) (decode : Assoc Value → Checked α) : Decoder α := fun v =>
  match v.entries? with
  | some entries => decode entries
  | none => .fail (.notRecord shape) v

end Schema
end ScriptSense
