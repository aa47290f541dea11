import ScriptSense.Data.Value
import ScriptSense.Text.Case
import ScriptSense.Text.Numeral
import ScriptSense.Yaml.Moment
import ScriptSense.Yaml.Node
import ScriptSense.Yaml.Quoted

/-! What single texts stand for. Without a tag a text without quotes may be a word for a truth
value or for nothing, a number in one of several notations, or a date; everything else is a text.
-/
namespace ScriptSense
namespace Yaml

/-- Why a document has no meaning. -/
inductive Fault where
  | malformed
  /-- A text that is not what its tag or its form says. -/
  | unreadable (message : String)
  /-- A word that is tagged as a truth value and is none. -/
  | noTruth (word : String)
  /-- A number without any digit. -/
  | noDigits
  /-- A text that is tagged as a moment and is none. -/
  | noMoment
  /-- A number with too many places. -/
  | tooLarge
  /-- A character that does not exist. -/
  | noCharacter
  /-- A character whose number does not even fit into a word. -/
  | longCode
  deriving DecidableEq, Repr

def Fault.message : Fault → String
  | malformed => "not YAML"
  | unreadable message => message
  | noTruth word => Text.quotedString word
  | noDigits => "string index out of range"
  | noMoment => "'NoneType' object has no attribute 'groupdict'"
  | tooLarge => "int too large to convert to float"
  | noCharacter => "chr() arg not in range(0x110000)"
  | longCode => "Python int too large to convert to C int"

/-- From here on a number does not fit into a signed word. -/
def wordLimit : Nat := Nat.pow 2 31

def Fault.ofCode (code : Nat) : Fault := if code < wordLimit then noCharacter else longCode

namespace Scalar

def nullWords : List String := ["", "~", "null", "Null", "NULL"]

/-- A word in small letters, with a capital, or in capitals. -/
def spellings (word : String) : List String :=
  let capitals := word.toList.map Char.toUpper
  [word, String.ofList (capitals.take 1 ++ word.toList.drop 1), String.ofList capitals]

def trueWords : List String := ["yes", "true", "on"]

def falseWords : List String := ["no", "false", "off"]

def truth? (text : String) : Option Bool :=
  if (trueWords.flatMap spellings).contains text then some true
  else if (falseWords.flatMap spellings).contains text then some false
  else none

def unsigned (text : List Char) : Bool × List Char := Numeral.unsigned text

def isGrouped (c : Char) : Bool := Text.isDigit c || c == '_'

def isNonEmptyOf (kind : Char → Bool) (text : List Char) : Bool := !text.isEmpty && text.all kind

def isSixtieth : List Char → Bool
  | [c] => Text.isDigit c
  | [c, d] => '0' ≤ c && c ≤ '5' && Text.isDigit d
  | _ => false

/-- Digits and underscores, of which the first character is of a kind. -/
def isGroupedFrom (kind : Char → Bool) : List Char → Bool
  | c :: rest => kind c && rest.all isGrouped
  | [] => false

def isPositiveDigit (c : Char) : Bool := '1' ≤ c && c ≤ '9'

/-- Whether a text has the form of a whole number: binary, octal, decimal, hexadecimal or to the
base sixty. -/
def isInteger (text : List Char) : Bool :=
  match (unsigned text).2 with
  | ['0'] => true
  | '0' :: 'b' :: digits => isNonEmptyOf (fun c => c == '0' || c == '1' || c == '_') digits
  | '0' :: 'x' :: digits => isNonEmptyOf (fun c => (Json.hexDigit? c).isSome || c == '_') digits
  | '0' :: digits => isNonEmptyOf (fun c => ('0' ≤ c && c ≤ '7') || c == '_') digits
  | body =>
    match Text.splitAt ':' body with
    | whole :: parts => isGroupedFrom isPositiveDigit whole && parts.all isSixtieth
    | [] => false

/-- Nothing, or a power of ten with a sign. -/
def isExponent : List Char → Bool
  | [] => true
  | e :: sign :: digits =>
    (e == 'e' || e == 'E') && (sign == '+' || sign == '-') && isNonEmptyOf Text.isDigit digits
  | _ => false

def isDecimal (text : List Char) : Bool :=
  let body := (unsigned text).2
  let signed := body.length != text.length
  match body.takeWhile isGrouped, body.dropWhile isGrouped with
  | [], '.' :: c :: rest => !signed && Text.isDigit c && isExponent (rest.dropWhile isGrouped)
  | c :: _, '.' :: rest => Text.isDigit c && isExponent (rest.dropWhile isGrouped)
  | _, _ => false

def isSexagesimal (text : List Char) : Bool :=
  let body := (unsigned text).2
  let whole := body.takeWhile (· != '.')
  match Text.splitAt ':' whole, body.drop whole.length with
  | first :: part :: parts, '.' :: rest =>
    isGroupedFrom Text.isDigit first && (part :: parts).all isSixtieth && rest.all isGrouped
  | _, _ => false

def isInfinite (text : List Char) : Bool :=
  [".inf", ".Inf", ".INF"].contains (String.ofList (unsigned text).2)

def isNan (text : List Char) : Bool := [".nan", ".NaN", ".NAN"].contains (String.ofList text)

def isFraction (text : List Char) : Bool :=
  isDecimal text || isSexagesimal text || isInfinite text || isNan text

def inBase (base : Nat) (text : List Char) : Except Fault Int :=
  match Numeral.integer base text with
  | .ok n => .ok n
  | .error e => .error (.unreadable e.message)

/-- The whole number that a text without a sign spells. -/
def unsignedInteger (text : List Char) : Except Fault Int :=
  match text with
  | [] => .error .noDigits
  | '0' :: 'b' :: digits => inBase 2 digits
  | '0' :: 'x' :: digits => inBase 16 digits
  | '0' :: _ => inBase 8 text
  | _ => do
    let parts ← (Text.splitAt ':' text).mapM (inBase 10)
    return parts.foldl (fun n part => n * 60 + part) 0

def integer (text : List Char) : Except Fault Int :=
  let (negative, body) := unsigned (text.filter (· != '_'))
  (unsignedInteger body).map fun n => if negative then -n else n

def inDecimals (text : List Char) : Except Fault Binary64 :=
  match Numeral.fraction text with
  | .ok x => .ok x
  | .error e => .error (.unreadable e.message)

def mostPlaces : Nat := 173

def roundedInt (n : Nat) : Binary64 := (Binary64.Exact.ofInt n).rounded false

/-- Adds up places to the base sixty, the last one first; every step rounds. -/
def sumPlaces (total : Binary64) (place : Nat) : List Binary64 → Binary64
  | [] => total
  | x :: rest => sumPlaces (total.add (x.mul (roundedInt (Nat.pow 60 place)))) (place + 1) rest

def unsignedFraction (text : List Char) : Except Fault Binary64 :=
  if text == ".inf".toList then .ok (.infinite false)
  else if text == ".nan".toList then .ok .nan
  else if text.contains ':' then do
    let parts ← (Text.splitAt ':' text).mapM inDecimals
    if parts.length > mostPlaces + 1 then .error .tooLarge
    else return sumPlaces (.finite false 0 Binary64.leastExponent) 0 parts.reverse
  else inDecimals text

def fraction (text : List Char) : Except Fault Binary64 :=
  let text := (text.filter (· != '_')).flatMap Text.lower
  let (negative, body) := unsigned text
  if text.isEmpty then .error .noDigits
  else (unsignedFraction body).map fun x => if negative then x.neg else x

def moment (m : Moment) : Except Fault Value :=
  match m.refusal? with
  | some message => .error (.unreadable message)
  | none => .ok (.other m.toText m.shown)

/-- The tag of a text without quotes that has no tag of its own. -/
def impliedTag (text : String) : String :=
  let cs := text.toList
  if (truth? text).isSome then "bool"
  else if isFraction cs then "float"
  else if isInteger cs then "int"
  else if text == "<<" then "merge"
  else if nullWords.contains text then "null"
  else if (Moment.ofText? cs).isSome then "timestamp"
  else if text == "=" then "value"
  else "str"

def tagOf (labels : Labels) (text : String) (plain : Bool) : String :=
  match labels.tag with
  | none => Node.standardTag (if plain then impliedTag text else "str")
  | some "!" => Node.standardTag (impliedTag text)
  | some tag => tag

/-- Whether a character is one of the 64 digits, and what it counts. -/
def digit64? (c : Char) : Option Nat :=
  if 'A' ≤ c && c ≤ 'Z' then some (c.toNat - 'A'.toNat)
  else if 'a' ≤ c && c ≤ 'z' then some (c.toNat - 'a'.toNat + 26)
  else if '0' ≤ c && c ≤ '9' then some (c.toNat - '0'.toNat + 52)
  else if c == '+' then some 62
  else if c == '/' then some 63
  else none

/-- The bytes of a text of six-bit digits. `held` are the `count` digits of the group of four at
hand, and `pads` counts the padding behind them. Other characters are passed over. -/
def bytesOf (held count pads : Nat) : List Char → Option (List UInt8)
  | [] => if count == 0 then some [] else none
  | c :: rest =>
    if c == '=' then
      if count ≥ 2 && count + pads + 1 ≥ 4 then some [] else bytesOf held count (pads + 1) rest
    else
      match digit64? c with
      | none => bytesOf held count pads rest
      | some d =>
        let more (byte next : Nat) (count : Nat) : Option (List UInt8) :=
          (bytesOf next count 0 rest).map (byte.toUInt8 :: ·)
        match count with
        | 0 => bytesOf d 1 0 rest
        | 1 => more (held * 4 + d / 16) (d % 16) 2
        | 2 => more (held * 16 + d / 4) (d % 4) 3
        | _ => more (held * 64 + d) 0 0

/-- What a text stands for under a full tag. -/
def value (tag text : String) : Except Fault Value :=
  let cs := text.toList
  let isTag (name : String) : Bool := tag == Node.standardTag name
  if isTag "str" then .ok (.str text)
  else if isTag "null" then .ok .null
  else if isTag "int" then (integer cs).map .int
  else if isTag "float" then (fraction cs).map .float
  else if isTag "bool" then
    let word := String.ofList (cs.flatMap Text.lower)
    match truth? word with
    | some b => .ok (.bool b)
    | none => .error (.noTruth word)
  else if isTag "timestamp" then
    match Moment.ofTagged? cs with
    | some m => moment m
    | none => .error .noMoment
  else if isTag "binary" then
    match if cs.all (·.toNat < 0x80) then bytesOf 0 0 0 cs else none with
    | some content => .ok (.bytes content)
    | none => .error .malformed
  else .error .malformed

end Scalar
end Yaml
end ScriptSense
