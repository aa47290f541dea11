import ScriptSense.Data.Binary64
import ScriptSense.Text.Blank
import ScriptSense.Text.Quoted

/-! Numbers as texts spell them. The digits may be those of any script, blanks may stand around a
number, and a number in a base may begin with the mark of that base. -/
namespace ScriptSense
namespace Numeral

/-- The zeros of all scripts; the other nine digits follow each of them. -/
def zeros : List Nat :=
  [0x30, 0x660, 0x6f0, 0x7c0, 0x966, 0x9e6, 0xa66, 0xae6, 0xb66, 0xbe6, 0xc66, 0xce6, 0xd66, 0xde6,
    0xe50, 0xed0, 0xf20, 0x1040, 0x1090, 0x17e0, 0x1810, 0x1946, 0x19d0, 0x1a80, 0x1a90, 0x1b50,
    0x1bb0, 0x1c40, 0x1c50, 0xa620, 0xa8d0, 0xa900, 0xa9d0, 0xa9f0, 0xaa50, 0xabf0, 0xff10, 0x104a0,
    0x10d30, 0x11066, 0x110f0, 0x11136, 0x111d0, 0x112f0, 0x11450, 0x114d0, 0x11650, 0x116c0,
    0x11730, 0x118e0, 0x11950, 0x11c50, 0x11d50, 0x11da0, 0x16a60, 0x16ac0, 0x16b50, 0x1d7ce,
    0x1d7d8, 0x1d7e2, 0x1d7ec, 0x1d7f6, 0x1e140, 0x1e2f0, 0x1e950, 0x1fbf0]

/-- What a digit of any script counts. -/
def digit? (c : Char) : Option Nat :=
  (zeros.find? fun first => first ≤ c.toNat && c.toNat < first + 10).map (c.toNat - ·)

/-- What a digit or letter counts in a base. -/
def digitIn? (base : Nat) (c : Char) : Option Nat :=
  let count :=
    if 'a' ≤ c && c ≤ 'z' then some (c.toNat - 'a'.toNat + 10)
    else if 'A' ≤ c && c ≤ 'Z' then some (c.toNat - 'A'.toNat + 10)
    else digit? c
  count.filter (· < base)

inductive Fault where
  | notInteger (base : Nat) (text : String)
  | overlong (digits : Nat)
  | notFraction (text : String)
  deriving DecidableEq, Repr

/-- The number of digits up to which an integer is read in a base that is no power of two. -/
def mostDigits : Nat := 4300

def mostShown : Nat := 200

def Fault.message : Fault → String
  | notInteger base text =>
    "invalid literal for int() with base " ++ toString base ++ ": " ++
      String.ofList ((Text.quoted text.toList).take mostShown)
  | overlong digits =>
    "Exceeds the limit (" ++ toString mostDigits ++ " digits) for integer string conversion: " ++
      "value has " ++ toString digits ++
      " digits; use sys.set_int_max_str_digits() to increase the limit"
  | notFraction text => "could not convert string to float: " ++ Text.quotedString text

def unsigned : List Char → Bool × List Char
  | '-' :: rest => (true, rest)
  | '+' :: rest => (false, rest)
  | text => (false, text)

def dropMark (base : Nat) (text : List Char) : List Char :=
  match text with
  | '0' :: c :: rest =>
    if (base == 2 && c.toLower == 'b') || (base == 8 && c.toLower == 'o') ||
        (base == 16 && c.toLower == 'x') then rest
    else text
  | _ => text

def isPowerOfTwo (base : Nat) : Bool := base == 2 || base == 8 || base == 16

def integer (base : Nat) (text : List Char) : Except Fault Int :=
  let (negative, body) := unsigned (text.dropWhile Text.isSpacing)
  let body := dropMark base body
  let digits := body.takeWhile fun c => (digitIn? base c).isSome
  let rest := (body.drop digits.length).dropWhile Text.isSpacing
  if !isPowerOfTwo base && digits.length > mostDigits then .error (.overlong digits.length)
  else if digits.isEmpty || !rest.isEmpty then .error (.notInteger base (String.ofList text))
  else
    let n := digits.foldl (fun n c => n * base + (digitIn? base c).getD 0) 0
    .ok (if negative then -(n : Int) else n)

def natOf (digits : List Char) : Nat := digits.foldl (fun n c => n * 10 + (digit? c).getD 0) 0

def isDigit (c : Char) : Bool := (digit? c).isSome

/-- The power of ten at the front, or none at all if nothing is left. -/
def power? (text : List Char) : Option Int :=
  match text with
  | [] => some 0
  | e :: rest =>
    if e == 'e' || e == 'E' then
      let (negative, digits) := unsigned rest
      if digits.isEmpty || !digits.all isDigit then none
      else some (if negative then -(natOf digits : Int) else natOf digits)
    else none

def decimal? (negative : Bool) (text : List Char) : Option Binary64 :=
  let whole := text.takeWhile isDigit
  let (tenths, rest) :=
    match text.drop whole.length with
    | '.' :: more => (more.takeWhile isDigit, more.dropWhile isDigit)
    | rest => ([], rest)
  if whole.isEmpty && tenths.isEmpty then none
  else
    (power? rest).map fun power =>
      .ofDecimal negative (natOf (whole ++ tenths)) (power - tenths.length)

def fraction (text : List Char) : Except Fault Binary64 :=
  let (negative, body) := unsigned (Text.trimSpacing text)
  let word := String.ofList (body.map Char.toLower)
  let found :=
    if word == "nan" then some .nan
    else if word == "inf" || word == "infinity" then some (.infinite negative)
    else decimal? negative body
  match found with
  | some x => .ok x
  | none => .error (.notFraction (String.ofList text))

end Numeral
end ScriptSense
