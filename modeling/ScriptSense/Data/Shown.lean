import ScriptSense.Data.Value
import ScriptSense.Text.Quoted

/-! Values as messages show them: texts in quotes, collections in brackets, truth and absence as
capitalised words. A text on its own stands without quotes. -/
namespace ScriptSense
namespace Value

def shownByte (quote : Char) (b : UInt8) : List Char :=
  if b.toNat < 0x7f then Text.quotedChar quote (Char.ofNat b.toNat)
  else Text.codeEscape (Char.ofNat b.toNat)

def shownBytes (content : List UInt8) : List Char :=
  let quote := Text.quoteFor (content.map fun b => Char.ofNat b.toNat)
  'b' :: quote :: (content.flatMap (shownByte quote) ++ [quote])

def braced (inner : List Char) : List Char := '\x7b' :: (inner ++ ['\x7d'])

mutual

def shown : Value → List Char
  | null => "None".toList
  | bool b => (if b then "True" else "False").toList
  | int n => (toString n).toList
  | float x => x.toText.toList
  | str s => Text.quoted s.toList
  | list items => '[' :: (shownItems items ++ [']'])
  | map entries => braced (shownEntries entries)
  | bytes content => shownBytes content
  | table rows => braced (shownRows rows)
  | styled text _ => text.toList
  | other _ text => text.toList

def shownItems : List Value → List Char
  | [] => []
  | [v] => shown v
  | v :: rest => shown v ++ ',' :: ' ' :: shownItems rest

def shownEntries : List (String × Value) → List Char
  | [] => []
  | [(k, v)] => Text.quoted k.toList ++ ':' :: ' ' :: shown v
  | (k, v) :: rest =>
    Text.quoted k.toList ++ ':' :: ' ' :: (shown v ++ ',' :: ' ' :: shownEntries rest)

def shownRows : List (Value × Value) → List Char
  | [] => []
  | [(k, v)] => shown k ++ ':' :: ' ' :: shown v
  | (k, v) :: rest =>
    shown k ++ ':' :: ' ' :: (shown v ++ ',' :: ' ' :: shownRows rest)

end

def mostDigits : Nat := 4300

def isOverlong (n : Int) : Bool := decide (Nat.pow 10 mostDigits ≤ n.natAbs)

mutual

/-- Whether a value has a text at all; overlong integers have none. -/
def isWritable : Value → Bool
  | int n => !isOverlong n
  | list items => areWritable items
  | map entries => entriesWritable entries
  | table rows => rowsWritable rows
  | _ => true

def areWritable : List Value → Bool
  | [] => true
  | v :: rest => isWritable v && areWritable rest

def entriesWritable : List (String × Value) → Bool
  | [] => true
  | (_, v) :: rest => isWritable v && entriesWritable rest

def rowsWritable : List (Value × Value) → Bool
  | [] => true
  | (k, v) :: rest => isWritable k && isWritable v && rowsWritable rest

end

def text : Value → String
  | str s => s
  | other text _ => text
  | v => String.ofList v.shown

end Value
end ScriptSense
