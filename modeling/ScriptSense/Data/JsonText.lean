import ScriptSense.Data.Shown
import ScriptSense.Text.Quoted

/-! Writing structured data as JSON text. The text is ASCII: other characters are written as escaped
code units. -/
namespace ScriptSense
namespace Json

def unitEscape (n : Nat) : List Char := '\\' :: 'u' :: Text.hexDigits 4 n

def writtenChar (c : Char) : List Char :=
  if c == '"' then ['\\', '"']
  else if c == '\\' then ['\\', '\\']
  else if c == '\n' then ['\\', 'n']
  else if c == '\r' then ['\\', 'r']
  else if c == '\t' then ['\\', 't']
  else if c == '\x08' then ['\\', 'b']
  else if c == '\x0c' then ['\\', 'f']
  else if 0x20 ≤ c.toNat && c.toNat < 0x7f then [c]
  else if c.toNat < 0x10000 then unitEscape c.toNat
  else
    let n := c.toNat - 0x10000
    unitEscape (0xd800 + n / 0x400) ++ unitEscape (0xdc00 + n % 0x400)

def writtenText (s : String) : List Char := '"' :: (s.toList.flatMap writtenChar ++ ['"'])

def writtenFloat : Binary64 → List Char
  | .nan => "NaN".toList
  | .infinite true => "-Infinity".toList
  | .infinite false => "Infinity".toList
  | x => x.toText.toList

mutual

def written : Value → List Char
  | .null => "null".toList
  | .bool b => (if b then "true" else "false").toList
  | .int n => (toString n).toList
  | .float x => writtenFloat x
  | .str s => writtenText s
  | .list items => '[' :: (writtenItems items ++ [']'])
  | .map entries => '\x7b' :: (writtenEntries entries ++ ['\x7d'])
  | .bytes content => writtenText (String.ofList (Value.shownBytes content))
  | .table rows => writtenText (String.ofList (Value.table rows).shown)
  | .styled _ v => written v
  | .other text _ => writtenText text

def writtenItems : List Value → List Char
  | [] => []
  | [v] => written v
  | v :: rest => written v ++ ',' :: ' ' :: writtenItems rest

def writtenEntries : List (String × Value) → List Char
  | [] => []
  | [(k, v)] => writtenText k ++ ':' :: ' ' :: written v
  | (k, v) :: rest =>
    writtenText k ++ ':' :: ' ' :: (written v ++ ',' :: ' ' :: writtenEntries rest)

end

end Json
end ScriptSense
