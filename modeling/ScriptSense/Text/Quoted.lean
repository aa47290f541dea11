import ScriptSense.Text.Printable

/-! Texts in quotes, as messages show them. A single quote encloses the text unless the text has
single quotes and no double ones. Backslashes, the enclosing quote and characters that cannot be
printed are escaped. -/
namespace ScriptSense
namespace Text

/-- The digits of a code point in lower-case hexadecimal, at least `width` of them. -/
def hexDigits (width n : Nat) : List Char :=
  let digits := Nat.toDigits 16 n
  List.replicate (width - digits.length) '0' ++ digits

/-- A character that cannot be printed, by its code point. -/
def codeEscape (c : Char) : List Char :=
  if c.toNat ≤ 0xff then '\\' :: 'x' :: hexDigits 2 c.toNat
  else if c.toNat ≤ 0xffff then '\\' :: 'u' :: hexDigits 4 c.toNat
  else '\\' :: 'U' :: hexDigits 8 c.toNat

def quotedChar (quote c : Char) : List Char :=
  if c == '\\' || c == quote then ['\\', c]
  else if c == '\t' then ['\\', 't']
  else if c == '\n' then ['\\', 'n']
  else if c == '\r' then ['\\', 'r']
  else if isPrintable c then [c]
  else codeEscape c

def quoteFor (t : List Char) : Char := if t.contains '\'' && !t.contains '"' then '"' else '\''

def quoted (t : List Char) : List Char :=
  let quote := quoteFor t
  quote :: (t.flatMap (quotedChar quote) ++ [quote])

def quotedString (s : String) : String := String.ofList (quoted s.toList)

end Text
end ScriptSense
