import ScriptSense.Text.Blank
import ScriptSense.Text.Word
import ScriptSense.Source.Occurrence

/-! Assignments `name = expression;` in source text. The expression stands on one line and runs to
the first semicolon; blanks around the equals sign may cross lines. -/
namespace ScriptSense
namespace Assignment

open Text

def continues (c : Char) : Bool := isWordChar c || c == '$' || c == '.'

/-- The text up to the first semicolon, if it comes before the end of the line. -/
def body? : List Char → Option (List Char)
  | [] => none
  | c :: cs =>
    if c == ';' then some []
    else if c == '\n' then none
    else (body? cs).map (c :: ·)

/-- What follows the name: an equals sign that is part of no longer operator, and the body. The
number is the count of characters taken, the closing semicolon included. -/
def definition? (rest : List Char) : Option (Nat × List Char) :=
  match rest.dropWhile isBlank with
  | '=' :: after =>
    if after.head? = some '=' ∨ after.head? = some '>' then none
    else
      let expression := after.dropWhile isBlank
      (body? expression).map fun body =>
        (rest.length - expression.length + body.length + 1, body)
  | _ => none

def pattern (name : List Char) : Occurrence.Pattern (List Char) := fun previous rest =>
  if previous.any continues then none
  else if name.isPrefixOf rest then
    (definition? (rest.drop name.length)).map fun (n, body) => (name.length + n, body)
  else none

/-- The nearest assignment to `name` before the cursor. -/
def nearest? (name source : List Char) (cursor : Int) : Option (Occurrence (List Char)) :=
  Occurrence.lastBefore? (pattern name) source cursor

end Assignment
end ScriptSense
