import ScriptSense.Text.Name

/-! Type names as documentation writes them. Generic decoration is dropped line by line, and a
braced type is read from the first line that has one. -/
namespace ScriptSense
namespace TypeText

open Text

/-- What stands after the last `c`, if there is one. -/
def afterLast? (c : Char) : List Char → Option (List Char)
  | [] => none
  | d :: ds =>
    match afterLast? c ds with
    | some rest => some rest
    | none => if d == c then some ds else none

/-- What stands before the last `c`, if there is one. -/
def beforeLast? (c : Char) : List Char → Option (List Char)
  | [] => none
  | d :: ds =>
    match beforeLast? c ds with
    | some front => some (d :: front)
    | none => if d == c then some [] else none

/-- Drops everything from the first `<` of a line to its last `>`. -/
def stripLine : List Char → List Char
  | [] => []
  | c :: cs =>
    if c == '<' then (afterLast? '>' cs).getD (c :: cs)
    else c :: stripLine cs

/-- Drops generic decoration: `a.Array<String>` becomes `a.Array`. -/
def stripGenerics (type : List Char) : List Char :=
  trim (joinWith ['\n'] ((splitAt '\n' type).map stripLine))

/-- What stands between the first `{` of a line and its last `}`. -/
def bracesOfLine? : List Char → Option (List Char)
  | [] => none
  | c :: cs => if c == '\x7b' then beforeLast? '\x7d' cs else bracesOfLine? cs

/-- The type in braces that a documentation body begins with; blank braces hold none. -/
def braced? (body : List Char) : Option (List Char) :=
  match (splitAt '\n' body).findSome? bracesOfLine? with
  | none => none
  | some inner => if (trim inner).isEmpty then none else some (trim inner)

end TypeText
end ScriptSense
