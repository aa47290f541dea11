import ScriptSense.Data.Shown

/-! How an event is written in a log: as a line of text for a reader, or as an object for a program.
The event, its level and its time are entries among the others. -/
namespace ScriptSense
namespace Log

inductive Line where
  | text (s : String)
  | object (entries : Assoc Value)
  deriving Repr

structure Columns where
  level : Nat
  event : Nat
  deriving DecidableEq, Repr

def wideColumns : Columns := ⟨9, 30⟩

def narrowColumns : Columns := ⟨0, 0⟩

def pad (width : Nat) (s : String) : String :=
  s ++ String.ofList (List.replicate (width - s.length) ' ')

def needsQuotes (c : Char) : Bool := [' ', '\t', '=', '\r', '\n', '"', '\''].contains c

/-- A value behind its key. A text stands without quotes where it can. -/
def fieldText : Value → String
  | .str s => if s.toList.any needsQuotes then Text.quotedString s else s
  | v => String.ofList v.shown

/-- The entries with a place of their own in a line, in order. -/
def places (columns : Columns) : List (String × (String → String)) :=
  [("timestamp", id), ("level", fun s => "[" ++ pad columns.level s ++ "]"),
    ("event", pad columns.event), ("logger", fun s => "[" ++ s ++ "]"),
    ("logger_name", fun s => "[" ++ s ++ "]")]

def dropTrailingSpaces (s : String) : String :=
  String.ofList (s.toList.reverse.dropWhile (· == ' ')).reverse

/-- The entries that stand below the line: a stack of calls, an error, and the request for one. -/
def belowNames : List String := ["stack", "exception", "exc_info"]

def rule : String := "\n\n" ++ String.ofList (List.replicate 79 '=') ++ "\n"

def below (entries : Assoc Value) : String :=
  let wanted := (entries.get? "exc_info").any (!·.isFalsy)
  let text? (name : String) : Option String :=
    match entries.get? name with
    | none | some .null => none
    | some v => some v.text
  let error := text? "exception"
  let stack :=
    match text? "stack" with
    | none => ""
    | some s => "\n" ++ s ++ (if wanted || error.isSome then rule else "")
  stack ++ ((error.map ("\n" ++ ·)).getD "")

/-- One line: first the entries with a place, then the others by name. Further lines may stand below
it. -/
def readable (columns : Columns) (entries : Assoc Value) : String :=
  let lower := below entries
  let entries : Assoc Value := entries.filter fun e => !belowNames.contains e.1
  let placed := (places columns).filterMap fun p => (entries.get? p.1).map fun v => p.2 v.text
  let others := (entries.filter fun e => !(places columns).any fun p => p.1 == e.1).mergeSort
    fun a b => !(b.1 < a.1)
  let parts := placed ++ others.map fun e => e.1 ++ "=" ++ fieldText e.2
  dropTrailingSpaces (" ".intercalate (parts.filter (!·.isEmpty))) ++ lower

def endsLine (c : Char) : Bool :=
  ['\n', '\r', '\x0b', '\x0c', '\x1c', '\x1d', '\x1e', '\x85', '\u2028', '\u2029'].contains c

def split : List Char → List (List Char)
  | [] => []
  | '\r' :: '\n' :: rest => [] :: split rest
  | c :: rest =>
    if endsLine c then [] :: split rest
    else
      match split rest with
      | first :: more => (c :: first) :: more
      | [] => [[c]]

def linesOf (s : String) : List Line :=
  (split (s.toList ++ ['\n'])).map fun cs => .text (String.ofList cs)

end Log
end ScriptSense
