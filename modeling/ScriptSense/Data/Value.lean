import ScriptSense.Data.Assoc
import ScriptSense.Data.Binary64

/-! Structured data: the values of record files, settings and log fields. Maps keep the order of
their keys. A map whose keys are not all texts is a table. -/
namespace ScriptSense

inductive Value where
  | null
  | bool (b : Bool)
  | int (n : Int)
  | float (x : Binary64)
  | str (s : String)
  | list (items : List Value)
  | map (entries : List (String × Value))
  | bytes (content : List UInt8)
  | table (rows : List (Value × Value))
  /-- A value that is shown in its own way and otherwise stands for another one. -/
  | styled (shown : String) (value : Value)
  /-- A value of a further kind, known by its text and by how a collection shows it. -/
  | other (text shown : String)
  deriving Repr, Inhabited

namespace Value

def isFalsy : Value → Bool
  | null => true
  | bool b => !b
  | int n => n == 0
  | float x => x.toInt? == some 0
  | str s => s.isEmpty
  | list items => items.isEmpty
  | map entries => entries.isEmpty
  | bytes content => content.isEmpty
  | table rows => rows.isEmpty
  | styled _ v => v.isFalsy
  | other .. => false

def get? (v : Value) (key : String) : Option Value :=
  match v with
  | map entries => Assoc.get? entries key
  | _ => none

/-- The value without its own way of being shown. -/
def bare : Value → Value
  | styled _ v => v.bare
  | v => v

def namedRows (rows : List (Value × Value)) : Assoc Value :=
  rows.filterMap fun row =>
    match row.1 with
    | str key => some (key, row.2)
    | _ => none

def entries? (v : Value) : Option (Assoc Value) :=
  match v.bare with
  | map entries => some entries
  | table rows => some (namedRows rows)
  | _ => none

def rows? (v : Value) : Option (List (Value × Value)) :=
  match v.bare with
  | map entries => some (entries.map fun e => (str e.1, e.2))
  | table rows => some rows
  | _ => none

/-- The number that a key counts as; truth values count as zero and one. -/
def number? : Value → Option Binary64.Exact
  | bool b => some (.ofInt (if b then 1 else 0))
  | int n => some (.ofInt n)
  | float x => x.unrounded?
  | _ => none

def sameKey (a b : Value) : Bool :=
  match a, b with
  | null, null => true
  | str s, str t => s == t
  | bytes s, bytes t => s == t
  | float (.infinite s), float (.infinite t) => s == t
  | other _ s, other _ t => s == t
  | _, _ =>
    match a.number?, b.number? with
    | some x, some y => x.same y
    | _, _ => false

/-- Writes a row; a key that is there already keeps its place and its spelling. -/
def putRow (rows : List (Value × Value)) (key value : Value) : List (Value × Value) :=
  match rows with
  | [] => [(key, value)]
  | row :: rest =>
    if row.1.sameKey key then (row.1, value) :: rest else row :: putRow rest key value

def rowOf? (rows : List (Value × Value)) (key : Value) : Option Value :=
  (rows.find? fun row => row.1.sameKey key).map (·.2)

/-- A table, or a map if all keys are texts. -/
def ofRows (rows : List (Value × Value)) : Value :=
  let named := namedRows rows
  if named.length == rows.length then map named else table rows

def str? : Value → Option String
  | str s => some s
  | _ => none

def int? : Value → Option Int
  | int n => some n
  | _ => none

def bool? : Value → Option Bool
  | bool b => some b
  | _ => none

def list? : Value → Option (List Value)
  | list items => some items
  | _ => none

def map? : Value → Option (Assoc Value)
  | map entries => some entries
  | _ => none

def strings (texts : List String) : Value := list (texts.map str)

def optStr : Option String → Value
  | none => null
  | some s => str s

end Value
end ScriptSense
