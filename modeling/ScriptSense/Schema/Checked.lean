import ScriptSense.Data.Value

/-! Results of checking data against a shape. A check does not stop at the first fault: faults of
parts that stand side by side are all reported, in the order of the parts. -/
namespace ScriptSense

inductive Problem where
  | notText
  /-- Bytes that are no text. -/
  | undecodable
  | missing
  | notList
  | notMap
  | notRecord (shape : String)
  | notAmong (options : List String)
  | notAmongLiterals (options : List String)
  | notInteger
  | notIntegerText
  | fractional
  | tooManyDigits
  | notFinite
  | notTruth
  | unclearTruth
  | unknownKey
  /-- The home directory of somebody unknown. -/
  | homeless
  | refused (reason : String)
  deriving DecidableEq, Repr

namespace Problem

def kind : Problem → String
  | notText => "string_type"
  | undecodable => "string_unicode"
  | missing => "missing"
  | notList => "list_type"
  | notMap => "dict_type"
  | notRecord _ => "model_type"
  | notAmong _ => "enum"
  | notAmongLiterals _ => "literal_error"
  | notInteger => "int_type"
  | notIntegerText => "int_parsing"
  | fractional => "int_from_float"
  | tooManyDigits => "int_parsing_size"
  | notFinite => "finite_number"
  | notTruth => "bool_type"
  | unclearTruth => "bool_parsing"
  | unknownKey => "extra_forbidden"
  | homeless => "home_unknown"
  | refused _ => "value_error"

def listOptions : List String → String
  | [] => ""
  | [a] => "'" ++ a ++ "'"
  | [a, b] => "'" ++ a ++ "' or '" ++ b ++ "'"
  | a :: rest => "'" ++ a ++ "', " ++ listOptions rest

def message : Problem → String
  | notText => "Input should be a valid string"
  | undecodable =>
    "Input should be a valid string, unable to parse raw data as a unicode string"
  | missing => "Field required"
  | notList => "Input should be a valid list"
  | notMap => "Input should be a valid dictionary"
  | notRecord shape => "Input should be a valid dictionary or instance of " ++ shape
  | notAmong options => "Input should be " ++ listOptions options
  | notAmongLiterals options => "Input should be " ++ listOptions options
  | notInteger => "Input should be a valid integer"
  | notIntegerText => "Input should be a valid integer, unable to parse string as an integer"
  | fractional => "Input should be a valid integer, got a number with a fractional part"
  | tooManyDigits => "Unable to parse input string as an integer, exceeded maximum size"
  | notFinite => "Input should be a finite number"
  | notTruth => "Input should be a valid boolean"
  | unclearTruth => "Input should be a valid boolean, unable to interpret input"
  | unknownKey => "Extra inputs are not permitted"
  | homeless => "Could not determine home directory."
  | refused reason => "Value error, " ++ reason

end Problem

/-- A problem, the path of keys to the value that has it, and that value. -/
structure Violation where
  path : List String
  problem : Problem
  value : Value
  deriving Repr

/-- The same problem, seen from outside of the value under a key. -/
def Violation.below (key : String) (v : Violation) : Violation := { v with path := key :: v.path }

/-- A checked value, or all that is wrong with it, which is something. -/
inductive Checked (α : Type) where
  | ok (value : α)
  | failed (first : Violation) (others : List Violation)
  deriving Repr

namespace Checked

variable {α β : Type}

def fail (problem : Problem) (value : Value) : Checked α := failed ⟨[], problem, value⟩ []

def violations : Checked α → List Violation
  | ok _ => []
  | failed v vs => v :: vs

def value? : Checked α → Option α
  | ok a => some a
  | failed .. => none

def map (f : α → β) : Checked α → Checked β
  | ok a => ok (f a)
  | failed v vs => failed v vs

/-- Applies a checked function to a checked argument; the faults of both are kept. -/
def apply (f : Checked (α → β)) (a : Unit → Checked α) : Checked β :=
  match f, a () with
  | ok g, ok x => ok (g x)
  | ok _, failed v vs => failed v vs
  | failed v vs, ok _ => failed v vs
  | failed v vs, failed w ws => failed v (vs ++ w :: ws)

instance : Functor Checked where
  map := map

instance : Applicative Checked where
  pure := ok
  seq := apply

/-- A further check on a value that passed the first. -/
def andThen (a : Checked α) (f : α → Checked β) : Checked β :=
  match a with
  | ok x => f x
  | failed v vs => failed v vs

def below (key : String) : Checked α → Checked α
  | ok a => ok a
  | failed v vs => failed (v.below key) (vs.map (·.below key))

def all (check : β → Checked α) : List β → Checked (List α)
  | [] => ok []
  | b :: bs => List.cons <$> check b <*> all check bs

@[simp] theorem map_ok (f : α → β) (a : α) : (f <$> (ok a : Checked α)) = ok (f a) := rfl

@[simp] theorem seq_ok (f : α → β) (a : α) : ((ok f : Checked (α → β)) <*> ok a) = ok (f a) := rfl

end Checked
end ScriptSense
