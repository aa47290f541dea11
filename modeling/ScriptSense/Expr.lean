/-! Addressable expressions: names, `this` and `super`, member accesses, calls and constructions.
Every node keeps the text it was read from. -/
namespace ScriptSense

inductive Expr where
  | identifier (name : String)
  | this
  | super
  | member (text : String) (object : Expr) (property : String) (optional : Bool)
  | call (text : String) (callee : Expr) (arguments : List String) (optional : Bool)
  | construct (text : String) (className : String) (arguments : List String)
  deriving DecidableEq, Repr

namespace Expr

def text : Expr → String
  | identifier name => name
  | this => "this"
  | super => "super"
  | member text .. => text
  | call text .. => text
  | construct text .. => text

/-- The dotted name of a chain of identifiers without optional links. -/
def dottedName? : Expr → Option String
  | identifier name => some name
  | member _ object property false => (object.dottedName?).map fun front => front ++ "." ++ property
  | _ => none

end Expr
end ScriptSense
