/-! What an expression denotes. -/
namespace ScriptSense

/-- A package, a class, an object of a class, or a method with the class of what it returns. -/
inductive Denotation where
  | package (name : String)
  | klass (name : String)
  | object (className : String)
  | method (name : String) (returns : String)
  deriving DecidableEq, Repr

namespace Denotation

def name : Denotation → String
  | package name => name
  | klass name => name
  | object className => className
  | method name _ => name

def className? : Denotation → Option String
  | package _ => none
  | klass name => some name
  | object className => some className
  | method _ _ => none

def isObject : Denotation → Bool
  | object _ => true
  | _ => false

def result? : Denotation → Option Denotation
  | method _ returns => some (object returns)
  | _ => none

end Denotation
end ScriptSense
