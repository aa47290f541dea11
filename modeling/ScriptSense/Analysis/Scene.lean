import ScriptSense.Analysis.Denotation
import ScriptSense.Analysis.Traced
import ScriptSense.Namespace.Override
import ScriptSense.Script.Parser
import ScriptSense.Source.ClassHeader

/-! What an analysis works on: the known classes, a way to read expressions, and a source text. -/
namespace ScriptSense

abbrev Parser := String → Traced (Option Expr)

namespace Parser

def failed (expression : String) (failure : Script.Failure) : Event :=
  let kind :=
    match failure with
    | .unsupported k => [("node_type", .str k)]
    | _ => []
  ⟨.debug, "expression_parse_failed",
    [("expression", .str expression), ("reason", .str failure.reason)] ++ kind⟩

/-- Reads expressions off the syntax trees that a reader of scripts hands out. -/
def ofReader (reader : Script.SyntaxReader) : Parser := fun text =>
  match Script.parseWith reader text.toList with
  | .ok e => pure e
  | .error failure => do
    Traced.report (failed text failure)
    return none

def script : Parser := ofReader Script.syntaxTree?

/-- Knows what some texts are read as; it reads nothing else. -/
def known (readings : Assoc Expr) : Parser := fun text => pure (readings.get? text)

/-- Knows some texts by heart, each standing for another text; it reads nothing else. -/
def table (known : Assoc String) : Parser := fun text =>
  match known.get? text with
  | some other => script other
  | none => pure none

end Parser

structure Scene where
  names : Namespace
  parser : Parser
  source : List Char

namespace Scene

def header? (scene : Scene) : Option ClassHeader := ClassHeader.find? scene.source

def view (scene : Scene) (name : String) : Traced (Option ClassRecord) :=
  ⟨scene.names.view? name, [.viewed name]⟩

def record (scene : Scene) (name : String) : Traced (Option ClassRecord) :=
  ⟨scene.names.record? name, [.read name]⟩

/-- Follows a method to those it overrides as far as needed, in no more steps than classes. -/
def overridden (scene : Scene) (name : String) (enough : Member → Bool) (m : Member) :
    Traced Member :=
  Override.follow scene.view name enough (scene.names.classCount + 2) [] m

/-- The method of a name as a class sees it, with documented parameters if any class that has it
documents them. -/
def method (scene : Scene) (className name : String) : Traced (Option Member) :=
  Override.method scene.view (scene.names.classCount + 2) className name

end Scene
end ScriptSense
