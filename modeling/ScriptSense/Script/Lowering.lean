import ScriptSense.Expr
import ScriptSense.Script.Node
import ScriptSense.Text.Blank

/-! What a snippet denotes, told from its syntax tree. A snippet is understood if it is one expression
that denotes something addressable. -/
namespace ScriptSense
namespace Script

/-- Why a snippet denotes nothing. -/
inductive Failure where
  | malformed
  | notOneExpression
  | unsupported (kind : String)
  deriving DecidableEq, Repr

def Failure.reason : Failure → String
  | malformed => "syntax_error"
  | notOneExpression => "not_one_expression"
  | unsupported _ => "unsupported_node"

namespace Node

def isOptional (n : Node) : Bool := n.children.any (·.kind == "optional_chain")

def isSolid (n : Node) : Bool := n.kind != "comment"

/-- The texts of the arguments between brackets; other values after a callee are none. -/
def arguments (n : Node) : List String :=
  match n.child? "arguments" with
  | some list =>
    if list.kind == "arguments" then (list.namedChildren.filter isSolid).map (·.text) else []
  | none => []

/-- What a node denotes as an addressable expression. -/
def lower (n : Node) : Option Expr :=
  match n.kind with
  | "identifier" => some (.identifier n.text)
  | "this" => some .this
  | "super" => some .super
  | "parenthesized_expression" =>
    match _h : n.namedChildren with
    | [inner] => inner.lower
    | _ => none
  | "member_expression" =>
    match _h : n.child? "object", n.child? "property" with
    | some object, some property =>
      object.lower.map fun e => .member n.text e property.text n.isOptional
    | _, _ => none
  | "call_expression" =>
    match _h : n.child? "function" with
    | some function => function.lower.map fun e => .call n.text e n.arguments n.isOptional
    | none => none
  | "new_expression" =>
    (n.child? "constructor").map fun name => .construct n.text name.text n.arguments
  | _ => none
termination_by n
decreasing_by
  · exact sizeOf_lt_of_mem (mem_children_of_mem_named (by simp [_h]))
  · exact sizeOf_lt_of_mem (mem_children_of_child? _h)
  · exact sizeOf_lt_of_mem (mem_children_of_child? _h)

end Node

/-- What a script denotes that has been read: it has to be one expression. -/
def meaning (script : Node) : Except Failure (Option Expr) :=
  match script.namedChildren.filter Node.isSolid with
  | [statement] =>
    if statement.kind == "expression_statement" then
      match statement.namedChildren with
      | [] => .ok none
      | value :: _ =>
        match value.lower with
        | some e => .ok (some e)
        | none => .error (.unsupported value.kind)
    else .error .notOneExpression
  | _ => .error .notOneExpression

/-- What a snippet denotes; a blank snippet denotes nothing without being at fault. -/
def parseWith (reader : SyntaxReader) (text : List Char) : Except Failure (Option Expr) :=
  if Text.isBlankText text then .ok none
  else
    match reader text with
    | none => .error .malformed
    | some script => meaning script

end Script
end ScriptSense
