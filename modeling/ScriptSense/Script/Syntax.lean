import ScriptSense.Script.Machine
import ScriptSense.Script.Node

/-! The syntax tree of a script: what was read for it, without the constructs that leave no node of
their own. -/
namespace ScriptSense
namespace Script
namespace Tree

def valueWords : List String := ["this", "super", "true", "false", "null", "undefined"]

/-- The words that are names where they stand for values. -/
def nameWords : List String := ["get", "set", "async", "await", "static", "export", "let"]

/-- The kind of a token, and whether it is more than a mark. -/
def kindOf (token : Nat) : String × Bool :=
  match tokens[token]? with
  | some (.text chars) =>
    if nameWords.contains chars then ("identifier", true)
    else if chars == "?." then ("optional_chain", true)
    else (chars, valueWords.contains chars)
  | some (.lexeme l) => (l.label?.getD "", l.label?.isSome)
  | none => ("", false)

/-- Whether a rule leaves a node of its own. -/
def isVisible (rule : Nat) : Bool :=
  match ruleNames[rule]? with
  | some name => !isRepeat rule && !"_".isPrefixOf name && !gatherings.contains name
  | none => false

def fieldsOf (kind : String) : List String :=
  match kind with
  | "member_expression" => ["object", "property"]
  | "call_expression" => ["function", "arguments"]
  | "new_expression" => ["constructor", "arguments"]
  | _ => []

/-- A name in the place of a property is of a kind of its own. -/
def fill (field : String) (n : Node) : Node :=
  let kind := if field == "property" && n.kind == "identifier" then "property_identifier" else n.kind
  { n with kind, field := some field }

/-- Hands out fields; marks and comments fill none. -/
def fillAll : List String → List Node → List Node
  | field :: fields, n :: rest =>
    if !n.isNamed || ["comment", "html_comment", "optional_chain"].contains n.kind then
      n :: fillAll (field :: fields) rest
    else fill field n :: fillAll fields rest
  | _, rest => rest

def textIn (text : List Char) (t : Tree) : String :=
  String.ofList ((text.drop t.extent.start).take (t.extent.stop - t.extent.start))

mutual

/-- The node that a tree leaves, or those of its parts if it leaves none. -/
def nodes (text : List Char) : Tree → List Node
  | leaf t e =>
    let (kind, isNamed) := kindOf t
    let field := if kind == "optional_chain" then some kind else none
    if t == statementEndToken then [] else [⟨kind, isNamed, field, (leaf t e).textIn text, []⟩]
  | node p w e cs =>
    let parts := nodesAll text cs
    if isVisible (ruleOf p) then
      let kind := ruleNames[ruleOf p]?.getD ""
      [⟨kind, true, none, (node p w e cs).textIn text, fillAll (fieldsOf kind) parts⟩]
    else parts

def nodesAll (text : List Char) : List Tree → List Node
  | [] => []
  | c :: cs => c.nodes text ++ nodesAll text cs

end

end Tree

/-- Reads a script by its grammar. -/
def syntaxTree? : SyntaxReader := fun text => (read? text).bind fun t => (t.nodes text).head?

end Script
end ScriptSense
