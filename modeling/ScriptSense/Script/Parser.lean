import ScriptSense.Script.Lowering
import ScriptSense.Script.Syntax

/-! Reading a snippet by the grammar of scripts. -/
namespace ScriptSense
namespace Script

def parse (text : List Char) : Except Failure (Option Expr) := parseWith syntaxTree? text

end Script
end ScriptSense
