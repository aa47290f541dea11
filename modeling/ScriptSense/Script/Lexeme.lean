import ScriptSense.Script.Literal

/-! The classes of tokens whose members are not fixed texts. Most of them are read off the text
alone, which `Lexeme.length` does; the ones for which it answers zero throughout depend on what the
grammar expects. -/
namespace ScriptSense
namespace Script

inductive Lexeme where
  | endOfText
  | name
  | hashBang
  | number
  | privateName
  | tagName
  | reference
  | doubleAttribute
  | singleAttribute
  | doubleText
  | singleText
  | escape
  | pattern
  | patternEnd
  | flags
  | staticGet
  | comment
  /-- The end of a statement that no semicolon marks. -/
  | statementEnd
  | templateText
  /-- The question mark of a conditional expression. -/
  | questionMark
  | markupComment
  | markupText
  deriving DecidableEq, Repr

namespace Lexeme

/-- The length of the longest member at the front of a text. -/
def length : Lexeme → List Char → Nat
  | name, text => wordLength text
  | hashBang, '#' :: '!' :: rest => 2 + run (· != '\n') rest
  | number, text => numberLength text
  | privateName, text => privateLength text
  | tagName, text => tagLength text
  | reference, text => referenceLength text
  | doubleAttribute, text => attributeText '"' text
  | singleAttribute, text => attributeText '\'' text
  | doubleText, text => stringText '"' text
  | singleText, text => stringText '\'' text
  | escape, text => escapeLength text
  | pattern, text => patternTail 0 text
  | patternEnd, '/' :: _ => 1
  | flags, text => run (fun c => 'a' ≤ c && c ≤ 'z') text
  | staticGet, text => staticGetLength text
  | comment, text => commentLength text
  | _, _ => 0

def isImmediate : Lexeme → Bool
  | doubleAttribute | singleAttribute | doubleText | singleText | escape | pattern | patternEnd
  | flags => true
  | _ => false

/-- Of two classes that both have a member here, the one of higher priority is meant, however long
the members are. -/
def priority : Lexeme → Int
  | doubleAttribute | singleAttribute | doubleText | singleText | patternEnd => 1
  | pattern => -1
  | _ => 0

def label? : Lexeme → Option String
  | name => some "identifier"
  | hashBang => some "hash_bang_line"
  | number => some "number"
  | comment => some "comment"
  | markupComment => some "html_comment"
  | privateName => some "private_property_identifier"
  | _ => none

end Lexeme

/-- A token of the grammar: a fixed text, or the members of a class. -/
inductive Token where
  | text (chars : String)
  | lexeme (kind : Lexeme)
  deriving DecidableEq, Repr

namespace Token

def isKeyword : Token → Bool
  | text chars => wordLength chars.toList == chars.length
  | lexeme _ => false

def isImmediate : Token → Bool
  | text _ => false
  | lexeme kind => kind.isImmediate

def priority : Token → Int
  | text _ => 0
  | lexeme kind => kind.priority

/-- Of two tokens of the same length, the one of higher standing is meant. -/
def standing : Token → Nat
  | text _ => 2
  | lexeme kind => if kind.isImmediate then 1 else 0

def length (t : Token) (rest : List Char) : Nat :=
  match t with
  | text chars => if chars.toList.isPrefixOf rest then chars.length else 0
  | lexeme kind => kind.length rest

end Token

/-- Words that name nothing; they may still name properties. -/
def reserved : List String :=
  ["break", "case", "catch", "class", "const", "continue", "debugger", "default", "delete", "do",
    "else", "export", "extends", "false", "finally", "for", "function", "if", "import", "in",
    "instanceof", "new", "null", "return", "super", "switch", "this", "throw", "true", "try",
    "typeof", "var", "void", "while", "with"]

end Script
end ScriptSense
