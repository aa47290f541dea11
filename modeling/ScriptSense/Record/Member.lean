import ScriptSense.Record.Doc
import ScriptSense.Record.Span

/-! Members of a class: methods and variables, of instances or of the class itself. -/
namespace ScriptSense

inductive MemberKind where
  | function
  | variable
  deriving DecidableEq, Repr

/-- From where a member may be used. -/
inductive Access where
  | anywhere
  | subclasses
  | ownClass
  deriving DecidableEq, Repr

namespace MemberKind

def options : List (String × MemberKind) := [("function", .function), ("variable", .variable)]

def name : MemberKind → String
  | .function => "function"
  | .variable => "variable"

end MemberKind

namespace Access

def options : List (String × Access) :=
  [("public", .anywhere), ("protected", .subclasses), ("private", .ownClass)]

def name : Access → String
  | .anywhere => "public"
  | .subclasses => "protected"
  | .ownClass => "private"

end Access

/-- A method or a variable. In a merged view, `inheritedFrom` names the ancestor that has it and
`mixin` the mixin it came with. -/
structure Member where
  kind : Option MemberKind
  access : Access
  location : Option Span
  doc : Option Doc
  overriddenFrom : Option String
  inheritedFrom : Option String
  mixin : Option String
  deriving DecidableEq, Repr

namespace Member

def isFunction (m : Member) : Bool := m.kind == some .function

def isVariable (m : Member) : Bool := m.kind == some .variable

def function (location : Option Span) (doc : Doc) : Member :=
  ⟨some .function, .anywhere, location, some doc, none, none, none⟩

def decode : Schema.Decoder Member :=
  Schema.record "MemberRecord" fun entries =>
    Member.mk <$> Schema.maybe (.plain "type") (Schema.among MemberKind.options) entries
      <*> Schema.orElse (.plain "access") .anywhere (Schema.among Access.options) entries
      <*> Schema.maybe (.plain "location") Span.decode entries
      <*> Schema.maybe (.plain "jsdoc") Doc.decode entries
      <*> Schema.maybe ⟨"overriddenFrom", "overridden_from"⟩ Schema.text entries
      <*> Schema.maybe ⟨"inheritedFrom", "inherited_from"⟩ Schema.text entries
      <*> Schema.maybe (.plain "mixin") Schema.text entries

def toValue (m : Member) : Value :=
  .map (presentEntries [("type", m.kind.map fun k => .str k.name),
    ("access", some (.str m.access.name)), ("location", m.location.map Span.toValue),
    ("jsdoc", m.doc.map Doc.toValue), ("overriddenFrom", m.overriddenFrom.map .str),
    ("inheritedFrom", m.inheritedFrom.map .str), ("mixin", m.mixin.map .str)])

end Member
end ScriptSense
