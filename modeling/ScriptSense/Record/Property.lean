import ScriptSense.Record.Doc
import ScriptSense.Record.Span

/-! Properties of a class. Merged views give each property its accessors. -/
namespace ScriptSense

structure Property where
  name : Option String
  /-- The type name its values are checked against. -/
  check : Option String
  event : Option String
  nullable : Bool
  location : Option Span
  doc : Option Doc
  inheritedFrom : Option String
  deriving DecidableEq, Repr

namespace Property

def nestedKeys : List String := ["check", "event", "nullable"]

/-- Lifts a nested definition; keys outside it win. -/
def lift (entries : Assoc Value) : Assoc Value :=
  match entries.get? "json" with
  | some (.map definition) =>
    let lifted := nestedKeys.filterMap fun k => (Assoc.get? definition k).map (Prod.mk k)
    Assoc.putAll lifted (entries.erase "json")
  | _ => entries

/-- Only a check that is a text names a type. -/
def checkName : Schema.Decoder (Option String)
  | .str s => .ok (some s)
  | _ => .ok none

def decode : Schema.Decoder Property :=
  Schema.record "PropertyRecord" fun written =>
    let entries := lift written
    Property.mk <$> Schema.maybe (.plain "name") Schema.text entries
      <*> Schema.orElse (.plain "check") none checkName entries
      <*> Schema.maybe (.plain "event") Schema.text entries
      <*> Schema.orElse (.plain "nullable") false Schema.truth entries
      <*> Schema.maybe (.plain "location") Span.decode entries
      <*> Schema.maybe (.plain "jsdoc") Doc.decode entries
      <*> Schema.maybe ⟨"inheritedFrom", "inherited_from"⟩ Schema.text entries

def toValue (p : Property) : Value :=
  .map (presentEntries [("name", p.name.map .str), ("check", p.check.map .str),
    ("event", p.event.map .str), ("nullable", some (.bool p.nullable)),
    ("location", p.location.map Span.toValue), ("jsdoc", p.doc.map Doc.toValue),
    ("inheritedFrom", p.inheritedFrom.map .str)])

/-- The type of a property, without generic decoration. -/
def documentedType (p : Property) : Option String :=
  p.check.bind fun c =>
    if c.isEmpty then none else some (String.ofList (TypeText.stripGenerics c.toList))

end Property
end ScriptSense
