import ScriptSense.Record.Member
import ScriptSense.Record.Property

/-! The compiled description of one class. -/
namespace ScriptSense

structure ClassRecord where
  name : String
  superClass : Option String
  mixins : List String
  isSingleton : Bool
  constructor : Option Member
  members : Assoc Member
  statics : Assoc Member
  properties : Assoc Property
  location : Option Span
  deriving DecidableEq, Repr

namespace ClassRecord

def decode : Schema.Decoder ClassRecord :=
  Schema.record "ClassRecord" fun entries =>
    ClassRecord.mk <$> Schema.required ⟨"className", "class_name"⟩ Schema.text entries
      <*> Schema.maybe ⟨"superClass", "super_class"⟩ Schema.text entries
      <*> Schema.orElse (.plain "mixins") [] (Schema.listOrNothing Schema.text) entries
      <*> Schema.orElse ⟨"isSingleton", "is_singleton"⟩ false Schema.truth entries
      <*> Schema.maybe ⟨"construct", "constructor"⟩ Member.decode entries
      <*> Schema.orElse (.plain "members") [] (Schema.mapOrNothing Member.decode) entries
      <*> Schema.orElse (.plain "statics") [] (Schema.mapOrNothing Member.decode) entries
      <*> Schema.orElse (.plain "properties") [] (Schema.mapOrNothing Property.decode) entries
      <*> Schema.maybe (.plain "location") Span.decode entries

def membersValue (members : Assoc Member) : Value :=
  .map (members.map fun entry => (entry.1, entry.2.toValue))

def toValue (r : ClassRecord) : Value :=
  .map (presentEntries [("className", some (.str r.name)), ("superClass", r.superClass.map .str),
    ("mixins", some (Value.strings r.mixins)), ("isSingleton", some (.bool r.isSingleton)),
    ("construct", r.constructor.map Member.toValue), ("members", some (membersValue r.members)),
    ("statics", some (membersValue r.statics)),
    ("properties", some (.map (r.properties.map fun entry => (entry.1, entry.2.toValue)))),
    ("location", r.location.map Span.toValue)])

/-- The member of a name; members of the class itself go first. -/
def member? (r : ClassRecord) (name : String) : Option Member :=
  match r.statics.get? name with
  | some m => some m
  | none => r.members.get? name

end ClassRecord
end ScriptSense
