import ScriptSense.Schema.Decode
import ScriptSense.TypeText

/-! Documentation comments, already split into their tags. -/
namespace ScriptSense

def presentEntries (entries : List (String × Option Value)) : Assoc Value :=
  entries.filterMap fun entry => entry.2.map (Prod.mk entry.1)

structure ParamDoc where
  name : String
  type : Option String
  description : Option String
  deriving DecidableEq, Repr

namespace ParamDoc

/-- The description may also stand under its short key. -/
def withDescription (entries : Assoc Value) : Assoc Value :=
  if entries.has "description" then entries
  else
    match entries.get? "desc" with
    | some v => entries.put "description" v
    | none => entries

def decode : Schema.Decoder ParamDoc :=
  Schema.record "ParamDoc" fun written =>
    let entries := withDescription written
    ParamDoc.mk <$> Schema.orElse ⟨"paramName", "param_name"⟩ "" Schema.text entries
      <*> Schema.maybe (.plain "type") Schema.text entries
      <*> Schema.maybe (.plain "description") Schema.text entries

def toValue (p : ParamDoc) : Value :=
  .map (presentEntries [("paramName", some (.str p.name)), ("type", p.type.map .str),
    ("description", p.description.map .str)])

end ParamDoc

structure ReturnDoc where
  type : Option String
  description : Option String
  deriving DecidableEq, Repr

namespace ReturnDoc

def decode : Schema.Decoder ReturnDoc :=
  Schema.record "ReturnDoc" fun entries =>
    ReturnDoc.mk <$> Schema.maybe (.plain "type") Schema.text entries
      <*> Schema.maybe (.plain "description") Schema.text entries

def toValue (r : ReturnDoc) : Value :=
  .map (presentEntries [("type", r.type.map .str), ("description", r.description.map .str)])

end ReturnDoc

structure BodyDoc where
  body : String
  deriving DecidableEq, Repr

namespace BodyDoc

def decode : Schema.Decoder BodyDoc :=
  Schema.record "BodyDoc" fun entries =>
    BodyDoc.mk <$> Schema.orElse (.plain "body") "" Schema.text entries

def toValue (b : BodyDoc) : Value := .map [("body", .str b.body)]

end BodyDoc

structure Doc where
  params : List ParamDoc
  returns : List ReturnDoc
  descriptions : List BodyDoc
  types : List BodyDoc
  deriving DecidableEq, Repr

namespace Doc

def empty : Doc := ⟨[], [], [], []⟩

def decode : Schema.Decoder Doc :=
  Schema.record "JsDoc" fun entries =>
    Doc.mk <$> Schema.orElse ⟨"@param", "params"⟩ [] (Schema.list ParamDoc.decode) entries
      <*> Schema.orElse ⟨"@return", "returns"⟩ [] (Schema.list ReturnDoc.decode) entries
      <*> Schema.orElse ⟨"@description", "descriptions"⟩ [] (Schema.list BodyDoc.decode) entries
      <*> Schema.orElse ⟨"@type", "types"⟩ [] (Schema.list BodyDoc.decode) entries

def toValue (d : Doc) : Value :=
  .map [("@param", .list (d.params.map ParamDoc.toValue)),
    ("@return", .list (d.returns.map ReturnDoc.toValue)),
    ("@description", .list (d.descriptions.map BodyDoc.toValue)),
    ("@type", .list (d.types.map BodyDoc.toValue))]

def description (d : Doc) : Option String := d.descriptions.head?.map (·.body)

def returnType (d : Doc) : Option String :=
  d.returns.findSome? fun r =>
    r.type.bind fun t =>
      if t.isEmpty then none else some (String.ofList (TypeText.stripGenerics t.toList))

/-- The type of the first type tag that names one, without generic decoration. -/
def variableType (d : Doc) : Option String :=
  d.types.findSome? fun b =>
    (TypeText.braced? b.body.toList).map fun t => String.ofList (TypeText.stripGenerics t)

/-- The first documented parameter of a name. -/
def param? (d : Doc) (name : String) : Option ParamDoc := d.params.find? (·.name == name)

end Doc
end ScriptSense
