import ScriptSense.Analysis.Resolve
import ScriptSense.Feature.Completion
import ScriptSense.Source.Matcher
import ScriptSense.Source.Scan

/-! Where the class or the member under the cursor is defined. -/
namespace ScriptSense

/-- A definition: the class that has it and its place in the source file of that class. -/
structure Definition where
  className : String
  span : Span
  deriving DecidableEq, Repr

namespace Definition

/-- The text ahead of a place. A negative place counts from the end of the text, which is then read
again from its beginning. -/
def ahead (source : List Char) (offset : Int) : Except Matcher.OutOfRange (List Char) :=
  if 0 ≤ offset then .ok (source.drop offset.toNat)
  else if -source.length ≤ offset then
    .ok (source.drop (source.length + offset).toNat ++ source)
  else .error {}

def wordEnd (source : List Char) (offset : Int) : Except Matcher.OutOfRange Int :=
  (ahead source offset).map fun text => offset + (text.takeWhile Text.isNameChar).length

/-- Where a view says a member is; an accessor without a place of its own is where its property
is. -/
def ofMember? (view : ClassRecord) (className name : String) : Option Definition :=
  let member := (view.members.get? name).or (view.statics.get? name)
  match member.bind fun m => m.location.map (Prod.mk m) with
  | some (m, span) => some ⟨Completion.firstName [m.mixin, m.inheritedFrom] className, span⟩
  | none =>
    let property := ((Text.propertyOfAccessor? name.toList).map String.ofList).filter (!·.isEmpty)
    (view.properties.get? (property.getD name)).bind fun p =>
      p.location.map fun span => ⟨Completion.firstName [p.inheritedFrom] className, span⟩

end Definition

namespace Scene

def memberDefinition (scene : Scene) (offset : Int) (text : List Char) :
    Traced (Option Definition) := do
  match ← scene.parser (String.ofList text) with
  | some (.member _ object property _) =>
    match (← scene.resolveExpr offset object).bind (·.className?) with
    | none => return none
    | some className =>
      return (← scene.view className).bind fun view =>
        Definition.ofMember? view className property
  | _ => return none

def definition (scene : Scene) (offset : Int) :
    Except Matcher.OutOfRange (Traced (Option Definition)) := do
  let stop ← Definition.wordEnd scene.source offset
  match Scan.at? scene.source stop with
  | none => return pure none
  | some span =>
    let text := Scan.dropNew span.text
    match scene.names.lookup (String.ofList text) with
    | some (.klass r) => return pure (r.location.map (Definition.mk (String.ofList text)))
    | some (.package _) => return pure none
    | none => return scene.memberDefinition offset text

end Scene
end ScriptSense
