import ScriptSense.Analysis.Resolve
import ScriptSense.Source.OpenCall
import ScriptSense.Source.Scan

/-! The parameters of the call around the cursor. -/
namespace ScriptSense

structure Parameter where
  label : String
  documentation : Option String
  deriving DecidableEq, Repr

structure Signature where
  label : String
  documentation : Option String
  parameters : List Parameter
  /-- The parameter the cursor is at. -/
  active : Nat
  deriving DecidableEq, Repr

namespace Signature

def parameterOf (p : ParamDoc) : Parameter :=
  ⟨p.name ++ ": " ++ (p.type.filter (!·.isEmpty)).getD "any", p.description⟩

def ofMethod? (name : String) (m : Member) (active : Nat) : Option Signature :=
  m.doc.bind fun d =>
    if d.params.isEmpty then none
    else
      let parameters := d.params.map parameterOf
      let inside := ", ".intercalate (parameters.map (·.label))
      some ⟨name ++ "(" ++ inside ++ ")", d.description, parameters, active⟩

def constructed? (site : List Char) : Option String :=
  let text := Scan.dropNew site
  if text.length < site.length then
    match Text.chain? text with
    | some (name, []) => some (String.ofList name)
    | _ => none
  else none

end Signature

namespace Scene

def calledMethod (scene : Scene) (offset : Int) (site : List Char) :
    Traced (Option (String × Member)) := do
  match ← scene.parser (String.ofList site) with
  | some (.member _ object property _) =>
    match (← scene.resolveExpr offset object).bind (·.className?) with
    | none => return none
    | some className =>
      return ((← scene.method className property).filter (·.isFunction)).map (Prod.mk property)
  | _ => return none

def called (scene : Scene) (offset : Int) (site : List Char) :
    Traced (Option (String × Member)) :=
  match Signature.constructed? site with
  | some className => do
    return ((← scene.record className).bind (·.constructor)).map (Prod.mk className)
  | none => scene.calledMethod offset site

def signature (scene : Scene) (offset : Int) : Traced (Option Signature) :=
  match OpenCall.find? scene.source offset with
  | none => pure none
  | some call =>
    match Scan.at? scene.source call.bracket with
    | none => pure none
    | some site => do
      return (← scene.called offset site.text).bind fun (name, m) =>
        Signature.ofMethod? name m call.argument

end Scene
end ScriptSense
