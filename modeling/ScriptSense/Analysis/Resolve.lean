import ScriptSense.Analysis.Scene
import ScriptSense.Source.Assignment

/-! Inferring what an expression denotes, from documentation and from the text before the cursor.
An identifier stands for what was last assigned to it, else for a documented parameter of the method
around the cursor. -/
namespace ScriptSense
namespace Scene

open Text

def unresolved (expression : List Char) (offset : Int) : Event :=
  ⟨.debug, "expression_unresolved",
    [("expression", .str (String.ofList expression)), ("offset", .int offset)]⟩

def named? (scene : Scene) (name : String) : Option Denotation :=
  if name.isEmpty then none
  else
    (scene.names.lookup name).map fun entry =>
      match entry with
      | .klass _ => .klass name
      | .package _ => .package name

/-- The first name that belongs to the namespace: the text itself, or its dotted name. -/
def namespaceHit? (scene : Scene) (e : Expr) : Option Denotation :=
  (scene.named? e.text).or (e.dottedName?.bind scene.named?)

def documented? (className name : String) (m : Member) : Option Denotation :=
  m.doc.bind fun d =>
    if m.isVariable then (d.variableType.filter (!·.isEmpty)).map .object
    else if m.isFunction then
      (d.returnType.filter (!·.isEmpty)).map (.method (className ++ "." ++ name))
    else none

def memberType (scene : Scene) (owner : Denotation) (name : String) :
    Traced (Option Denotation) :=
  match owner.className? with
  | none => pure none
  | some className => do
    return (← scene.view className).bind fun view =>
      (view.member? name).bind (documented? className name)

/-- The method of the class itself around a place; the constructor goes first. -/
def enclosing? (view : ClassRecord) (offset : Int) : Option (String × Member) :=
  let construct := view.constructor.map (Prod.mk "construct")
  (construct.toList ++ view.members.putAll view.statics).find? fun e =>
    e.2.inheritedFrom.isNone && e.2.mixin.isNone && e.2.location.any (·.contains offset)

def parameterType? (name : String) (m : Member) : Option String :=
  (m.doc.bind (·.param? name)).bind fun p => p.type.filter (!·.isEmpty)

/-- A parameter of the method around a place, documented there or where the method is overridden. -/
def parameter (scene : Scene) (offset : Int) (name : String) : Traced (Option Denotation) :=
  match scene.header? with
  | none => pure none
  | some header => do
    match (← scene.view (String.ofList header.name)).bind (enclosing? · offset) with
    | none => return none
    | some (method, m) =>
      let last ← scene.overridden method (fun m => (parameterType? name m).isSome) m
      return (parameterType? name last).map fun type =>
        .object (String.ofList (TypeText.stripGenerics type.toList))

/-- What an expression denotes at a place. `assigned` tells what an assigned text denotes there. -/
def typeOf (scene : Scene) (assigned : Int → List Char → Traced (Option Denotation))
    (offset : Int) : Expr → Traced (Option Denotation)
  | .super =>
    pure ((scene.header?.bind (·.superClass)).map fun name => .object (String.ofList name))
  | .this => pure (scene.header?.map fun header => .object (String.ofList header.name))
  | .identifier name =>
    match scene.namespaceHit? (.identifier name) with
    | some hit => pure (some hit)
    | none =>
      match Assignment.nearest? name.toList scene.source offset with
      | none => scene.parameter offset name
      | some found => do
        match ← assigned found.start found.captured with
        | some d => return some d
        | none => scene.parameter offset name
  | .member text object property optional =>
    match scene.namespaceHit? (.member text object property optional) with
    | some hit => pure (some hit)
    | none => do
      match ← typeOf scene assigned offset object with
      | none => return none
      | some owner => scene.memberType owner property
  | .call _ (.member _ object property optional) _ _ => do
    match ← typeOf scene assigned offset object with
    | none => return none
    | some owner =>
      if property == "set" && !optional && owner.isObject then return some owner
      else return (← scene.memberType owner property).bind (·.result?)
  | .call _ callee _ _ => do
    return (← typeOf scene assigned offset callee).bind (·.result?)
  | .construct _ className _ =>
    let name := String.ofList (trim className.toList)
    pure (if scene.names.isClass name then some (.object name) else none)

/-- What a text denotes at a place, through at most `hops` assignments. -/
def resolveWithin (scene : Scene) :
    (hops : Nat) → Int → List Char → Traced (Option Denotation)
  | 0, _, _ => pure none
  | hops + 1, offset, text => do
    match ← scene.parser (String.ofList (trim text)) with
    | none => return none
    | some e =>
      match ← scene.typeOf (resolveWithin scene hops) offset e with
      | some d => return some d
      | none =>
        Traced.report (unresolved text offset)
        return none

/-- The assignments that may end before a place: every one of them ends in a semicolon. -/
def hopsBefore (source : List Char) (offset : Int) : Nat :=
  (Occurrence.upTo source offset).count ';'

def resolve (scene : Scene) (offset : Int) (text : List Char) : Traced (Option Denotation) :=
  scene.resolveWithin (hopsBefore scene.source offset + 1) offset text

def resolveExpr (scene : Scene) (offset : Int) (e : Expr) : Traced (Option Denotation) :=
  scene.typeOf (scene.resolveWithin (hopsBefore scene.source offset)) offset e

end Scene
end ScriptSense
