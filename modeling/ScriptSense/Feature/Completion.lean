import ScriptSense.Analysis.Resolve
import ScriptSense.Source.Matcher
import ScriptSense.Source.Scan

/-! What can be typed after a dot. A package offers its children; a class or an object offers the
members of its merged view and the change events of its properties. Where there is no dot, all
classes are offered. -/
namespace ScriptSense

inductive CompletionKind where
  | package
  | klass
  | method
  | field
  | event
  deriving DecidableEq, Repr

def CompletionKind.name : CompletionKind → String
  | package => "package"
  | klass => "class"
  | method => "method"
  | field => "field"
  | event => "event"

structure Completion where
  label : String
  kind : CompletionKind
  detail : Option String
  documentation : Option String
  deriving DecidableEq, Repr

namespace Completion

def firstName (names : List (Option String)) (otherwise : String) : String :=
  ((names.filterMap id).find? (!·.isEmpty)).getD otherwise

/-- The class that has a member, and the type of the member if it is documented. -/
def memberDetail (className : String) (m : Member) : String :=
  let owner := firstName [m.mixin, m.inheritedFrom] className
  let type := m.doc.bind fun d => if m.isFunction then d.returnType else d.variableType
  match type.filter (!·.isEmpty) with
  | some t => owner ++ ": " ++ t
  | none => owner

def ofMember (className name : String) (m : Member) : Completion :=
  ⟨name, if m.isFunction then .method else .field, some (memberDetail className m),
    m.doc.bind (·.description)⟩

def eventName (name : String) (p : Property) : String :=
  firstName [p.event] ("change" ++ String.ofList (Text.capitalize name.toList))

def ofProperty (className name : String) (p : Property) : Completion :=
  ⟨eventName name p, .event, some (firstName [p.inheritedFrom] className ++ "." ++ name),
    p.doc.bind (·.description)⟩

/-- All that a view offers, by label; a member hides an event of the same label. -/
def ofView (view : ClassRecord) : List Completion :=
  let members := (view.members.putAll view.statics).map fun e =>
    (e.1, ofMember view.name e.1 e.2)
  let all := view.properties.foldl
    (fun acc e => Assoc.putNew acc (eventName e.1 e.2) (ofProperty view.name e.1 e.2)) members
  (all.map (·.2)).mergeSort fun a b => !(b.label < a.label)

def ofPackage (name : String) (children : List (String × Bool)) : List Completion :=
  children.map fun child =>
    ⟨child.1, if child.2 then .klass else .package, some (name ++ "." ++ child.1), none⟩

def ofClass (name : String) : Completion := ⟨name, .klass, none, none⟩

end Completion

namespace Scene

def selectable (scene : Scene) (d : Denotation) : Traced (Option (List Completion)) :=
  match d with
  | .package name =>
    pure (match scene.names.lookup name with
      | some (.package children) => some (Completion.ofPackage name children)
      | _ => none)
  | _ =>
    match d.className? with
    | none => pure none
    | some className => do return (← scene.view className).map Completion.ofView

/-- The completions at a place; none if what stands before the dot is unknown. -/
def complete (scene : Scene) (window offset : Int) : Traced (Option (List Completion)) :=
  match Matcher.inWindow scene.source offset window Backward.receiverTail? with
  | none => pure (some (scene.names.classNames.map Completion.ofClass))
  | some dot =>
    match Scan.at? scene.source dot with
    | none => pure none
    | some receiver => do
      match ← scene.resolve dot receiver.text with
      | none => return none
      | some d => scene.selectable d

end Scene
end ScriptSense
