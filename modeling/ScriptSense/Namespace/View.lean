import ScriptSense.Namespace.Basic

/-! Merged views of classes. A view adds to a class the accessors of its properties, what its mixins
bring, and what its ancestors have; what is nearer is never overwritten. -/
namespace ScriptSense
namespace View

def accessors (name : String) (p : Property) : Assoc Member :=
  let returned : List ReturnDoc :=
    match p.documentedType with
    | some t => if t.isEmpty then [] else [⟨some t, none⟩]
    | none => []
  let descriptions := (p.doc.map (·.descriptions)).getD []
  let ending := String.ofList (Text.capitalize name.toList)
  let accessor (params : List ParamDoc) (returns : List ReturnDoc) : Member :=
    Member.function p.location ⟨params, returns, descriptions, []⟩
  [("get" ++ ending, accessor [] returned),
    ("set" ++ ending, accessor [⟨"value", p.documentedType, none⟩] returned),
    ("reset" ++ ending, accessor [] [])]

def addNew {α : Type} (present more : Assoc α) : Assoc α :=
  more.foldl (fun acc e => acc.putNew e.1 e.2) present

def allAccessors (properties : Assoc Property) : Assoc Member :=
  properties.flatMap fun e => accessors e.1 e.2

def tagMixin (mixin : String) (members : Assoc Member) : Assoc Member :=
  members.map fun e => (e.1, { e.2 with mixin := some mixin })

structure Parts where
  members : Assoc Member
  properties : Assoc Property

/-- What a class has on its own: its members and the accessors of its properties. -/
def own (r : ClassRecord) : Parts :=
  ⟨addNew r.members (allAccessors r.properties), r.properties⟩

/-- Adds what a mixin brings; all of it is tagged with the name of the mixin. -/
def addMixin (parts : Parts) (name : String) (mixin : ClassRecord) : Parts :=
  let brought := mixin.properties.filter fun e => !parts.properties.has e.1
  let members := addNew parts.members (tagMixin name mixin.members)
  ⟨addNew members (tagMixin name (allAccessors brought)), parts.properties ++ brought⟩

/-- The class that has an inherited entry: the one it came from, or the direct superclass. -/
def origin (known : Option String) (superClass : String) : Option String :=
  match known with
  | some name => if name.isEmpty then some superClass else some name
  | none => some superClass

def inheritMembers (superClass : String) (members : Assoc Member) : Assoc Member :=
  members.map fun e => (e.1, { e.2 with inheritedFrom := origin e.2.inheritedFrom superClass })

def inheritProperties (superClass : String) (properties : Assoc Property) : Assoc Property :=
  properties.map fun e => (e.1, { e.2 with inheritedFrom := origin e.2.inheritedFrom superClass })

/-- The accessor of the only instance of a singleton. -/
def instanceAccessor (className : String) : Member :=
  .function none { Doc.empty with returns := [⟨some className, none⟩] }

def addInstance (r : ClassRecord) (declared members : Assoc Member) : Assoc Member :=
  if r.isSingleton && !declared.has "getInstance" then
    members.put "getInstance" (instanceAccessor r.name)
  else members

/-- The view of a class from its record, its mixins and the view of its superclass. -/
def assemble (r : ClassRecord) (mixins : List (String × ClassRecord))
    (parent : Option (String × ClassRecord)) : ClassRecord :=
  let parts := mixins.foldl (fun acc m => addMixin acc m.1 m.2) (own r)
  let (members, statics, properties) :=
    match parent with
    | none => (parts.members, r.statics, parts.properties)
    | some (superClass, view) =>
      (addNew parts.members (inheritMembers superClass view.members),
        addNew r.statics (inheritMembers superClass view.statics),
        addNew parts.properties (inheritProperties superClass view.properties))
  { r with
    members := addInstance r r.members members
    statics := addInstance r r.statics statics
    properties := properties }

/-- The superclass whose view is merged in: implicit roots are left out. -/
def mergedSuper? (roots : List String) (r : ClassRecord) : Option String :=
  r.superClass.filter fun s => !s.isEmpty && !roots.contains s

/-- A superclass chain that comes back to a class; the class stands at its end once more. -/
structure Cycle where
  chain : List String
  deriving DecidableEq, Repr

end View

namespace Namespace

def mixinsOf (ns : Namespace) (r : ClassRecord) : List (String × ClassRecord) :=
  r.mixins.filterMap fun name => (ns.record? name).map (Prod.mk name)

/-- The view of a class whose descendants on the way are `chain`. -/
def viewAfter (ns : Namespace) : (fuel : Nat) → (chain : List String) → (name : String) →
    Except View.Cycle (Option ClassRecord)
  | 0, _, _ => .ok none
  | fuel + 1, chain, name =>
    if chain.contains name then .error ⟨chain ++ [name]⟩
    else
      match ns.record? name with
      | none => .ok none
      | some r =>
        match View.mergedSuper? ns.roots r with
        | none => .ok (some (View.assemble r (ns.mixinsOf r) none))
        | some superClass =>
          match ns.viewAfter fuel (chain ++ [name]) superClass with
          | .error e => .error e
          | .ok parent =>
            .ok (some (View.assemble r (ns.mixinsOf r) (parent.map (Prod.mk superClass))))

/-- The merged view of a class; a class whose superclass chain is cyclic has none. A chain without
repetition is no longer than the number of classes. -/
def view (ns : Namespace) (name : String) : Except View.Cycle (Option ClassRecord) :=
  ns.viewAfter (ns.classCount + 2) [] name

def view? (ns : Namespace) (name : String) : Option ClassRecord := (ns.view name).toOption.join

end Namespace
end ScriptSense
