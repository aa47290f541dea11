import ScriptSense.Namespace.Database

/-! Methods that override others. A method is followed to those it overrides through the views of
the classes that have them; where the views come from does not matter. -/
namespace ScriptSense
namespace Override

variable {m : Type → Type} [Monad m]

/-- Follows a method to the methods it overrides until one is enough, and gives the last one met.
No class is visited twice. -/
def follow (view : String → m (Option ClassRecord)) (name : String) (enough : Member → Bool) :
    (fuel : Nat) → (visited : List String) → Member → m Member
  | 0, _, found => pure found
  | fuel + 1, visited, found =>
    if enough found then pure found
    else
      match found.overriddenFrom with
      | none => pure found
      | some ancestor =>
        if visited.contains ancestor then pure found
        else do
          match (← view ancestor).bind (·.member? name) with
          | none => return found
          | some overridden => follow view name enough fuel (ancestor :: visited) overridden

def isDocumented (found : Member) : Bool := (found.doc.map fun d => !d.params.isEmpty).getD false

/-- The method of a name as a class sees it, with documented parameters if any class that has it
documents them. -/
def method (view : String → m (Option ClassRecord)) (fuel : Nat) (className name : String) :
    m (Option Member) := do
  match ← view className with
  | none => return none
  | some r =>
    match (r.members.get? name).or (r.statics.get? name) with
    | none => return none
    | some found => return some (← follow view name isDocumented fuel [] found)

end Override

namespace Database

abbrev Work := ExceptT Namespace.BadName (StateM (Database × List Event))

def viewWork (name : String) : Work (Option ClassRecord) := do
  let (db, events) ← get
  let (found, db, later) := db.view name
  set (db, events ++ later)
  match found with
  | .ok r => return r
  | .error e => throw e

/-- The method of a name as a class sees it; there are no more steps than classes. -/
def method (db : Database) (className name : String) :
    Answer Namespace.BadName (Option Member) :=
  let work : Work (Option Member) :=
    Override.method viewWork (db.names.classCount + 3) className name
  let (found, db, events) := work.run.run (db, [])
  (found, db, events)

end Database
end ScriptSense
