import ScriptSense.Event
import ScriptSense.Namespace.View

/-! A namespace that remembers the views it has built. A change of the namespace forgets them all
and begins a new generation, and a view is remembered only if its generation is still the current
one when it is ready: a record may arrive while a view is being built. -/
namespace ScriptSense

/-- A record that arrives right after the record of the given class is next read. -/
structure Arrival where
  after : String
  record : ClassRecord

structure Database where
  names : Namespace
  /-- Views built since the last change. -/
  views : Assoc ClassRecord
  generation : Nat
  /-- The record that is on its way. -/
  arrival : Option Arrival

namespace Database

def empty (roots : List String) : Database := ⟨.empty roots, [], 0, none⟩

def ingested (name : String) (replaced : Bool) : Event :=
  ⟨.debug, "class_ingested", [("class_name", .str name), ("replaced", .bool replaced)]⟩

def removed (name : String) : Event := ⟨.debug, "class_removed", [("class_name", .str name)]⟩

def cyclic (name : String) (cycle : View.Cycle) : Event :=
  ⟨.warning, "cyclic_hierarchy",
    [("class_name", .str name), ("chain", Value.strings cycle.chain)]⟩

def renew (db : Database) (names : Namespace) : Database :=
  { db with names, views := [], generation := db.generation + 1 }

/-- Registers a class, replacing what its name had before. -/
def ingest (db : Database) (r : ClassRecord) : Except Namespace.BadName (Database × Event) :=
  (db.names.insert r).map fun names =>
    (db.renew names, ingested r.name (db.names.registered.contains r.name))

def remove (db : Database) (name : String) : Option (Database × Event) :=
  if db.names.isClass name then some (db.renew (db.names.remove name), removed name) else none

def clear (db : Database) : Database := db.renew (.empty db.names.roots)

/-- Lets a record arrive after the next reading of a class. Only one record is on its way. -/
def await (db : Database) (name : String) (r : ClassRecord) : Database :=
  { db with arrival := some ⟨name, r⟩ }

/-- Why there is no view: the superclasses come back to a class, or a record arrived whose name
cannot be registered. -/
inductive Interruption where
  | cyclic (cycle : View.Cycle)
  | rejected (name : Namespace.BadName)
  deriving DecidableEq, Repr

/-- What was found, the database afterwards, and what was reported. -/
abbrev Answer (ε α : Type) := Except ε α × Database × List Event

/-- Reads the record of a class; what was waiting for that arrives now. -/
def read (db : Database) (name : String) : Answer Namespace.BadName (Option ClassRecord) :=
  let found := db.names.record? name
  match db.arrival with
  | none => (.ok found, db, [])
  | some arrival =>
    if arrival.after == name then
      let waiting := { db with arrival := none }
      match waiting.ingest arrival.record with
      | .ok (later, event) => (.ok found, later, [event])
      | .error e => (.error e, waiting, [])
    else (.ok found, db, [])

def readAll (db : Database) : List String → Answer Namespace.BadName (List (String × ClassRecord))
  | [] => (.ok [], db, [])
  | name :: rest =>
    match db.read name with
    | (.error e, db, events) => (.error e, db, events)
    | (.ok found, db, events) =>
      let (more, db, later) := db.readAll rest
      (more.map ((found.map (Prod.mk name)).toList ++ ·), db, events ++ later)

def remember (db : Database) (generation : Nat) (name : String) (view : ClassRecord) : Database :=
  if db.generation = generation then { db with views := db.views.put name view } else db

/-- The view of a class whose descendants on the way are `chain`. -/
def viewAfter (generation : Nat) : (fuel : Nat) → (chain : List String) → (name : String) →
    Database → Answer Interruption (Option ClassRecord)
  | 0, _, _, db => (.ok none, db, [])
  | fuel + 1, chain, name, db =>
    if chain.contains name then (.error (.cyclic ⟨chain ++ [name]⟩), db, [])
    else
      match db.views.get? name with
      | some view => (.ok (some view), db, [])
      | none =>
        match db.read name with
        | (.error e, db, events) => (.error (.rejected e), db, events)
        | (.ok none, db, events) => (.ok none, db, events)
        | (.ok (some r), db, events) =>
          match db.readAll r.mixins with
          | (.error e, db, mixed) => (.error (.rejected e), db, events ++ mixed)
          | (.ok mixins, db, mixed) =>
            match View.mergedSuper? db.names.roots r with
            | none =>
              let view := View.assemble r mixins none
              (.ok (some view), db.remember generation name view, events ++ mixed)
            | some superClass =>
              match viewAfter generation fuel (chain ++ [name]) superClass db with
              | (.error e, db, later) => (.error e, db, events ++ mixed ++ later)
              | (.ok parent, db, later) =>
                let view := View.assemble r mixins (parent.map (Prod.mk superClass))
                (.ok (some view), db.remember generation name view, events ++ mixed ++ later)

/-- The merged view of a class, remembered for the next time. A cycle is reported, and there is no
view then. -/
def view (db : Database) (name : String) : Answer Namespace.BadName (Option ClassRecord) :=
  let fuel := db.names.classCount + db.arrival.toList.length + 2
  match viewAfter db.generation fuel [] name db with
  | (.ok found, db, events) => (.ok found, db, events)
  | (.error (.cyclic cycle), db, events) => (.ok none, db, events ++ [cyclic name cycle])
  | (.error (.rejected e), db, events) => (.error e, db, events)

end Database
end ScriptSense
