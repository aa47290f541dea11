import ScriptSense.Namespace.Database
import ScriptSense.Proofs.Namespace.Registry

/-! Histories of a database. Whatever is registered, dropped and looked at, in whatever order, the
database answers as the finite map does that the successful registrations and removals leave. -/
namespace ScriptSense

def ClassRecord.bare (name : String) (superClass : Option String) : ClassRecord :=
  ⟨name, superClass, [], false, none, [], [], [], none⟩

namespace Database

/-- A call on a database. -/
inductive Call where
  | ingest (r : ClassRecord)
  | remove (name : String)
  | clear
  | view (name : String)

/-- The database after a call. A record that is refused and a class that is not there change
nothing. -/
def after (db : Database) : Call → Database
  | .ingest r =>
    match db.ingest r with
    | .ok (later, _) => later
    | .error _ => db
  | .remove name =>
    match db.remove name with
    | some (later, _) => later
    | none => db
  | .clear => db.clear
  | .view name => (db.view name).2.1

def afterAll (db : Database) (calls : List Call) : Database := calls.foldl after db

def ofHistory (roots : List String) (calls : List Call) : Database := (empty roots).afterAll calls

end Database

namespace Registry

/-- What a call makes of the map of records. -/
def after (m : Registry) : Database.Call → Registry
  | .ingest r => if "" ∈ Text.segments r.name then m else m.insert r.name r
  | .remove name => m.erase name
  | .clear => ∅
  | .view _ => m

def afterAll (m : Registry) (calls : List Database.Call) : Registry := calls.foldl after m

def ofHistory (calls : List Database.Call) : Registry := afterAll ∅ calls

end Registry

namespace Database

/-! Reading while no record is on its way. -/

theorem read_idle {db : Database} (h : db.arrival = none) (name : String) :
    db.read name = (.ok (db.names.record? name), db, []) := by simp [read, h]

theorem readAll_idle {db : Database} (h : db.arrival = none) (mixins : List String) :
    db.readAll mixins = (.ok (mixins.filterMap fun name =>
      (db.names.record? name).map (Prod.mk name)), db, []) := by
  induction mixins with
  | nil => rfl
  | cons name rest ih =>
    simp only [readAll, read_idle h, ih, Except.map, List.filterMap_cons]
    cases db.names.record? name <;> rfl

theorem readAll_mixins {db : Database} (h : db.arrival = none) (r : ClassRecord) :
    db.readAll r.mixins = (.ok (db.names.mixinsOf r), db, []) := readAll_idle h r.mixins

@[simp] theorem remember_names (db : Database) (generation : Nat) (name : String)
    (view : ClassRecord) : (db.remember generation name view).names = db.names := by
  unfold remember
  split <;> rfl

@[simp] theorem remember_arrival (db : Database) (generation : Nat) (name : String)
    (view : ClassRecord) : (db.remember generation name view).arrival = db.arrival := by
  unfold remember
  split <;> rfl

/-- One level of a view that is built while no record is on its way. -/
theorem viewAfter_idle {db : Database} (h : db.arrival = none) (generation fuel : Nat)
    (chain : List String) (name : String) :
    viewAfter generation (fuel + 1) chain name db =
      if chain.contains name then (.error (.cyclic ⟨chain ++ [name]⟩), db, [])
      else
        match db.views.get? name with
        | some view => (.ok (some view), db, [])
        | none =>
          match db.names.record? name with
          | none => (.ok none, db, [])
          | some r =>
            match View.mergedSuper? db.names.roots r with
            | none =>
              let view := View.assemble r (db.names.mixinsOf r) none
              (.ok (some view), db.remember generation name view, [])
            | some superClass =>
              match viewAfter generation fuel (chain ++ [name]) superClass db with
              | (.error e, db, later) => (.error e, db, later)
              | (.ok parent, later, events) =>
                let view := View.assemble r (db.names.mixinsOf r) (parent.map (Prod.mk superClass))
                (.ok (some view), later.remember generation name view, events) := by
  simp only [viewAfter, read_idle h]
  by_cases hc : chain.contains name = true
  · simp only [if_pos hc]
  · simp only [if_neg hc]
    cases hv : db.views.get? name with
    | some view => rfl
    | none =>
      cases hr : db.names.record? name with
      | none => rfl
      | some r =>
        cases hs : View.mergedSuper? db.names.roots r with
        | none => simp only [readAll_mixins h, hs, List.nil_append]
        | some superClass =>
          rcases hparent : viewAfter generation fuel (chain ++ [name]) superClass db with
            ⟨found, later, events⟩
          cases found with
          | error e => simp only [readAll_mixins h, hs, hparent, List.nil_append]
          | ok parent => simp only [readAll_mixins h, hs, hparent, List.nil_append]

theorem viewAfter_frame {db : Database} (h : db.arrival = none) (generation fuel : Nat)
    (chain : List String) (name : String) :
    (viewAfter generation fuel chain name db).2.1.names = db.names ∧
      (viewAfter generation fuel chain name db).2.1.arrival = none := by
  induction fuel generalizing chain name with
  | zero => exact ⟨rfl, h⟩
  | succ fuel ih =>
    rw [viewAfter_idle h]
    split
    · exact ⟨rfl, h⟩
    · split
      · exact ⟨rfl, h⟩
      · split
        · exact ⟨rfl, h⟩
        · split
          · simp [h]
          · rename_i superClass _
            have hs := ih (chain ++ [name]) superClass
            split
            · rename_i later events hv
              simpa [hv] using hs
            · rename_i parent later events hv
              simpa [hv] using hs

theorem view_database (db : Database) (name : String) :
    (db.view name).2.1 = (viewAfter db.generation
      (db.names.classCount + db.arrival.toList.length + 2) [] name db).2.1 := by
  simp only [view]
  generalize viewAfter db.generation _ [] name db = answer
  obtain ⟨found, later, events⟩ := answer
  cases found with
  | ok view => rfl
  | error e => cases e <;> rfl

theorem view_frame {db : Database} (h : db.arrival = none) (name : String) :
    (db.view name).2.1.names = db.names ∧ (db.view name).2.1.arrival = none := by
  rw [view_database]
  exact viewAfter_frame h _ _ [] name

/-- A database with nothing on its way whose classes are those of a map. -/
structure Tracks (db : Database) (m : Registry) : Prop where
  placed : db.names.Placed
  record? : ∀ name, db.names.record? name = m.lookup name
  idle : db.arrival = none

theorem tracks_empty (roots : List String) : (empty roots).Tracks ∅ where
  placed := Namespace.placed_empty roots
  record? := by
    intro name
    simp [empty]
  idle := rfl

theorem ingest_eq (db : Database) (r : ClassRecord) :
    db.ingest r = if "" ∈ Text.segments r.name then .error ⟨r.name⟩
      else .ok (db.renew { db.names with
          tree := db.names.tree.insert r (Text.segments r.name)
          registered := db.names.registered.insert r.name },
        ingested r.name (db.names.registered.contains r.name)) := by
  rw [ingest, Namespace.insert_eq]
  split <;> rfl

theorem Tracks.ingest {db : Database} {m : Registry} (h : db.Tracks m) (r : ClassRecord) :
    (db.after (.ingest r)).Tracks (m.after (.ingest r)) := by
  simp only [after, Registry.after, Database.ingest]
  cases hi : db.names.insert r with
  | error e =>
    have hn : "" ∈ Text.segments r.name := by
      rw [Namespace.insert_eq] at hi
      split at hi
      · assumption
      · cases hi
    simpa [Except.map, hn] using h
  | ok names =>
    have hn := (Namespace.insert_eq_ok hi).1
    simp only [Except.map, if_neg hn]
    refine ⟨h.placed.insert hi, ?_, h.idle⟩
    intro name
    change names.record? name = _
    rw [Namespace.record?_insert hi, h.record?]
    by_cases he : name = r.name
    · subst he
      rw [if_pos rfl, Finmap.lookup_insert]
    · rw [if_neg he, Finmap.lookup_insert_of_ne _ he]

theorem Tracks.remove {db : Database} {m : Registry} (h : db.Tracks m) (name : String) :
    (db.after (.remove name)).Tracks (m.after (.remove name)) := by
  simp only [after, Registry.after, Database.remove]
  by_cases hc : db.names.isClass name = true
  · simp only [if_pos hc]
    refine ⟨h.placed.remove name, ?_, h.idle⟩
    intro other
    change (db.names.remove name).record? other = _
    rw [Namespace.record?_remove, h.record?]
    by_cases ho : other = name
    · subst ho
      rw [if_pos rfl, Finmap.lookup_erase]
    · rw [if_neg ho, Finmap.lookup_erase_ne ho]
  · simp only [if_neg hc]
    refine ⟨h.placed, ?_, h.idle⟩
    intro other
    rw [h.record?]
    by_cases ho : other = name
    · subst ho
      have hn : db.names.record? other = none := by simpa [Namespace.isClass] using hc
      rw [Finmap.lookup_erase, ← h.record?, hn]
    · rw [Finmap.lookup_erase_ne ho]

theorem Tracks.after {db : Database} {m : Registry} (h : db.Tracks m) (call : Call) :
    (db.after call).Tracks (m.after call) := by
  cases call with
  | ingest r => exact h.ingest r
  | remove name => exact h.remove name
  | clear =>
    refine ⟨Namespace.placed_empty _, ?_, h.idle⟩
    intro name
    change (Namespace.empty _).record? name = (∅ : Registry).lookup name
    rw [Namespace.record?_empty, Finmap.lookup_empty]
  | view name =>
    obtain ⟨hn, ha⟩ := view_frame h.idle name
    refine ⟨?_, ?_, ha⟩
    · change (db.view name).2.1.names.Placed
      rw [hn]
      exact h.placed
    · intro other
      change (db.view name).2.1.names.record? other = _
      rw [hn]
      exact h.record? other

theorem Tracks.afterAll {db : Database} {m : Registry} (h : db.Tracks m) (calls : List Call) :
    (db.afterAll calls).Tracks (m.afterAll calls) := by
  induction calls generalizing db m with
  | nil => exact h
  | cons call calls ih => exact ih (h.after call)

theorem Tracks.represents {db : Database} {m : Registry} (h : db.Tracks m) :
    db.names.Represents m := h.placed.represents h.record?

theorem tracks_ofHistory (roots : List String) (calls : List Call) :
    (ofHistory roots calls).Tracks (Registry.ofHistory calls) := (tracks_empty roots).afterAll calls

/-- After any history, a database is the finite map that the history leaves: all its answers are
those of the map, it drops exactly the keys, and it refuses exactly the records whose name has an
empty segment. -/
theorem ofHistory_represents (roots : List String) (calls : List Call) :
    (ofHistory roots calls).names.Represents (Registry.ofHistory calls) ∧
    (∀ name, ((ofHistory roots calls).remove name).isSome = true ↔
      name ∈ Registry.ofHistory calls) ∧
    (∀ r, (ofHistory roots calls).ingest r = .error ⟨r.name⟩ ↔ "" ∈ Text.segments r.name) ∧
    (∀ r, (∃ later event, (ofHistory roots calls).ingest r = .ok (later, event)) ↔
      "" ∉ Text.segments r.name) := by
  have h := (tracks_ofHistory roots calls).represents
  refine ⟨h, ?_, ?_, ?_⟩
  · intro name
    rw [← h.isClass_iff, Database.remove]
    split <;> simp_all
  · intro r
    rw [ingest_eq]
    split <;> simp_all
  · intro r
    rw [ingest_eq]
    split <;> simp_all

end Database
end ScriptSense
