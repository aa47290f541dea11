import ScriptSense.Proofs.Project.Following

/-! How far a file that cannot be used affects the others. A file without a readable record is
passed over: the database stays as it is, and the other files of the operation are still taken up.
This holds of an operation exactly if it meets no file that ends it. Such files are those whose
bytes are no text or too much data, paths that cannot be followed, and records whose class name is
not qualified; at the first of them the operation stops, and a record of the last kind has by then
cost the class that its file described before. -/
namespace ScriptSense
namespace Project

structure Holdings where
  database : Database
  files : Assoc String

def holdings (p : Project) : Holdings := ⟨p.database, p.classOfFile⟩

namespace Holdings

def known (h : Holdings) (path : FilePath) : Option String := h.files.get? path.toText

def drop (h : Holdings) (name : String) : Holdings :=
  match h.database.remove name with
  | some (database, _) => { h with database }
  | none => h

theorem drop_database (h : Holdings) (name : String) : (h.drop name).database =
    ((h.database.remove name).map Prod.fst).getD h.database := by
  rw [drop]
  cases h.database.remove name <;> rfl

def dropAny (h : Holdings) (name : Option String) : Holdings := (name.map h.drop).getD h

def assign (h : Holdings) (path : FilePath) (name : String) (former : Option String) : Holdings :=
  { h with files := h.files.put path.toText name }.dropAny (former.filter (· != name))

def register (h : Holdings) (r : ClassRecord) : Holdings :=
  match h.database.ingest r with
  | .ok (database, _) => { h with database }
  | .error _ => h

end Holdings

/-- What is found where a file was told of. -/
inductive Finding where
  /-- It is no record file. -/
  | foreign
  | gone
  /-- There is no record that can be read. -/
  | useless
  | record (r : ClassRecord)
  /-- The record has a class name that cannot be registered. -/
  | misnamed (r : ClassRecord)
  /-- It cannot be told what is there. -/
  | fatal (e : Failure)

namespace Finding

def failure? : Finding → Option Failure
  | misnamed r => some (.badName ⟨r.name⟩)
  | fatal e => some e
  | _ => none

/-- What a finding is to change: a file that is gone or has a proper record, and no other, changes
anything. -/
def settle (path : FilePath) (former : Option String) : Finding → Holdings → Holdings
  | gone, h => { h with files := h.files.erase path.toText }.dropAny former
  | record r, h => (h.assign path r.name former).register r
  | _, h => h

/-- What a finding that ends the operation changes all the same. -/
def upset (path : FilePath) (former : Option String) : Finding → Holdings → Holdings
  | misnamed r, h => h.assign path r.name former
  | _, h => h

end Finding

def contentAt (p : Project) (path : FilePath) : Finding :=
  match p.readRecord path with
  | .error e => .fatal e
  | .ok (.error _) => .useless
  | .ok (.ok r) => if (Text.segments? r.name).isSome then .record r else .misnamed r

def changeAt (p : Project) (path : FilePath) : Finding :=
  if !p.isRecordFile path then .foreign
  else
    match p.find path with
    | .error e => .fatal e
    | .ok none => .gone
    | .ok (some _) => p.contentAt path

def settleAll (found : FilePath → Finding) (known : Holdings → FilePath → Option String)
    (paths : List FilePath) (h : Holdings) : Holdings :=
  paths.foldl (fun h path => (found path).settle path (known h path) h) h

/-- An operation over files. Each has its own outcome and nothing fails, exactly if no file ends the
operation; the first that does is the last that is looked at. -/
structure Isolates (found : FilePath → Finding) (known : Holdings → FilePath → Option String)
    (paths : List FilePath) (before : Holdings) (failure : Option Failure) (after : Holdings) :
    Prop where
  isolated_iff : failure = none ∧ after = settleAll found known paths before ↔
    ∀ path ∈ paths, (found path).failure? = none
  stops : ∀ earlier path later e, paths = earlier ++ path :: later →
    (∀ q ∈ earlier, (found q).failure? = none) → (found path).failure? = some e →
    failure = some e ∧ after =
      (found path).upset path (known (settleAll found known earlier before) path)
        (settleAll found known earlier before)

/-- Files are taken up in order, up to the first that ends the operation. -/
inductive Ran (found : FilePath → Finding) (known : Holdings → FilePath → Option String) :
    List FilePath → Holdings → Option Failure → Holdings → Prop
  | done {h : Holdings} : Ran found known [] h none h
  | next {path : FilePath} {rest : List FilePath} {h after : Holdings} {failure : Option Failure}
      (hf : (found path).failure? = none)
      (hr : Ran found known rest ((found path).settle path (known h path) h) failure after) :
      Ran found known (path :: rest) h failure after
  | stop {path : FilePath} {rest : List FilePath} {h : Holdings} {e : Failure}
      (hf : (found path).failure? = some e) :
      Ran found known (path :: rest) h (some e) ((found path).upset path (known h path) h)

namespace Ran

variable {found : FilePath → Finding} {known : Holdings → FilePath → Option String}
  {paths : List FilePath} {before after : Holdings} {failure : Option Failure}

theorem settles (h : Ran found known paths before failure after)
    (hf : ∀ path ∈ paths, (found path).failure? = none) :
    failure = none ∧ after = settleAll found known paths before := by
  induction h with
  | done => exact ⟨rfl, rfl⟩
  | next _ _ ih => exact ih fun q hq => hf q (List.mem_cons_of_mem _ hq)
  | @stop path _ _ e he => exact absurd (he.symm.trans (hf path (by simp))) (by simp)

theorem stops (h : Ran found known paths before failure after) {earlier later : List FilePath}
    {path : FilePath} {e : Failure} (hp : paths = earlier ++ path :: later)
    (hf : ∀ q ∈ earlier, (found q).failure? = none) (he : (found path).failure? = some e) :
    failure = some e ∧ after =
      (found path).upset path (known (settleAll found known earlier before) path)
        (settleAll found known earlier before) := by
  induction h generalizing earlier with
  | done => simp at hp
  | @next first rest h after failure hnone _ ih =>
    cases earlier with
    | nil =>
      obtain ⟨rfl, -⟩ := List.cons.inj hp
      exact absurd (hnone.symm.trans he) (by simp)
    | cons q earlier =>
      obtain ⟨rfl, hrest⟩ := List.cons.inj hp
      exact ih hrest fun q hq => hf q (List.mem_cons_of_mem _ hq)
  | @stop first rest h e' hsome =>
    cases earlier with
    | nil =>
      obtain ⟨rfl, -⟩ := List.cons.inj hp
      exact ⟨hsome.symm.trans he, rfl⟩
    | cons q earlier =>
      obtain ⟨rfl, -⟩ := List.cons.inj hp
      exact absurd (hsome.symm.trans (hf first (by simp))) (by simp)

theorem isolates (h : Ran found known paths before failure after) :
    Isolates found known paths before failure after where
  isolated_iff := by
    refine ⟨?_, h.settles⟩
    rintro ⟨hnone, -⟩
    induction h with
    | done => simp
    | @next path rest _ _ _ hf _ ih =>
      intro q hq
      rcases List.mem_cons.mp hq with rfl | hq
      · exact hf
      · exact ih hnone q hq
    | stop hf => exact absurd hnone (by simp)
  stops _ _ _ _ hp hf he := h.stops hp hf he

end Ran

/-- Why what lies at a path ends an operation that reads it. -/
inductive Ends (p : Project) (path : FilePath) : Failure → Prop
  | nullByte (h : path.toText.contains '\x00' = true) : Ends p path .nullByte
  | undecodable {place : List String} {bytes : List UInt8} {fault : Utf8.Fault}
      (h : path.toText.contains '\x00' = false) (hp : p.place? path = some place)
      (hb : p.disk.read place = .ok bytes) (ht : Utf8.decode bytes = .error fault) :
      Ends p path (.undecodable fault)
  | excess {place : List String} {bytes : List UInt8} {text : List Char} {fault : Json.Fault}
      (h : path.toText.contains '\x00' = false) (hp : p.place? path = some place)
      (hb : p.disk.read place = .ok bytes) (ht : Utf8.decode bytes = .ok text)
      (hj : Json.read (Utf8.normalBreaks text) = .error fault) (he : fault.cause.isExcess = true) :
      Ends p path (.excess fault)
  | misnamed {place : List String} {bytes : List UInt8} {text : List Char} {v : Value}
      {r : ClassRecord} (h : path.toText.contains '\x00' = false) (hp : p.place? path = some place)
      (hb : p.disk.read place = .ok bytes) (ht : Utf8.decode bytes = .ok text)
      (hj : Json.read (Utf8.normalBreaks text) = .ok v) (hr : recordOfValue path.toText v = .ok r)
      (hn : Text.segments? r.name = none) : Ends p path (.badName ⟨r.name⟩)

/-- A file without a record is passed over, save for the ones that end the operation. -/
theorem failure?_contentAt (p : Project) (path : FilePath) (e : Failure) :
    (p.contentAt path).failure? = some e ↔ p.Ends path e := by
  constructor
  · intro h
    simp only [contentAt, readRecord] at h
    cases hz : path.toText.contains '\x00' with
    | true =>
      obtain rfl : Failure.nullByte = e := by
        simpa only [hz, if_true, Finding.failure?, Option.some.injEq] using h
      exact .nullByte hz
    | false =>
      simp only [hz, Bool.false_eq_true, if_false] at h
      cases hp : p.place? path with
      | none => simp [hp, Finding.failure?] at h
      | some place =>
        cases hb : p.disk.read place with
        | error o => simp [hp, hb, Finding.failure?] at h
        | ok bytes =>
          cases ht : Utf8.decode bytes with
          | error fault =>
            obtain rfl : Failure.undecodable fault = e := by
              simpa [hp, hb, ht, Finding.failure?] using h
            exact .undecodable hz hp hb ht
          | ok text =>
            simp only [hp, hb, ht, recordOfText] at h
            cases hj : Json.read (Utf8.normalBreaks text) with
            | error fault =>
              cases he : fault.cause.isExcess with
              | true =>
                obtain rfl : Failure.excess fault = e := by
                  simpa [hj, he, Finding.failure?] using h
                exact .excess hz hp hb ht hj he
              | false => simp [hj, he, Finding.failure?] at h
            | ok v =>
              cases hr : recordOfValue path.toText v with
              | error d => simp [hj, hr, Finding.failure?] at h
              | ok r =>
                cases hn : Text.segments? r.name with
                | some path => simp [hj, hr, hn, Finding.failure?] at h
                | none =>
                  obtain rfl : Failure.badName ⟨r.name⟩ = e := by
                    simpa [hj, hr, hn, Finding.failure?] using h
                  exact .misnamed hz hp hb ht hj hr hn
  · intro h
    cases h with
    | nullByte hz => simp [contentAt, readRecord, hz, Finding.failure?]
    | undecodable hz hp hb ht => simp [contentAt, readRecord, hz, hp, hb, ht, Finding.failure?]
    | excess hz hp hb ht hj he =>
      simp [contentAt, readRecord, recordOfText, hz, hp, hb, ht, hj, he, Finding.failure?]
    | misnamed hz hp hb ht hj hr hn =>
      simp [contentAt, readRecord, recordOfText, hz, hp, hb, ht, hj, hr, hn, Finding.failure?]

theorem failure?_changeAt (p : Project) (path : FilePath) (e : Failure) :
    (p.changeAt path).failure? = some e ↔ p.isRecordFile path = true ∧
      (p.find path = .error e ∨ (∃ there, p.find path = .ok (some there)) ∧ p.Ends path e) := by
  rw [changeAt, ← failure?_contentAt]
  cases p.isRecordFile path with
  | false => simp [Finding.failure?]
  | true =>
    cases p.find path with
    | error e' => simp [Finding.failure?]
    | ok there => cases there <;> simp [Finding.failure?]

/-! What the operations of a project do to its holdings. -/

def errorOf {α : Type} : Except Failure α → Option Failure
  | .ok _ => none
  | .error e => some e

theorem SameSite.contentAt {p q : Project} (h : SameSite p q) : p.contentAt = q.contentAt := by
  funext path
  simp only [Project.contentAt, h.readRecord]

theorem SameSite.changeAt {p q : Project} (h : SameSite p q) : p.changeAt = q.changeAt := by
  funext path
  simp only [Project.changeAt, h.isRecordFile, h.find, h.contentAt]

theorem remove_frame (p : Project) (name : String) :
    SameSite p (p.remove name) ∧ (p.remove name).holdings = p.holdings.drop name := by
  rw [Project.remove, Holdings.drop]
  change _ ∧ _ = match p.database.remove name with
    | some (database, _) => { p.holdings with database }
    | none => p.holdings
  cases p.database.remove name with
  | none => exact ⟨.refl p, rfl⟩
  | some found => exact ⟨⟨rfl, rfl, rfl, rfl⟩, rfl⟩

theorem removeAny_frame (p : Project) (name : Option String) :
    SameSite p ((name.map p.remove).getD p) ∧
      ((name.map p.remove).getD p).holdings = p.holdings.dropAny name := by
  cases name with
  | none => exact ⟨.refl p, rfl⟩
  | some name => exact p.remove_frame name

theorem ingest_frame (p : Project) {r : ClassRecord} (h : (Text.segments? r.name).isSome = true) :
    ∃ q, p.ingest r = .ok q ∧ SameSite p q ∧ q.holdings = p.holdings.register r := by
  have hn : "" ∉ Text.segments r.name := Text.empty_notMem_segments h
  obtain ⟨database, event, hi⟩ : ∃ database event, p.database.ingest r = .ok (database, event) := by
    rw [Database.ingest_eq, if_neg hn]
    exact ⟨_, _, rfl⟩
  have hi' : p.holdings.database.ingest r = .ok (database, event) := hi
  refine ⟨{ p with database }.note [event], ?_, ⟨rfl, rfl, rfl, rfl⟩, ?_⟩
  · rw [Project.ingest, hi]
  · rw [Holdings.register, hi']
    rfl

theorem ingest_misnamed (p : Project) {r : ClassRecord}
    (h : (Text.segments? r.name).isSome = false) : p.ingest r = .error (.badName ⟨r.name⟩) := by
  have hn : "" ∈ Text.segments r.name := by
    by_contra he
    simp [Text.segments?_eq, he] at h
  rw [Project.ingest, Database.ingest_eq, if_pos hn]

def withRead (p : Project) (path : FilePath) (r : ClassRecord) : Project :=
  { p with classOfFile := p.classOfFile.put path.toText r.name }.note [loaded path.toText r.name]

theorem sameSite_withRead (p : Project) (path : FilePath) (r : ClassRecord) :
    SameSite p (p.withRead path r) := ⟨rfl, rfl, rfl, rfl⟩

theorem load_record {p : Project} {path : FilePath} {r : ClassRecord}
    (h : p.readRecord path = .ok (.ok r)) : p.load path = .ok (some r, p.withRead path r) := by
  rw [load, h]
  rfl

theorem load_useless {p : Project} {path : FilePath} {d : Diagnostic}
    (h : p.readRecord path = .ok (.error d)) : p.load path = .ok (none, p.note [loadFailed d]) := by
  rw [load, h]
  rfl

theorem load_fatal {p : Project} {path : FilePath} {e : Failure}
    (h : p.readRecord path = .error e) : p.load path = .error e := by
  rw [load, h]
  rfl

theorem applyChange_frame (p : Project) (path : FilePath) :
    SameSite p (p.applyChange path).2 ∧
      errorOf (p.applyChange path).1 = (p.changeAt path).failure? ∧
      (p.applyChange path).2.holdings =
        match (p.changeAt path).failure? with
        | none => (p.changeAt path).settle path (p.holdings.known path) p.holdings
        | some _ => (p.changeAt path).upset path (p.holdings.known path) p.holdings := by
  rw [applyChange, changeAt]
  cases hm : p.isRecordFile path with
  | false => exact ⟨.refl p, rfl, rfl⟩
  | true =>
    simp only [Bool.not_true, Bool.false_eq_true, if_false]
    cases hfind : p.find path with
    | error e => exact ⟨.refl p, rfl, rfl⟩
    | ok there =>
      cases there with
      | none =>
        obtain ⟨hsite, hholdings⟩ := (p.forget path).removeAny_frame (p.classForPath? path)
        have hforget : SameSite p (p.forget path) := ⟨rfl, rfl, rfl, rfl⟩
        exact ⟨hforget.trans hsite, rfl, hholdings⟩
      | some there =>
        rw [contentAt]
        cases hread : p.readRecord path with
        | error e =>
          simp only [load_fatal hread]
          exact ⟨.refl p, rfl, rfl⟩
        | ok found =>
          cases found with
          | error d =>
            simp only [load_useless hread]
            exact ⟨⟨rfl, rfl, rfl, rfl⟩, rfl, rfl⟩
          | ok r =>
            simp only [load_record hread]
            obtain ⟨hsite, hholdings⟩ := (p.withRead path r).removeAny_frame
              ((p.classForPath? path).filter (· != r.name))
            have hsite := (p.sameSite_withRead path r).trans hsite
            generalize (((p.classForPath? path).filter (· != r.name)).map
              (p.withRead path r).remove).getD (p.withRead path r) = p₁ at hsite hholdings ⊢
            cases hname : (Text.segments? r.name).isSome with
            | true =>
              obtain ⟨q, hq, hsite', hholdings'⟩ := p₁.ingest_frame hname
              simp only [hq, if_true]
              refine ⟨hsite.trans hsite', rfl, ?_⟩
              rw [hholdings', hholdings]
              rfl
            | false =>
              simp only [p₁.ingest_misnamed hname, Bool.false_eq_true, if_false]
              exact ⟨hsite, rfl, hholdings⟩

theorem ran_applyChanges {base p : Project} (h : SameSite base p) (paths : List FilePath) :
    Ran base.changeAt Holdings.known paths p.holdings (errorOf (applyChanges paths p).1)
      (applyChanges paths p).2.holdings := by
  induction paths generalizing p with
  | nil => exact .done
  | cons path rest ih =>
    obtain ⟨hsite, herror, hholdings⟩ := p.applyChange_frame path
    rw [← h.changeAt] at herror hholdings
    rw [applyChanges]
    cases hstep : p.applyChange path with
    | mk outcome q =>
      rw [hstep] at hsite herror hholdings
      cases outcome with
      | error e =>
        have hf : (base.changeAt path).failure? = some e := herror.symm
        simp only [hf] at hholdings ⊢
        exact hholdings ▸ .stop hf
      | ok u =>
        have hf : (base.changeAt path).failure? = none := herror.symm
        simp only [hf] at hholdings ⊢
        exact .next hf (hholdings ▸ ih (h.trans hsite))

theorem loadAll_cons_frame (p : Project) (path : FilePath) (rest : List FilePath) (count : Nat) :
    ∃ q later, SameSite p q ∧
      match (p.contentAt path).failure? with
      | none => loadAll count (path :: rest) p = loadAll later rest q ∧
          q.holdings = (p.contentAt path).settle path none p.holdings
      | some e => loadAll count (path :: rest) p = (.error e, q) ∧
          q.holdings = (p.contentAt path).upset path none p.holdings := by
  rw [loadAll, contentAt]
  cases hread : p.readRecord path with
  | error e =>
    simp only [load_fatal hread]
    exact ⟨p, count, .refl p, rfl, rfl⟩
  | ok found =>
    cases found with
    | error d =>
      simp only [load_useless hread]
      exact ⟨p.note [loadFailed d], count, ⟨rfl, rfl, rfl, rfl⟩, rfl, rfl⟩
    | ok r =>
      simp only [load_record hread]
      have hsite := p.sameSite_withRead path r
      cases hname : (Text.segments? r.name).isSome with
      | true =>
        obtain ⟨q, hq, hsite', hholdings⟩ := (p.withRead path r).ingest_frame hname
        simp only [hq, if_true]
        exact ⟨q, count + 1, hsite.trans hsite', rfl, hholdings⟩
      | false =>
        simp only [(p.withRead path r).ingest_misnamed hname, Bool.false_eq_true, if_false]
        exact ⟨p.withRead path r, count, hsite, rfl, rfl⟩

theorem ran_loadAll {base p : Project} (h : SameSite base p) (paths : List FilePath) (count : Nat) :
    Ran base.contentAt (fun _ _ => none) paths p.holdings (errorOf (loadAll count paths p).1)
      (loadAll count paths p).2.holdings := by
  induction paths generalizing p count with
  | nil => exact .done
  | cons path rest ih =>
    obtain ⟨q, later, hsite, hstep⟩ := p.loadAll_cons_frame path rest count
    rw [← h.contentAt] at hstep
    cases hf : (base.contentAt path).failure? with
    | some e =>
      simp only [hf] at hstep
      rw [hstep.1]
      exact hstep.2 ▸ .stop hf
    | none =>
      simp only [hf] at hstep
      rw [hstep.1]
      exact .next hf (hstep.2 ▸ ih (h.trans hsite) later)

theorem populate_frame (p : Project) {paths : List FilePath} (h : p.discover = .ok paths) :
    errorOf p.populate.1 = errorOf (loadAll 0 paths p).1 ∧
      p.populate.2.holdings = (loadAll 0 paths p).2.holdings := by
  simp only [populate, h]
  cases loadAll 0 paths p with
  | mk outcome q => cases outcome <;> exact ⟨rfl, rfl⟩

/-- Bringing a project in line with changed files, and loading it, isolate what is wrong with single
files exactly if no file ends the operation. Changed files that end it are record files that cannot
be followed or read to an end, or whose class name cannot be registered; loading ends at such files
too, and does nothing at all where the pattern of the record files is none. -/
theorem isolates_failures (p : Project) :
    (∀ paths, Isolates p.changeAt Holdings.known paths p.holdings
      (errorOf (applyChanges paths p).1) (applyChanges paths p).2.holdings) ∧
    (∀ path e, (p.changeAt path).failure? = some e ↔ p.isRecordFile path = true ∧
      (p.find path = .error e ∨ (∃ there, p.find path = .ok (some there)) ∧ p.Ends path e)) ∧
    (∀ paths, p.discover = .ok paths → Isolates p.contentAt (fun _ _ => none) paths p.holdings
      (errorOf p.populate.1) p.populate.2.holdings) ∧
    (∀ path e, (p.contentAt path).failure? = some e ↔ p.Ends path e) ∧
    ∀ e, p.discover = .error e → p.populate = (.error e, p) := by
  refine ⟨?_, p.failure?_changeAt, ?_, p.failure?_contentAt, ?_⟩
  · intro paths
    exact (ran_applyChanges (.refl p) paths).isolates
  · intro paths hd
    obtain ⟨herror, hholdings⟩ := p.populate_frame hd
    rw [herror, hholdings]
    exact (ran_loadAll (.refl p) paths 0).isolates
  · intro e hd
    rw [populate, hd]

/-! A record is written anew under a name that is not qualified, together with a new record. -/

def placeOfNew : List String := ["compiled", "source", "transpiled", "C.json"]

def misnaming : Disk :=
  Disk.put (.file (Utf8.encode "\x7b\"className\":\"c.C\"\x7d".toList)) placeOfNew
    (Disk.put (.file (Utf8.encode "\x7b\"className\":\"a..B\"\x7d".toList)) (placeIn "source")
      (compiledFor ["source"]).disk)

def untold : Project := (compiledFor ["source"]).populate.2.on misnaming

def toldOf : List FilePath := [fileFor "source", ⟨1, "app" :: placeOfNew⟩]

theorem misnaming_changeAt : ∃ r, r.name = "a..B" ∧
    ((compiledFor ["source"]).on misnaming).changeAt (fileFor "source") = .misnamed r := by
  have hname : ((compiledFor ["source"]).on misnaming).nameAt? (fileFor "source") =
      some "a..B" := by
    simp only [nameAt?, readRecord, String.contains_char_eq]
    decide +kernel
  have hmatch : ((compiledFor ["source"]).on misnaming).isRecordFile (fileFor "source") = true := by
    cbv
  have hthere : ((compiledFor ["source"]).on misnaming).occupied (fileFor "source") = true := by
    decide +kernel
  obtain ⟨r, hread, hr⟩ := readRecord_of_nameAt? hname
  have hbad : (Text.segments? r.name).isSome = false := by
    rw [hr]
    decide +kernel
  refine ⟨r, hr, ?_⟩
  rw [occupied] at hthere
  rw [changeAt, hmatch]
  cases hfind : ((compiledFor ["source"]).on misnaming).find (fileFor "source") with
  | error e => simp [hfind] at hthere
  | ok there =>
    cases there with
    | none => simp [hfind] at hthere
    | some there => simp [contentAt, hread, hbad]

theorem Holds.classNames_eq_sort {base p : Project} {classes : String → Prop}
    {seen : FilePath → Option String} (h : Holds base p classes seen) {names : Finset String}
    (hn : ∀ name, classes name ↔ name ∈ names) : p.classNames = names.sort := by
  obtain ⟨m, hm, hk⟩ := h.tracks
  have hkeys : m.keys = names := by
    ext name
    rw [Finmap.mem_keys, hk, hn]
  exact hkeys ▸ hm.represents.classNames_eq_sort

/-- The change ends at the first file: the class that it described is lost, and the new record is
not taken up. -/
theorem misnaming_not_isolated :
    untold.classNames = ["a.B"] ∧
    errorOf (applyChanges toldOf untold).1 = some (.badName ⟨"a..B"⟩) ∧
    (applyChanges toldOf untold).2.classNames = [] ∧
    ¬ (errorOf (applyChanges toldOf untold).1 = none ∧ (applyChanges toldOf untold).2.holdings =
      settleAll untold.changeAt Holdings.known toldOf untold.holdings) := by
  obtain ⟨count, p, hp, hh⟩ : ∃ count p, (compiledFor ["source"]).populate = (.ok count, p) ∧
    Holds (compiledFor ["source"]) p (compiledFor ["source"]).Described
      (compiledFor ["source"]).describes? := legible_single.1.populate
  have huntold : untold = p.on misnaming := by rw [untold, hp]
  have hdescribes := legible_single.2
  have hclasses : ∀ name, (compiledFor ["source"]).Described name ↔ name = "a.B" := by
    intro name
    simp only [Described, hdescribes]
    constructor
    · rintro ⟨path, h⟩
      split at h
      · exact (Option.some.inj h).symm
      · exact absurd h (by simp)
    · rintro rfl
      exact ⟨fileFor "source", by simp⟩
  have hknown : p.holdings.known (fileFor "source") = some "a.B" := by
    have hd : (compiledFor ["source"]).describes? (fileFor "source") = some "a.B" := by
      simp [hdescribes]
    have hbelow := legible_single.1.below (mem_recordFiles_of_describes? hd)
    exact (hh.remembers (fileFor "source") hbelow).trans hd
  obtain ⟨r, hr, hchange⟩ := misnaming_changeAt
  have hsite : SameSite ((compiledFor ["source"]).on misnaming) (p.on misnaming) :=
    hh.site.on misnaming
  have hfailure : (((compiledFor ["source"]).on misnaming).changeAt (fileFor "source")).failure? =
      some (.badName ⟨"a..B"⟩) := by rw [hchange, Finding.failure?, hr]
  have hfirst : toldOf = [] ++ fileFor "source" :: toldOf.tail := rfl
  obtain ⟨herror, hafter⟩ := (ran_applyChanges hsite toldOf).stops hfirst (by simp) hfailure
  have hdatabase :
      (applyChanges toldOf (p.on misnaming)).2.database = (p.remove "a.B").database := by
    have hdropped : (applyChanges toldOf (p.on misnaming)).2.holdings =
        p.holdings.assign (fileFor "source") "a..B" (some "a.B") := by
      rw [hafter, hchange, Finding.upset, hr]
      exact congrArg (p.holdings.assign (fileFor "source") "a..B") hknown
    have hformer : (some "a.B").filter (· != "a..B") = some "a.B" := by decide
    have hremoved := congrArg Holdings.database (p.remove_frame "a.B").2
    rw [Holdings.assign, hformer, Holdings.dropAny] at hdropped
    rw [Holdings.drop_database] at hremoved
    exact ((congrArg Holdings.database hdropped).trans (Holdings.drop_database _ _)).trans
      hremoved.symm
  have hloaded : p.classNames = ({"a.B"} : Finset String).sort :=
    hh.classNames_eq_sort (by simpa using hclasses)
  have hleft : (p.remove "a.B").classNames = (∅ : Finset String).sort :=
    (hh.remove "a.B").classNames_eq_sort (by simp [hclasses])
  rw [huntold]
  refine ⟨?_, herror, ?_, by simp [herror]⟩
  · rw [Finset.sort_singleton] at hloaded
    exact hloaded
  · rw [Finset.sort_empty] at hleft
    rw [classNames, hdatabase]
    exact hleft

end Project
end ScriptSense
