import ScriptSense.Project.Lifecycle
import ScriptSense.Proofs.Disk.Selection
import ScriptSense.Proofs.Namespace.History

/-! The record files of a project and the classes that they describe. A project that is loaded from a
disk in order has exactly the classes that the record files on the disk describe, and remembers of
each file which class that is. -/
namespace ScriptSense
namespace Project

def on (p : Project) (disk : Disk) : Project := { p with disk }

def recordFiles (p : Project) : List FilePath :=
  match p.discover with
  | .ok paths => paths
  | .error _ => []

/-- The class that the file at a path describes. -/
def nameAt? (p : Project) (path : FilePath) : Option String :=
  match p.readRecord path with
  | .ok (.ok r) => some r.name
  | _ => none

def describes? (p : Project) (path : FilePath) : Option String :=
  if path ∈ p.recordFiles then p.nameAt? path else none

/-- Whether some record file describes a class. -/
def Described (p : Project) (name : String) : Prop := ∃ path, p.describes? path = some name

/-- A disk in order: the record files can be found, and each holds a record with a well-formed
name. -/
structure Legible (p : Project) : Prop where
  regular : p.disk.Regular
  found : ∃ paths, p.discover = .ok paths
  records : ∀ path ∈ p.recordFiles, ∃ r, p.readRecord path = .ok (.ok r) ∧
    (Text.segments? r.name).isSome = true

structure SameSite (p q : Project) : Prop where
  root : p.root = q.root
  settings : p.settings = q.settings
  parser : p.parser = q.parser
  disk : p.disk = q.disk

namespace SameSite

variable {p q r : Project}

theorem refl (p : Project) : SameSite p p := ⟨rfl, rfl, rfl, rfl⟩

theorem trans (h : SameSite p q) (h' : SameSite q r) : SameSite p r :=
  ⟨h.root.trans h'.root, h.settings.trans h'.settings, h.parser.trans h'.parser,
    h.disk.trans h'.disk⟩

theorem on (h : SameSite p q) (disk : Disk) : SameSite (p.on disk) (q.on disk) :=
  ⟨h.root, h.settings, h.parser, rfl⟩

theorem place? (h : SameSite p q) : p.place? = q.place? := by
  funext path
  simp only [Project.place?, h.root]

theorem find (h : SameSite p q) : p.find = q.find := by
  funext path
  simp only [Project.find, h.place?, h.disk]

theorem readRecord (h : SameSite p q) : p.readRecord = q.readRecord := by
  funext path
  simp only [Project.readRecord, h.place?, h.disk]

theorem nameAt? (h : SameSite p q) : p.nameAt? = q.nameAt? := by
  funext path
  simp only [Project.nameAt?, h.readRecord]

theorem isRecordFile (h : SameSite p q) : p.isRecordFile = q.isRecordFile := by
  funext path
  simp only [Project.isRecordFile, h.root, h.settings]

theorem discover (h : SameSite p q) : p.discover = q.discover := by
  simp only [Project.discover, h.root, h.settings, h.disk]

theorem recordFiles (h : SameSite p q) : p.recordFiles = q.recordFiles := by
  simp only [Project.recordFiles, h.discover]

theorem describes? (h : SameSite p q) : p.describes? = q.describes? := by
  funext path
  simp only [Project.describes?, h.recordFiles, h.nameAt?]

theorem described (h : SameSite p q) (name : String) : p.Described name ↔ q.Described name := by
  rw [Described, Described, h.describes?]

theorem legible (h : SameSite p q) (hp : p.Legible) : q.Legible where
  regular := h.disk ▸ hp.regular
  found := h.discover ▸ hp.found
  records := by
    rw [← h.recordFiles, ← h.readRecord]
    exact hp.records

end SameSite

/-! Record files lie below the root. -/

def Below (p : Project) (path : FilePath) : Prop :=
  ∃ parts, path = p.root.join ⟨0, parts⟩ ∧ ∀ s ∈ parts, FilePath.IsPart s

theorem SameSite.below {p q : Project} (h : SameSite p q) {path : FilePath} :
    p.Below path ↔ q.Below path := by rw [Below, Below, h.root]

theorem toText_inj {p : Project} {a b : FilePath} (ha : p.Below a) (hb : p.Below b) :
    a.toText = b.toText ↔ a = b := by
  obtain ⟨parts, rfl, hp⟩ := ha
  obtain ⟨parts', rfl, hp'⟩ := hb
  constructor
  · intro h
    rw [FilePath.toText_below_injective p.root hp hp' h]
  · intro h
    rw [h]

@[simp] theorem place?_below (p : Project) (parts : List String) :
    p.place? (p.root.join ⟨0, parts⟩) = some parts := by simp [place?]

theorem mem_recordFiles {p : Project} {path : FilePath} : path ∈ p.recordFiles ↔
    (∃ paths, p.discover = .ok paths) ∧ ∃ parts bytes, path = p.root.join ⟨0, parts⟩ ∧
      parts ∈ p.disk.select (FilePath.ofText p.settings.metadata.compiledGlob).parts [] p.disk ∧
      p.disk.find? parts = some (.file bytes) := by
  rw [recordFiles]
  cases hd : p.discover with
  | error e => simp
  | ok paths =>
    rw [discover] at hd
    cases hg : p.disk.glob p.settings.metadata.compiledGlob with
    | error e => simp [hg] at hd
    | ok found =>
      have hp : found.map p.root.join = paths := by simpa [hg] using hd
      simp only [← hp, List.mem_map, Disk.mem_glob hg]
      constructor
      · rintro ⟨relative, ⟨parts, bytes, rfl, hs, hf⟩, rfl⟩
        exact ⟨⟨_, rfl⟩, parts, bytes, rfl, hs, hf⟩
      · rintro ⟨-, parts, bytes, rfl, hs, hf⟩
        exact ⟨_, ⟨parts, bytes, rfl, hs, hf⟩, rfl⟩

theorem below_of_mem_recordFiles {p : Project} (regular : p.disk.Regular) {path : FilePath}
    (hp : path ∈ p.recordFiles) : p.Below path := by
  obtain ⟨-, parts, bytes, rfl, hs, -⟩ := mem_recordFiles.mp hp
  refine ⟨parts, rfl, ?_⟩
  exact regular.isPart_of_mem_select rfl (fun s hm => FilePath.isPart_of_mem_ofText hm) (by simp) hs

theorem Legible.below {p : Project} (h : p.Legible) {path : FilePath} (hp : path ∈ p.recordFiles) :
    p.Below path := below_of_mem_recordFiles h.regular hp

theorem Legible.describes? {p : Project} (h : p.Legible) {path : FilePath}
    (hp : path ∈ p.recordFiles) : ∃ r, p.readRecord path = .ok (.ok r) ∧
      (Text.segments? r.name).isSome = true ∧ p.describes? path = some r.name := by
  obtain ⟨r, hr, hn⟩ := h.records path hp
  exact ⟨r, hr, hn, by simp [Project.describes?, hp, nameAt?, hr]⟩

theorem mem_recordFiles_of_describes? {p : Project} {path : FilePath} {name : String}
    (h : p.describes? path = some name) : path ∈ p.recordFiles := by
  rw [describes?] at h
  split at h
  · assumption
  · cases h

theorem nullByte_of_readRecord {p : Project} {path : FilePath} {found : Except Diagnostic ClassRecord}
    (h : p.readRecord path = .ok found) : path.toText.contains '\x00' = false := by
  by_contra hc
  rw [Bool.not_eq_false] at hc
  simp [readRecord, hc] at h

theorem readRecord_of_nameAt? {p : Project} {path : FilePath} {name : String}
    (h : p.nameAt? path = some name) : ∃ r, p.readRecord path = .ok (.ok r) ∧ r.name = name := by
  rw [nameAt?] at h
  split at h
  · rename_i r hr
    exact ⟨r, hr, by simpa using h⟩
  · cases h

theorem file_of_nameAt? {p : Project} {parts : List String} {name : String}
    (h : p.nameAt? (p.root.join ⟨0, parts⟩) = some name) :
    ∃ bytes, p.disk.find? parts = some (.file bytes) := by
  obtain ⟨r, hr, -⟩ := readRecord_of_nameAt? h
  rw [readRecord, nullByte_of_readRecord hr, place?_below] at hr
  cases hw : Disk.walk [] p.disk parts with
  | error e => simp [Disk.read, hw] at hr
  | ok there =>
    cases there with
    | folder es => simp [Disk.read, hw] at hr
    | file bytes => exact ⟨bytes, Disk.find?_eq_some.mpr hw⟩

/-- A regular disk is in order if the pattern is sound and every place that it selects holds a
record with a well-formed name; these places are the record files. -/
theorem legible_of_select {p : Project} {places : List (List String)} (regular : p.disk.Regular)
    (sound : (FilePath.ofText p.settings.metadata.compiledGlob).parts.any Disk.isBadSegment = false)
    (selected : p.disk.select (FilePath.ofText p.settings.metadata.compiledGlob).parts [] p.disk =
      places)
    (named : ∀ parts ∈ places, ∃ name, p.nameAt? (p.root.join ⟨0, parts⟩) = some name ∧
      (Text.segments? name).isSome = true) :
    p.Legible ∧ ∀ path, path ∈ p.recordFiles ↔ ∃ parts ∈ places, path = p.root.join ⟨0, parts⟩ := by
  have hfound : ∃ paths, p.discover = .ok paths := by
    simp [discover, Disk.glob, sound]
  have hfiles : ∀ path, path ∈ p.recordFiles ↔
      ∃ parts ∈ places, path = p.root.join ⟨0, parts⟩ := by
    intro path
    rw [mem_recordFiles, selected]
    constructor
    · rintro ⟨-, parts, bytes, rfl, hs, -⟩
      exact ⟨parts, hs, rfl⟩
    · rintro ⟨parts, hs, rfl⟩
      obtain ⟨name, hn, -⟩ := named parts hs
      obtain ⟨bytes, hf⟩ := file_of_nameAt? hn
      exact ⟨hfound, parts, bytes, rfl, hs, hf⟩
  refine ⟨⟨regular, hfound, ?_⟩, hfiles⟩
  intro path hm
  obtain ⟨parts, hs, rfl⟩ := (hfiles path).mp hm
  obtain ⟨name, hn, hw⟩ := named parts hs
  obtain ⟨r, hr, rfl⟩ := readRecord_of_nameAt? hn
  exact ⟨r, hr, hw⟩

/-! What a project holds: its classes, and the class that it remembers of each file. -/

/-- A project at the site of `base` that has exactly some classes and remembers a class of some
files. -/
structure Holds (base p : Project) (classes : String → Prop) (seen : FilePath → Option String) :
    Prop where
  site : SameSite base p
  tracks : ∃ m : Registry, p.database.Tracks m ∧ ∀ name, name ∈ m ↔ classes name
  remembers : ∀ path, base.Below path → p.classForPath? path = seen path

namespace Holds

variable {base p q : Project} {classes others : String → Prop} {seen : FilePath → Option String}

theorem congr {seen' : FilePath → Option String} (h : Holds base p classes seen)
    (hc : ∀ name, classes name ↔ others name)
    (hs : ∀ path, base.Below path → seen path = seen' path) : Holds base p others seen' := by
  obtain ⟨m, hm, hk⟩ := h.tracks
  refine ⟨h.site, ⟨m, hm, fun name => (hk name).trans (hc name)⟩, ?_⟩
  intro path hp
  rw [h.remembers path hp, hs path hp]

theorem classNames_eq_iff {base' : Project} {seen' : FilePath → Option String}
    (h : Holds base p classes seen) (h' : Holds base' q others seen') :
    p.classNames = q.classNames ↔ ∀ name, classes name ↔ others name := by
  obtain ⟨m, hm, hk⟩ := h.tracks
  obtain ⟨m', hm', hk'⟩ := h'.tracks
  have hp : p.classNames = m.keys.sort := hm.represents.classNames_eq_sort
  have hq : q.classNames = m'.keys.sort := hm'.represents.classNames_eq_sort
  rw [hp, hq]
  constructor
  · intro he name
    have hn := congrArg (name ∈ ·) he
    simp only [Finset.mem_sort, Finmap.mem_keys, eq_iff_iff] at hn
    rw [← hk, ← hk', hn]
  · intro he
    have hkeys : m.keys = m'.keys := by
      ext name
      rw [Finmap.mem_keys, Finmap.mem_keys, hk, hk', he]
    rw [hkeys]

theorem note (h : Holds base p classes seen) (events : List Event) :
    Holds base (p.note events) classes seen :=
  ⟨h.site.trans ⟨rfl, rfl, rfl, rfl⟩, h.tracks, h.remembers⟩

theorem ingest (h : Holds base p classes seen) {r : ClassRecord}
    (hr : (Text.segments? r.name).isSome = true) : ∃ later, p.ingest r = .ok later ∧
      Holds base later (fun name => name = r.name ∨ classes name) seen := by
  obtain ⟨m, hm, hk⟩ := h.tracks
  have hn : "" ∉ Text.segments r.name := Text.empty_notMem_segments hr
  have ht := hm.ingest r
  rw [Database.after, Database.ingest_eq, if_neg hn] at ht
  rw [Project.ingest, Database.ingest_eq, if_neg hn]
  refine ⟨_, rfl, h.site.trans ⟨rfl, rfl, rfl, rfl⟩, ⟨_, ht, ?_⟩, h.remembers⟩
  intro name
  rw [Registry.after, if_neg hn, Finmap.mem_insert, hk]

theorem remove (h : Holds base p classes seen) (name : String) :
    Holds base (p.remove name) (fun other => other ≠ name ∧ classes other) seen := by
  obtain ⟨m, hm, hk⟩ := h.tracks
  have ht := hm.remove name
  have hmem : ∀ other, other ∈ m.after (.remove name) ↔ other ≠ name ∧ classes other := by
    intro other
    rw [Registry.after, Finmap.mem_erase, hk]
  rw [Database.after] at ht
  rw [Project.remove]
  cases hr : p.database.remove name with
  | none =>
    rw [hr] at ht
    exact ⟨h.site, ⟨_, ht, hmem⟩, h.remembers⟩
  | some found =>
    rw [hr] at ht
    exact ⟨h.site.trans ⟨rfl, rfl, rfl, rfl⟩, ⟨_, ht, hmem⟩, h.remembers⟩

theorem forget (h : Holds base p classes seen) {path : FilePath} (hb : base.Below path) :
    Holds base (p.forget path) classes (Function.update seen path none) := by
  refine ⟨h.site.trans ⟨rfl, rfl, rfl, rfl⟩, h.tracks, ?_⟩
  intro other ho
  have hg : (p.forget path).classForPath? other =
      if other.toText = path.toText then none else p.classForPath? other := Assoc.get?_erase _ _ _
  simp only [hg, toText_inj ho hb, Function.update_apply, h.remembers other ho]

theorem load (h : Holds base p classes seen) {path : FilePath} (hb : base.Below path)
    {r : ClassRecord} (hr : base.readRecord path = .ok (.ok r)) :
    ∃ later, p.load path = .ok (some r, later) ∧
      Holds base later classes (Function.update seen path (some r.name)) := by
  rw [h.site.readRecord] at hr
  have hload : p.load path =
      .ok (some r, { p with classOfFile := p.classOfFile.put path.toText r.name }.note
        [loaded path.toText r.name]) := by
    rw [Project.load, hr]
    rfl
  refine ⟨_, hload, h.site.trans ⟨rfl, rfl, rfl, rfl⟩, h.tracks, ?_⟩
  intro other ho
  change Assoc.get? (p.classOfFile.put path.toText r.name) other.toText = _
  have hg : Assoc.get? p.classOfFile other.toText = seen other := h.remembers other ho
  simp only [Assoc.get?_put, toText_inj ho hb, Function.update_apply, hg]

theorem loadAll (h : Holds base p classes seen) {paths : List FilePath}
    (hb : ∀ path ∈ paths, base.Below path)
    (hr : ∀ path ∈ paths, ∃ r, base.readRecord path = .ok (.ok r) ∧
      (Text.segments? r.name).isSome = true) (count : Nat) :
    ∃ total later, Project.loadAll count paths p = (.ok total, later) ∧
      Holds base later (fun name => classes name ∨ ∃ path ∈ paths, base.nameAt? path = some name)
        (fun path => if path ∈ paths then base.nameAt? path else seen path) := by
  induction paths generalizing p classes seen count with
  | nil => exact ⟨count, p, rfl, h.congr (by simp) (by simp)⟩
  | cons path rest ih =>
    obtain ⟨r, hread, hname⟩ := hr path (by simp)
    have hat : base.nameAt? path = some r.name := by simp [nameAt?, hread]
    obtain ⟨p₁, hload, h₁⟩ := h.load (hb path (by simp)) hread
    obtain ⟨p₂, hingest, h₂⟩ := h₁.ingest hname
    obtain ⟨total, later, hrest, h₃⟩ := ih h₂ (fun q hq => hb q (by simp [hq]))
      (fun q hq => hr q (by simp [hq])) (count + 1)
    refine ⟨total, later, ?_, h₃.congr ?_ ?_⟩
    · rw [Project.loadAll, hload]
      simp only [hingest, hrest]
    · intro name
      simp only [List.mem_cons, exists_eq_or_imp, hat, Option.some.injEq]
      tauto
    · intro q _
      by_cases hq : q = path
      · subst hq
        by_cases hm : q ∈ rest <;> simp [hm, hat]
      · simp [hq, Function.update_of_ne]

end Holds

theorem holds_fresh (root : FilePath) (settings : Settings) (parser : Parser) (disk : Disk) :
    Holds (fresh root settings parser disk) (fresh root settings parser disk) (fun _ => False)
      (fun _ => none) := by
  refine ⟨.refl _, ⟨∅, Database.tracks_empty _, ?_⟩, fun _ _ => rfl⟩
  intro name
  simp [Finmap.notMem_empty]

/-- A project that is loaded from a disk in order has the classes that the disk describes. -/
theorem Legible.populate {root : FilePath} {settings : Settings} {parser : Parser} {disk : Disk}
    (h : (fresh root settings parser disk).Legible) :
    ∃ count p, (fresh root settings parser disk).populate = (.ok count, p) ∧
      Holds (fresh root settings parser disk) p (fresh root settings parser disk).Described
        (fresh root settings parser disk).describes? := by
  obtain ⟨paths, hd⟩ := h.found
  have hf : (fresh root settings parser disk).recordFiles = paths := by rw [recordFiles, hd]
  obtain ⟨total, p, hl, hp⟩ := (holds_fresh root settings parser disk).loadAll
    (fun path hm => h.below (hf ▸ hm)) (fun path hm => h.records path (hf ▸ hm)) 0
  have hpopulate : (fresh root settings parser disk).populate =
      (.ok p.database.names.size, { p with initialized := true }.note
        [initializedEvent p.root.toText paths.length total p.database.names.size]) := by
    rw [Project.populate, hd]
    simp only [hl]
  refine ⟨_, _, hpopulate, ?_⟩
  have hlater : Holds (fresh root settings parser disk) { p with initialized := true } _ _ :=
    ⟨hp.site.trans ⟨rfl, rfl, rfl, rfl⟩, hp.tracks, hp.remembers⟩
  refine (hlater.note _).congr ?_ ?_
  · intro name
    simp only [Described, Project.describes?, hf, false_or]
    constructor
    · rintro ⟨path, hm, hn⟩
      exact ⟨path, by rw [if_pos hm, hn]⟩
    · rintro ⟨path, hn⟩
      split at hn
      · rename_i hm
        exact ⟨path, hm, hn⟩
      · cases hn
  · intro path _
    rw [Project.describes?, hf]

end Project
end ScriptSense
