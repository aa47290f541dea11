import ScriptSense.Proofs.Disk.Matching
import ScriptSense.Proofs.Project.Effects

/-! No class is left without a file. Whatever is done to a project, and however its disk changes in
between, every class that it has is the class that it knows some file to describe, so that the class
goes when it is told that this file is gone. What one finding preserves is preserved by loading and
by following changes, also where these end early, and so by every run. -/
namespace ScriptSense
namespace Project

/-! What one finding preserves. -/

/-- Every class is the one that some file of the given kind is known to describe. -/
structure Holdings.Anchored (followed : FilePath → Prop) (h : Holdings) : Prop where
  placed : h.names.Placed
  anchor : ∀ name, h.names.isClass name = true → ∃ path, followed path ∧ h.known path = some name

theorem Holdings.anchored_of_empty {followed : FilePath → Prop} {h : Holdings}
    {roots : List String} (he : h.names = .empty roots) : h.Anchored followed := by
  refine ⟨he ▸ Namespace.placed_empty roots, ?_⟩
  intro name hname
  rw [he, Namespace.isClass, Namespace.record?_empty] at hname
  cases hname

theorem Finding.leaves_cases {f : Finding} {known : Option String} {name : String}
    (h : f.leaves known = some name) : f.leaves none = some name ∨ known = some name := by
  cases f with
  | gone => cases h
  | record r => exact Or.inl h
  | misnamed r => exact Or.inl h
  | foreign => exact Or.inr h
  | useless => exact Or.inr h
  | fatal e => exact Or.inr h

theorem Finding.leaves_of_not_sheds {f : Finding} {former : Option String} {name : String}
    (hs : f.sheds former name = false) (hf : former = some name ∨ f.leaves none = some name) :
    f.leaves (some name) = some name := by
  rcases hf with rfl | hf
  · cases f <;> simp_all [Finding.sheds, Finding.leaves]
  · cases f <;> simp_all [Finding.leaves]

/-- A finding keeps all classes anchored, if the class that its file was known to describe is the one
that it drops or the one that the file describes now. -/
theorem Holdings.Anchored.take {followed : FilePath → Prop} {h : Holdings} (ha : h.Anchored followed)
    {f : Finding} (proper : f.Proper) {path : FilePath} {former : Option String}
    (hp : ∀ r, f = .record r → followed path)
    (hf : ∀ name, h.known path = some name → former = some name ∨ f.leaves none = some name) :
    (f.take path former h).Anchored followed := by
  refine ⟨Finding.placed_take proper path former ha.placed, ?_⟩
  intro name hname
  rw [Namespace.isClass, Finding.record?_take proper] at hname
  cases hb : f.brings? name with
  | some r =>
    obtain ⟨rfl, rfl⟩ := Finding.eq_record_of_brings? hb
    refine ⟨path, hp r rfl, ?_⟩
    rw [Finding.known_take, if_pos rfl, Finding.leaves]
  | none =>
    rw [hb, Option.none_or] at hname
    have hs : f.sheds former name = false := by
      by_contra hshed
      rw [Bool.not_eq_false] at hshed
      simp [hshed] at hname
    have hclass : h.names.isClass name = true := by
      rw [hs, if_neg Bool.false_ne_true] at hname
      exact hname
    obtain ⟨q, hq, hknown⟩ := ha.anchor name hclass
    refine ⟨q, hq, ?_⟩
    rw [Finding.known_take]
    split
    · rename_i htext
      have hpath : h.known path = some name := by rw [← hknown, known, known, htext]
      rw [hknown]
      exact Finding.leaves_of_not_sheds hs (hf name hpath)
    · exact hknown

/-! What the operations preserve. -/

/-- A path is followed if the pattern of the record files, when it is plain, matches it. -/
def Follows (p : Project) (path : FilePath) : Prop :=
  Glob.IsPlain p.settings.metadata.compiledGlob → p.isRecordFile path = true

theorem SameSite.follows {p q : Project} (h : SameSite p q) : p.Follows = q.Follows := by
  funext path
  rw [Follows, Follows, h.settings, h.isRecordFile]

theorem follows_of_mem_recordFiles {p : Project} (regular : p.disk.Regular) {path : FilePath}
    (hp : path ∈ p.recordFiles) : p.Follows path := by
  intro plain
  obtain ⟨-, parts, bytes, rfl, hs, hf⟩ := mem_recordFiles.mp hp
  rw [isRecordFile, FilePath.join_below, FilePath.relativeTo?_below]
  exact regular.isMatch_of_mem_select plain hf hs

theorem changeAt_record {p : Project} {path : FilePath} {r : ClassRecord}
    (h : p.changeAt path = .record r) : p.isRecordFile path = true := by
  rw [changeAt] at h
  cases hm : p.isRecordFile path with
  | true => rfl
  | false => simp [hm] at h

theorem anchored_applyChanges {p : Project} (ha : p.holdings.Anchored p.Follows)
    (paths : List FilePath) : (applyChanges paths p).2.holdings.Anchored p.Follows := by
  refine (ran_applyChanges (.refl p) paths).preserves _ ?_ ha
  intro path _ h hh
  refine hh.take (p.proper_changeAt path) ?_ fun name hname => Or.inl hname
  intro r hr _
  exact changeAt_record hr

/-- Loading starts from no known files, and then knows of a file only what it has to offer. -/
theorem anchored_populate {p : Project} (regular : p.disk.Regular) (hfiles : p.classOfFile = [])
    (ha : p.holdings.Anchored p.Follows) : p.populate.2.holdings.Anchored p.Follows := by
  cases hd : p.discover with
  | error e =>
    rw [populate, hd]
    exact ha
  | ok paths =>
    have hmem : ∀ path ∈ paths, path ∈ p.recordFiles := by
      intro path hm
      rwa [recordFiles, hd]
    rw [(p.populate_frame hd).2]
    refine ((ran_loadAll (.refl p) paths 0).preserves (fun h => h.Anchored p.Follows ∧
      ∀ path ∈ paths, ∀ name, h.known path = some name →
        (p.contentAt path).leaves none = some name) ?_ ⟨ha, ?_⟩).1
    · rintro path hm h ⟨hh, hknown⟩
      refine ⟨hh.take (p.proper_contentAt path)
        (fun r _ => follows_of_mem_recordFiles regular (hmem path hm))
        (fun name hname => Or.inr (hknown path hm name hname)), ?_⟩
      intro q hq name hname
      rw [Finding.known_take] at hname
      split at hname
      · rename_i htext
        have hbelow := fun path hm => below_of_mem_recordFiles regular (hmem path hm)
        obtain rfl := (toText_inj (hbelow q hq) (hbelow path hm)).mp htext
        rcases Finding.leaves_cases hname with hleft | hbefore
        · exact hleft
        · exact hknown q hq name hbefore
      · exact hknown q hq name hname
    · intro path _ name hname
      rw [Holdings.known, holdings, hfiles] at hname
      cases hname

theorem sameSite_applyChanges (p : Project) (paths : List FilePath) :
    SameSite p (applyChanges paths p).2 := by
  induction paths generalizing p with
  | nil => exact .refl p
  | cons path rest ih =>
    have hfirst : SameSite p (p.applyChange path).2 := (p.applyChange_frame path).1
    rw [applyChanges]
    cases hstep : p.applyChange path with
    | mk outcome q =>
      rw [hstep] at hfirst
      cases outcome with
      | error e => exact hfirst
      | ok u => exact hfirst.trans (ih q)

theorem sameSite_loadAll (p : Project) (paths : List FilePath) (count : Nat) :
    SameSite p (loadAll count paths p).2 := by
  induction paths generalizing p count with
  | nil => exact .refl p
  | cons path rest ih =>
    obtain ⟨q, later, hfirst, hstep⟩ := p.loadAll_cons_frame path rest count
    cases hf : (p.contentAt path).failure? with
    | none =>
      simp only [hf] at hstep
      rw [hstep.1]
      exact hfirst.trans (ih q later)
    | some e =>
      simp only [hf] at hstep
      rw [hstep.1]
      exact hfirst

theorem sameSite_populate (p : Project) : SameSite p p.populate.2 := by
  rw [populate]
  cases p.discover with
  | error e => exact .refl p
  | ok paths =>
    have hload := p.sameSite_loadAll paths 0
    cases hl : loadAll 0 paths p with
    | mk outcome q =>
      rw [hl] at hload
      simp only [hl]
      cases outcome with
      | error e => exact hload
      | ok loaded => exact hload.trans ⟨rfl, rfl, rfl, rfl⟩

/-! Runs. -/

/-- What is done to a project, and what happens to its disk in between. -/
inductive Action where
  | populate
  | repopulate
  | dispose
  | applyChanges (paths : List FilePath)
  | edit (disk : Disk)

def act (p : Project) : Action → Project
  | .populate => p.populate.2
  | .repopulate => p.repopulate.2
  | .dispose => p.dispose
  | .applyChanges paths => (Project.applyChanges paths p).2
  | .edit disk => p.on disk

def actAll (p : Project) (actions : List Action) : Project := actions.foldl act p

/-- Actions on a project that is blank or not: it is loaded only while it is blank, that is new or
just disposed of, and its disk is one that can exist. -/
def Orderly : (blank : Bool) → List Action → Prop
  | _, [] => True
  | blank, .populate :: rest => blank = true ∧ Orderly false rest
  | _, .repopulate :: rest => Orderly false rest
  | _, .dispose :: rest => Orderly true rest
  | _, .applyChanges _ :: rest => Orderly false rest
  | blank, .edit disk :: rest => disk.Regular ∧ Orderly blank rest

/-- A project on a disk that can exist, with all its classes anchored; if it is blank, it knows no
files. -/
structure Steady (blank : Bool) (p : Project) : Prop where
  regular : p.disk.Regular
  forgotten : blank = true → p.classOfFile = []
  anchored : p.holdings.Anchored p.Follows

namespace Steady

variable {blank : Bool} {p : Project}

theorem of_site {q : Project} (h : Steady blank p) (site : SameSite p q)
    (ha : q.holdings.Anchored p.Follows) : Steady false q where
  regular := site.disk ▸ h.regular
  forgotten := by simp
  anchored := site.follows ▸ ha

theorem applyChanges (h : Steady blank p) (paths : List FilePath) :
    Steady false (Project.applyChanges paths p).2 :=
  h.of_site (p.sameSite_applyChanges paths) (anchored_applyChanges h.anchored paths)

theorem populate (h : Steady true p) : Steady false p.populate.2 :=
  h.of_site p.sameSite_populate (anchored_populate h.regular (h.forgotten rfl) h.anchored)

theorem clear (h : Steady blank p) : Steady true p.clear where
  regular := h.regular
  forgotten _ := rfl
  anchored := Holdings.anchored_of_empty rfl

theorem dispose (h : Steady blank p) : Steady true p.dispose := by
  have hstop : Steady blank p.stopWatching := by
    rw [stopWatching]
    split
    · exact h
    · exact ⟨h.regular, h.forgotten, h.anchored⟩
  exact ⟨hstop.clear.regular, hstop.clear.forgotten, hstop.clear.anchored⟩

theorem on (h : Steady blank p) {disk : Disk} (regular : disk.Regular) :
    Steady blank (p.on disk) := ⟨regular, h.forgotten, h.anchored⟩

theorem actAll {actions : List Action} (h : Steady blank p) (orderly : Orderly blank actions) :
    ∃ blank, Steady blank (p.actAll actions) := by
  induction actions generalizing p blank with
  | nil => exact ⟨blank, h⟩
  | cons action rest ih =>
    cases action with
    | populate =>
      obtain ⟨rfl, orderly⟩ := orderly
      exact ih h.populate orderly
    | repopulate => exact ih h.clear.populate orderly
    | dispose => exact ih h.dispose orderly
    | applyChanges paths => exact ih (h.applyChanges paths) orderly
    | edit disk => exact ih (h.on orderly.1) orderly.2

end Steady

theorem steady_fresh (root : FilePath) (settings : Settings) (parser : Parser) {disk : Disk}
    (regular : disk.Regular) : Steady true (fresh root settings parser disk) where
  regular := regular
  forgotten _ := rfl
  anchored := Holdings.anchored_of_empty rfl

/-- A file that holds a class in a project: the project knows the file to describe the class, and the
class goes with the file. The project takes notice of files whose path its pattern matches, and so of
this one if the pattern is plain. A pattern with segments that are empty or dots finds files that it
does not match; their going is not noticed. -/
structure Anchor (p : Project) (path : FilePath) (name : String) : Prop where
  known : p.classForPath? path = some name
  follows : p.Follows path
  goes : p.isRecordFile path = true → ∀ disk, (p.on disk).find path = .ok none →
    ∃ q, applyChanges [path] (p.on disk) = (.ok (), q) ∧ name ∉ q.classNames

theorem Anchor.goes_of_isPlain {p : Project} {path : FilePath} {name : String}
    (h : p.Anchor path name) (plain : Glob.IsPlain p.settings.metadata.compiledGlob) (disk : Disk)
    (gone : (p.on disk).find path = .ok none) :
    ∃ q, applyChanges [path] (p.on disk) = (.ok (), q) ∧ name ∉ q.classNames :=
  h.goes (h.follows plain) disk gone

/-- A record file that is gone takes the class with it that it was known to describe. -/
theorem applyChanges_gone {p : Project} (placed : p.database.names.Placed) {path : FilePath}
    {name : String} (known : p.classForPath? path = some name) (hm : p.isRecordFile path = true)
    (gone : p.find path = .ok none) :
    ∃ q, applyChanges [path] p = (.ok (), q) ∧ name ∉ q.classNames := by
  have hchange : p.changeAt path = .gone := by
    rw [changeAt, hm, gone]
    rfl
  have herror : errorOf (p.applyChange path).1 = none := by
    rw [(p.applyChange_frame path).2.1, hchange]
    rfl
  have hholdings : (p.applyChange path).2.holdings =
      Finding.gone.take path (some name) p.holdings := by
    have hknown : p.holdings.known path = some name := known
    rw [p.holdings_applyChange path, hchange, hknown]
  have hproper : Finding.gone.Proper := trivial
  have hplaced : (p.applyChange path).2.holdings.names.Placed := by
    rw [hholdings]
    exact Finding.placed_take hproper path _ placed
  have hrecord : (p.applyChange path).2.holdings.names.record? name = none := by
    rw [hholdings, Finding.record?_take hproper]
    simp [Finding.brings?, Finding.sheds]
  cases hstep : p.applyChange path with
  | mk outcome q =>
    rw [hstep] at herror hplaced hrecord
    cases outcome with
    | error e => cases herror
    | ok u =>
      refine ⟨q, by rw [applyChanges, hstep]; rfl, ?_⟩
      intro hname
      have hclass : q.holdings.names.isClass name = true := hplaced.mem_classNames.mp hname
      rw [Namespace.isClass, hrecord] at hclass
      cases hclass

/-- Whatever is done to a project and happens to its disk, every class that it has is held by a
file. -/
theorem exists_anchor_of_run (root : FilePath) (settings : Settings) (parser : Parser) (disk : Disk)
    (actions : List Action) (regular : disk.Regular) (orderly : Orderly true actions) :
    ∀ name ∈ ((fresh root settings parser disk).actAll actions).classNames,
      ∃ path, ((fresh root settings parser disk).actAll actions).Anchor path name := by
  intro name hname
  obtain ⟨blank, h⟩ := (steady_fresh root settings parser regular).actAll orderly
  generalize (fresh root settings parser disk).actAll actions = p at h hname ⊢
  have placed : p.database.names.Placed := h.anchored.placed
  obtain ⟨path, hfollows, hknown⟩ := h.anchored.anchor name (placed.mem_classNames.mp hname)
  refine ⟨path, hknown, hfollows, ?_⟩
  intro hm later hgone
  have hplaced : (p.on later).database.names.Placed := placed
  exact applyChanges_gone hplaced hknown hm hgone

def unnoticed : List Action := [.populate, .edit removeTwin.disk]

theorem exists_anchor_unnoticed : twins.disk.Regular ∧ Orderly true unnoticed ∧
    "a.B" ∈ (twins.actAll unnoticed).classNames ∧
    ∃ path, (twins.actAll unnoticed).Anchor path "a.B" := by
  have hregular : twins.disk.Regular := legible_twins.1.regular
  have horderly : Orderly true unnoticed := ⟨rfl, legible_single.1.regular, trivial⟩
  obtain ⟨count, p, hp, hh⟩ : ∃ count p, twins.populate = (.ok count, p) ∧
      Holds twins p twins.Described twins.describes? := legible_twins.1.populate
  have hname : "a.B" ∈ (twins.actAll unnoticed).classNames := by
    obtain ⟨m, hm, hk⟩ := hh.tracks
    have hdescribed : twins.Described "a.B" := ⟨fileFor "source", by simp [legible_twins.2]⟩
    have hclass : p.database.names.isClass "a.B" = true :=
      (hm.represents.isClass_iff "a.B").mpr ((hk "a.B").mpr hdescribed)
    have hleft : twins.actAll unnoticed = p.on removeTwin.disk := by
      simp only [actAll, unnoticed, List.foldl_cons, List.foldl_nil, act, hp]
    rw [hleft]
    exact hm.placed.mem_classNames.mpr hclass
  exact ⟨hregular, horderly, hname,
    exists_anchor_of_run _ _ _ _ unnoticed hregular horderly "a.B" hname⟩

end Project
end ScriptSense
