import Mathlib
import ScriptSense.Proofs.Project.Batch

/-! Following the changes of record files. A project that is told of changed files does not always end
up with the classes that the files describe: a class is dropped with one file although another file
describes it. Main statement: a run stays in line with the disk exactly if every round makes good
for what it drops. -/
namespace ScriptSense
namespace Project

/-! Rounds of changes. -/

/-- The disk that a round of changes leaves, and the files it is reported to have changed. -/
structure Round where
  disk : Disk
  changed : List FilePath

/-- Brings a project in line with one round of changes. -/
def catchUp (p : Project) (r : Round) : Outcome Unit := applyChanges r.changed (p.on r.disk)

def catchUpAll : List Round → Project → Outcome Unit
  | [], p => (.ok (), p)
  | r :: rest, p =>
    match p.catchUp r with
    | (.error e, p) => (.error e, p)
    | (.ok (), p) => catchUpAll rest p

/-- A project with the classes that it would have if it were loaded now. -/
def InLine (p : Project) : Prop :=
  p.classNames = (fresh p.root p.settings p.parser p.disk).populate.2.classNames

/-- A project that is in line, and stays so after each of some rounds. -/
def StaysInLine : List Round → Project → Prop
  | [], p => p.InLine
  | r :: rest, p => p.InLine ∧ StaysInLine rest (p.catchUp r).2

/-- The report of a round names record files of the old or the new disk, each once and in any order;
among them are all that came, went or describe another class than before. -/
structure Reported (p : Project) (r : Round) : Prop where
  distinct : r.changed.Nodup
  known : ∀ path ∈ r.changed, path ∈ p.recordFiles ∨ path ∈ (p.on r.disk).recordFiles
  complete : ∀ path, p.describes? path ≠ (p.on r.disk).describes? path → path ∈ r.changed

/-- Rounds that find and leave a disk in order, each with its report. -/
def Lawful : Project → List Round → Prop
  | p, [] => p.Legible
  | p, r :: rest => p.Legible ∧ p.Reported r ∧ Lawful (p.on r.disk) rest

/-- The reported files that a project takes to be record files. -/
def batch (p : Project) (r : Round) : List FilePath := r.changed.filter p.isRecordFile

/-- What is remembered of the files after a round. -/
def notesAfter (p : Project) (seen : FilePath → Option String) (r : Round) (path : FilePath) :
    Option String :=
  if path ∈ p.batch r then (p.on r.disk).noteOn seen path else seen path

/-- A round that makes good for what it drops. -/
structure Faithful (p : Project) (seen : FilePath → Option String) (r : Round) : Prop where
  /-- If a file drops a class that another file describes, a later one of the batch brings it
  back. -/
  keeps : ∀ name earlier path later, p.batch r = earlier ++ path :: later →
    (p.on r.disk).Drops seen path name → (p.on r.disk).Described name →
      ∃ q ∈ later, (p.on r.disk).describes? q = some name
  /-- A class that no file describes any longer is dropped by some file. -/
  letsGo : ∀ name, p.Described name → ¬ (p.on r.disk).Described name →
    ∃ path ∈ p.batch r, (p.on r.disk).Drops seen path name
  /-- A class that no file described before is described by a file that is taken for a record
  file. -/
  takesUp : ∀ name, ¬ p.Described name → (p.on r.disk).Described name →
    ∃ path, (p.on r.disk).describes? path = some name ∧ p.isRecordFile path = true

def Careful : Project → (FilePath → Option String) → List Round → Prop
  | _, _, [] => True
  | p, seen, r :: rest => p.Faithful seen r ∧ Careful (p.on r.disk) (p.notesAfter seen r) rest

theorem exists_last_drop {drops : FilePath → Prop} {batch : List FilePath}
    (h : ∃ path ∈ batch, drops path) : ∃ earlier path later, batch = earlier ++ path :: later ∧
      drops path ∧ ∀ q ∈ later, ¬ drops q := by
  induction batch with
  | nil => simp at h
  | cons first rest ih =>
    by_cases hr : ∃ path ∈ rest, drops path
    · obtain ⟨earlier, path, later, rfl, hp, hl⟩ := ih hr
      exact ⟨first :: earlier, path, later, rfl, hp, hl⟩
    · obtain ⟨path, hm, hp⟩ := h
      rcases List.mem_cons.mp hm with rfl | hm
      · exact ⟨[], path, rest, rfl, hp, fun q hq hd => hr ⟨q, hq, hd⟩⟩
      · exact absurd ⟨path, hm, hp⟩ hr

/-- Of two files in a batch, the second comes after the first if the first does not come after it. -/
theorem mem_of_split {earlier later earlier' later' : List FilePath} {path q : FilePath}
    (h : earlier ++ path :: later = earlier' ++ q :: later') (hne : q ≠ path)
    (hl : path ∉ later') : q ∈ later := by
  rcases List.append_eq_append_iff.mp h with ⟨middle, -, hm⟩ | ⟨middle, -, hm⟩
  · cases middle with
    | nil => exact absurd (List.cons.inj hm).1.symm hne
    | cons first middle => simp [(List.cons.inj hm).2]
  · cases middle with
    | nil => exact absurd (List.cons.inj hm).1 hne
    | cons first middle => exact absurd (by simp [(List.cons.inj hm).2]) hl

/-- After a round from a project in line, exactly the described classes stand if and only if the round
is faithful. -/
theorem faithful_iff {p : Project} {r : Round} (hr : p.Reported r)
    (seen : FilePath → Option String) :
    (∀ name, Standing (fun path => (p.on r.disk).describes? path = some name)
        (fun path => (p.on r.disk).Drops seen path name) (p.batch r) (p.Described name) ↔
      (p.on r.disk).Described name) ↔ p.Faithful seen r := by
  simp only [standing_iff]
  constructor
  · intro h
    refine ⟨?_, ?_, ?_⟩
    · intro name earlier path later hbatch hdrop hd
      rcases (h name).mpr hd with ⟨earlier', q, later', hbatch', hq, hl⟩ | ⟨-, hn⟩
      · -- `path` drops the class and `q` adds it for good, so that `q` comes after `path`
        have hne : q ≠ path := by
          rintro rfl
          exact hdrop.2 (by simp [noteOn, hq])
        have hafter : path ∉ later' := fun hm => hl path hm hdrop
        exact ⟨q, mem_of_split (hbatch.symm.trans hbatch') hne hafter, hq⟩
      · exact absurd hdrop (hn path (by simp [hbatch]))
    · intro name hp hn
      by_contra hnone
      exact hn ((h name).mp (Or.inr ⟨hp, fun q hq hd => hnone ⟨q, hq, hd⟩⟩))
    · intro name hp hd
      rcases (h name).mpr hd with ⟨earlier, q, later, hbatch, hq, -⟩ | ⟨hold, -⟩
      · have hm : q ∈ p.batch r := by simp [hbatch]
        exact ⟨q, hq, (List.mem_filter.mp hm).2⟩
      · exact absurd hold hp
  · intro h name
    constructor
    · rintro (⟨earlier, q, later, -, hq, -⟩ | ⟨hp, hn⟩)
      · exact ⟨q, hq⟩
      · by_contra hd
        obtain ⟨path, hm, hdrop⟩ := h.letsGo name hp hd
        exact hn path hm hdrop
    · intro hd
      by_cases hdrop : ∃ path ∈ p.batch r, (p.on r.disk).Drops seen path name
      · -- what brings the class back after its last drop is not dropped again
        obtain ⟨earlier, path, later, hbatch, hp, hl⟩ := exists_last_drop hdrop
        obtain ⟨q, hq, hname⟩ := h.keeps name earlier path later hbatch hp hd
        obtain ⟨before, after, rfl⟩ := List.append_of_mem hq
        refine Or.inl ⟨earlier ++ path :: before, q, after, by simp [hbatch], hname, ?_⟩
        exact fun q' hq' => hl q' (by simp [hq'])
      · have hnone : ∀ q ∈ p.batch r, ¬ (p.on r.disk).Drops seen q name :=
          fun q hq hd => hdrop ⟨q, hq, hd⟩
        by_cases hp : p.Described name
        · exact Or.inr ⟨hp, hnone⟩
        · obtain ⟨q, hname, hq⟩ := h.takesUp name hp hd
          have hdiff : p.describes? q ≠ (p.on r.disk).describes? q :=
            fun he => hp ⟨q, he.trans hname⟩
          have hm : q ∈ p.batch r := List.mem_filter.mpr ⟨hr.complete q hdiff, hq⟩
          obtain ⟨before, after, hbatch⟩ := List.append_of_mem hm
          exact Or.inl ⟨before, q, after, hbatch, hname, fun q' hq' =>
            hnone q' (by simp [hbatch, hq'])⟩

theorem StaysInLine.inLine {rounds : List Round} {p : Project} (h : StaysInLine rounds p) :
    p.InLine := by
  cases rounds with
  | nil => exact h
  | cons r rest => exact h.1

theorem Lawful.legible {p : Project} {rounds : List Round} (h : p.Lawful rounds) : p.Legible := by
  cases rounds with
  | nil => exact h
  | cons r rest => exact h.1

theorem Holds.inLine_iff {base p : Project} {classes : String → Prop}
    {seen : FilePath → Option String} (h : Holds base p classes seen) (hl : base.Legible) :
    p.InLine ↔ ∀ name, classes name ↔ base.Described name := by
  have hs : SameSite base (fresh p.root p.settings p.parser p.disk) :=
    h.site.trans ⟨rfl, rfl, rfl, rfl⟩
  obtain ⟨count, q, hq, hh⟩ := (hs.legible hl).populate
  rw [InLine, hq, h.classNames_eq_iff hh]
  simp only [hs.described]

theorem Holds.catchUp {base p : Project} {classes : String → Prop}
    {seen : FilePath → Option String} (h : Holds base p classes seen) {r : Round}
    (ho : base.Legible) (hn : (base.on r.disk).Legible) (hr : base.Reported r) :
    ∃ later, p.catchUp r = (.ok (), later) ∧
      Holds (base.on r.disk) later
        (fun name => Standing (fun path => (base.on r.disk).describes? path = some name)
          (fun path => (base.on r.disk).Drops seen path name) (base.batch r) (classes name))
        (base.notesAfter seen r) := by
  have hp : Holds (base.on r.disk) (p.on r.disk) classes seen :=
    ⟨h.site.on r.disk, h.tracks, h.remembers⟩
  exact hp.applyChanges hr.distinct fun path hm => ho.fate hn (hr.known path hm)

theorem Holds.catchUpAll {base p : Project} {classes : String → Prop}
    {seen : FilePath → Option String} (h : Holds base p classes seen) {rounds : List Round}
    (hl : base.Lawful rounds) : (catchUpAll rounds p).1 = .ok () := by
  induction rounds generalizing base p classes seen with
  | nil => rfl
  | cons r rest ih =>
    obtain ⟨ho, hr, hrest⟩ := hl
    obtain ⟨later, hlater, h₁⟩ := h.catchUp ho hrest.legible hr
    rw [Project.catchUpAll, hlater]
    exact ih h₁ hrest

/-- A run from a project in line stays in line exactly if all its rounds are faithful. -/
theorem Holds.staysInLine_iff {base p : Project} {seen : FilePath → Option String}
    (h : Holds base p base.Described seen) {rounds : List Round} (hl : base.Lawful rounds) :
    StaysInLine rounds p ↔ base.Careful seen rounds := by
  induction rounds generalizing base p seen with
  | nil => simpa [StaysInLine, Careful] using (h.inLine_iff hl).mpr fun _ => Iff.rfl
  | cons r rest ih =>
    obtain ⟨ho, hr, hrest⟩ := hl
    have hn := hrest.legible
    obtain ⟨later, hlater, h₁⟩ := h.catchUp ho hn hr
    have hline : later.InLine ↔ base.Faithful seen r :=
      (h₁.inLine_iff hn).trans (faithful_iff hr seen)
    have hstart : p.InLine := (h.inLine_iff ho).mpr fun _ => Iff.rfl
    rw [StaysInLine, Careful, hlater]
    constructor
    · rintro ⟨-, hstay⟩
      have hfaithful : base.Faithful seen r := hline.mp hstay.inLine
      refine ⟨hfaithful, (ih ?_ hrest).mp hstay⟩
      exact h₁.congr ((faithful_iff hr seen).mpr hfaithful) fun _ _ => rfl
    · rintro ⟨hfaithful, hcareful⟩
      refine ⟨hstart, (ih ?_ hrest).mpr hcareful⟩
      exact h₁.congr ((faithful_iff hr seen).mpr hfaithful) fun _ _ => rfl

/-- A project that is loaded and then told of rounds of changes follows them all, and has after each
round the classes of a project loaded then exactly if every round is faithful. -/
theorem staysInLine_iff_careful (root : FilePath) (settings : Settings) (parser : Parser)
    (disk : Disk) (rounds : List Round) (h : (fresh root settings parser disk).Lawful rounds) :
    ∃ count p, (fresh root settings parser disk).populate = (.ok count, p) ∧
      (catchUpAll rounds p).1 = .ok () ∧
      (StaysInLine rounds p ↔ (fresh root settings parser disk).Careful
        (fresh root settings parser disk).describes? rounds) := by
  obtain ⟨count, p, hp, hh⟩ := h.legible.populate
  exact ⟨count, p, hp, hh.catchUpAll h, hh.staysInLine_iff h⟩

/-! One class compiled for two targets: when the file of one target goes, the class goes. -/

def placeIn (target : String) : List String := ["compiled", target, "transpiled", "B.json"]

def fileFor (target : String) : FilePath := ⟨1, "app" :: placeIn target⟩

def compile (disk : Disk) (target : String) : Disk :=
  Disk.put (.file (Utf8.encode "\x7b\"className\":\"a.B\"\x7d".toList)) (placeIn target) disk

def compiledFor (targets : List String) : Project :=
  fresh ⟨1, ["app"]⟩ .default .script (targets.foldl compile .empty)

def twins : Project := compiledFor ["source", "build"]

def removeTwin : Round := ⟨(compiledFor ["source"]).disk, [fileFor "build"]⟩

theorem regular_compile {disk : Disk} (hd : disk.Regular) {target : String}
    (ht : Disk.IsName target) : (compile disk target).Regular := by
  refine Disk.Regular.put (.file _) hd ?_
  have hrest : ∀ s ∈ ["compiled", "transpiled", "B.json"], Disk.IsName s := by decide +kernel
  simp_all [placeIn]

theorem regular_compiledFor {targets : List String} (h : ∀ target ∈ targets, Disk.IsName target) :
    (compiledFor targets).disk.Regular := by
  refine List.foldlRecOn targets compile Disk.regular_empty ?_
  intro disk hd target ht
  exact regular_compile hd (h target ht)

theorem legible_compiledFor {targets : List String} (h : ∀ target ∈ targets, Disk.IsName target)
    (selected : (compiledFor targets).disk.select
      (FilePath.ofText (compiledFor targets).settings.metadata.compiledGlob).parts []
      (compiledFor targets).disk = targets.map placeIn)
    (named : ∀ target ∈ targets, (compiledFor targets).nameAt? (fileFor target) = some "a.B") :
    (compiledFor targets).Legible ∧
      ∀ path, (compiledFor targets).describes? path =
        if path ∈ targets.map fileFor then some "a.B" else none := by
  have hsound : (FilePath.ofText Settings.default.metadata.compiledGlob).parts.any Disk.isBadSegment =
    false := by decide +kernel
  have hnames : ∀ parts ∈ targets.map placeIn, ∃ name,
      (compiledFor targets).nameAt? ((compiledFor targets).root.join ⟨0, parts⟩) = some name ∧
        (Text.segments? name).isSome = true := by
    intro parts hp
    obtain ⟨target, ht, rfl⟩ := List.mem_map.mp hp
    exact ⟨"a.B", named target ht, by decide +kernel⟩
  obtain ⟨hl, hf⟩ := legible_of_select (regular_compiledFor h) hsound selected hnames
  refine ⟨hl, fun path => ?_⟩
  have hiff : path ∈ (compiledFor targets).recordFiles ↔ path ∈ targets.map fileFor := by
    rw [hf]
    simp [fileFor, compiledFor, fresh, eq_comm]
  rw [describes?, if_congr hiff rfl rfl]
  split
  · rename_i hm
    obtain ⟨target, ht, rfl⟩ := List.mem_map.mp hm
    exact named target ht
  · rfl

theorem legible_twins : twins.Legible ∧
    ∀ path, twins.describes? path =
      if path ∈ [fileFor "source", fileFor "build"] then some "a.B" else none := by
  refine legible_compiledFor (by decide +kernel) (by decide +kernel) ?_
  simp only [nameAt?, readRecord, String.contains_char_eq]
  decide +kernel

theorem legible_single : (compiledFor ["source"]).Legible ∧
    ∀ path, (compiledFor ["source"]).describes? path =
      if path ∈ [fileFor "source"] then some "a.B" else none := by
  refine legible_compiledFor (by decide +kernel) (by decide +kernel) ?_
  simp only [nameAt?, readRecord, String.contains_char_eq]
  decide +kernel

theorem lawful_removeTwin : twins.Lawful [removeTwin] := by
  obtain ⟨htwins, hold⟩ := legible_twins
  obtain ⟨hsingle, hnew⟩ := legible_single
  refine ⟨htwins, ⟨by simp [removeTwin], ?_, ?_⟩, hsingle⟩
  · intro path hm
    have he : path = fileFor "build" := by simpa [removeTwin] using hm
    have hd : twins.describes? path = some "a.B" := by simp [hold, he]
    exact Or.inl (mem_recordFiles_of_describes? hd)
  · intro path hne
    have hnow : (twins.on removeTwin.disk).describes? path =
      (compiledFor ["source"]).describes? path := rfl
    rw [hnow, hold, hnew] at hne
    by_contra hm
    have hp : path ≠ fileFor "build" := by simpa [removeTwin] using hm
    simp [hp] at hne

theorem removeTwin_staysInLine_iff : twins.Lawful [removeTwin] ∧
    ∃ count p, twins.populate = (.ok count, p) ∧
      (catchUpAll [removeTwin] p).1 = .ok () ∧
      (StaysInLine [removeTwin] p ↔ twins.Careful
        twins.describes? [removeTwin]) :=
  ⟨lawful_removeTwin, staysInLine_iff_careful _ _ _ _ _ lawful_removeTwin⟩

/-- The class is lost although a file describes it. -/
theorem removeTwin_not_inLine : twins.Lawful [removeTwin] ∧
    ¬ StaysInLine [removeTwin] twins.populate.2 := by
  refine ⟨lawful_removeTwin, ?_⟩
  have hold := legible_twins.2
  have hnew : ∀ path, (twins.on removeTwin.disk).describes? path =
    if path ∈ [fileFor "source"] then some "a.B" else none := legible_single.2
  obtain ⟨count, p, hp, hh⟩ : ∃ count p, twins.populate = (.ok count, p) ∧
      Holds twins p twins.Described twins.describes? := legible_twins.1.populate
  intro hstay
  have hp' : twins.populate.2 = p := congrArg Prod.snd hp
  rw [hp', hh.staysInLine_iff lawful_removeTwin] at hstay
  have hmatch : twins.isRecordFile (fileFor "build") = true := by cbv
  have hbatch : twins.batch removeTwin = [] ++ fileFor "build" :: [] := by
    simp [batch, removeTwin, hmatch]
  have hgone : (twins.on removeTwin.disk).occupied (fileFor "build") =
    false := by decide +kernel
  have hother : fileFor "build" ≠ fileFor "source" := by decide
  have hdrop : (twins.on removeTwin.disk).Drops twins.describes? (fileFor "build") "a.B" :=
    ⟨by simp [hold], by simp [noteOn, hnew, hgone, hother]⟩
  have hstill : (twins.on removeTwin.disk).Described "a.B" := ⟨fileFor "source", by simp [hnew]⟩
  obtain ⟨q, hq, -⟩ := hstay.1.keeps "a.B" [] (fileFor "build") [] hbatch hdrop hstill
  simp at hq

end Project
end ScriptSense
