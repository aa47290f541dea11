import ScriptSense.Proofs.Project.Effects

/-! The order in which changed files are reported. Two files that bring and take away different
classes can be taken up in either order; if one takes away a class that the other brings, the class
is there afterwards or not, depending on which of them is taken up last. Main statement: a batch of
changes leaves the same database in every order exactly if no class moves from one file of the batch
to another. -/
namespace ScriptSense
namespace Project

/-! What findings make of the records, one after the other. -/

def Finding.revise (former : Option String) (f : Finding) (records : String → Option ClassRecord)
    (name : String) : Option ClassRecord :=
  (f.brings? name).or (if f.sheds former name then none else records name)

/-- The records after files were taken up in some order. -/
def reviseAll (found : FilePath → Finding) (known : FilePath → Option String)
    (order : List FilePath) (records : String → Option ClassRecord) :
    String → Option ClassRecord :=
  order.foldl (fun records path => (found path).revise (known path) records) records

/-- Two findings can change places if neither brings a class that the other brings or takes away. -/
theorem Finding.revise_comm {f g : Finding} {former former' : Option String}
    (hf : ∀ name r, f.brings? name = some r → g.brings? name = none ∧ g.sheds former' name = false)
    (hg : ∀ name r, g.brings? name = some r → f.brings? name = none ∧ f.sheds former name = false)
    (records : String → Option ClassRecord) :
    g.revise former' (f.revise former records) = f.revise former (g.revise former' records) := by
  funext name
  simp only [Finding.revise]
  cases hb : f.brings? name with
  | some r =>
    obtain ⟨hnone, hkeep⟩ := hf name r hb
    simp [hnone, hkeep]
  | none =>
    cases hb' : g.brings? name with
    | some r =>
      obtain ⟨-, hkeep⟩ := hg name r hb'
      simp [hkeep]
    | none =>
      simp only [Option.none_or]
      cases f.sheds former name <;> cases g.sheds former' name <;> rfl

theorem reviseAll_perm {found : FilePath → Finding} {known : FilePath → Option String}
    {order order' : List FilePath} (perm : order.Perm order')
    (apart : ∀ path ∈ order, ∀ q ∈ order, path ≠ q → ∀ name r, (found path).brings? name = some r →
      (found q).brings? name = none ∧ (found q).sheds (known q) name = false)
    (records : String → Option ClassRecord) :
    reviseAll found known order records = reviseAll found known order' records := by
  refine perm.foldl_eq' ?_ records
  intro path hpath q hq records
  by_cases hne : path = q
  · rw [hne]
  · exact Finding.revise_comm (apart path hpath q hq hne) (apart q hq path hpath (Ne.symm hne))
      records

/-- Files with different texts do not touch what is known of each other, so that a run is told by what
was known when it began. -/
theorem Ran.revises {found : FilePath → Finding} {order : List FilePath} {before after : Holdings}
    {failure : Option Failure} (run : Ran found Holdings.known order before failure after)
    {known : FilePath → Option String} (texts : (order.map FilePath.toText).Nodup)
    (hk : ∀ path ∈ order, before.known path = known path)
    (hf : ∀ path ∈ order, (found path).failure? = none ∧ (found path).Proper)
    (placed : before.names.Placed) :
    failure = none ∧ after.names.Placed ∧
      after.names.record? = reviseAll found known order before.names.record? := by
  induction run with
  | done => exact ⟨rfl, placed, rfl⟩
  | @stop path rest h e he =>
    have hnone := (hf path (by simp)).1
    rw [he] at hnone
    cases hnone
  | @next path rest h after failure hnone _ ih =>
    obtain ⟨htext, texts⟩ := List.nodup_cons.mp texts
    have hproper : (found path).Proper := (hf path (by simp)).2
    have hsettle : (found path).settle path (h.known path) h =
        (found path).take path (known path) h := by
      rw [Finding.take, hnone, hk path (by simp)]
    have hrecords : ((found path).settle path (h.known path) h).names.record? =
        (found path).revise (known path) h.names.record? := by
      funext name
      rw [hsettle]
      exact Finding.record?_take hproper path (known path) h name
    have hknown : ∀ q ∈ rest, ((found path).settle path (h.known path) h).known q = known q := by
      intro q hq
      have hne : q.toText ≠ path.toText := fun he => htext (he ▸ List.mem_map_of_mem hq)
      rw [hsettle, Finding.known_take, if_neg hne]
      exact hk q (List.mem_cons_of_mem _ hq)
    have hplaced : ((found path).settle path (h.known path) h).names.Placed := by
      rw [hsettle]
      exact Finding.placed_take hproper path (known path) placed
    obtain ⟨hok, hplaced', hafter⟩ :=
      ih texts hknown (fun q hq => hf q (List.mem_cons_of_mem _ hq)) hplaced
    refine ⟨hok, hplaced', ?_⟩
    rw [hafter, hrecords]
    rfl

/-! Findings on a disk in order. -/

/-- What has become of a file, told by the class that it describes and by the one that it drops. -/
theorem Fate.changeAt {p : Project} {path : FilePath} (h : p.Fate path)
    (hm : p.isRecordFile path = true) (seen : FilePath → Option String) (name : String) :
    (p.changeAt path).failure? = none ∧
      ((∃ r, (p.changeAt path).brings? name = some r) ↔ p.describes? path = some name) ∧
      ((p.changeAt path).sheds (seen path) name = true ↔ p.Drops seen path name) := by
  rw [Project.changeAt, hm, Drops]
  cases h with
  | gone find nothing =>
    simp [find, nothing, noteOn, occupied, Finding.failure?, Finding.brings?, Finding.sheds]
  | covered there find read nothing =>
    obtain ⟨fault, read⟩ := read
    simp [find, nothing, noteOn, occupied, contentAt, read, Finding.failure?, Finding.brings?,
      Finding.sheds]
  | present there r find read hname described =>
    simp [find, described, noteOn, contentAt, read, hname, Finding.failure?, Finding.brings?,
      Finding.sheds]

theorem changeAt_of_not_isRecordFile {p : Project} {path : FilePath}
    (hm : p.isRecordFile path = false) : p.changeAt path = .foreign := by
  rw [changeAt, hm]
  rfl

/-- No two record files describe the same class. -/
def DescribedOnce (p : Project) : Prop :=
  ∀ path q name, p.describes? path = some name → p.describes? q = some name → path = q

/-- In a round, one file drops a class that another file describes now. -/
def Moves (p : Project) (seen : FilePath → Option String) (r : Round) (name : String) : Prop :=
  ∃ path ∈ p.batch r, ∃ q ∈ p.batch r,
    (p.on r.disk).Drops seen path name ∧ (p.on r.disk).describes? q = some name

structure SameClasses (p q : Project) : Prop where
  classNames : p.classNames = q.classNames
  records : ∀ name, p.database.names.record? name = q.database.names.record? name

theorem Holds.self {base p : Project} {classes : String → Prop} {seen : FilePath → Option String}
    (h : Holds base p classes seen) : Holds p p classes seen :=
  ⟨.refl p, h.tracks, fun path hb => h.remembers path (h.site.below.mpr hb)⟩

section Round

variable {p : Project} {r : Round} {seen : FilePath → Option String}

theorem mem_batch_iff {path : FilePath} (hm : path ∈ r.changed) :
    path ∈ p.batch r ↔ (p.on r.disk).isRecordFile path = true := by
  rw [batch, List.mem_filter]
  exact and_iff_right hm

theorem Reported.changeAt (old : p.Legible) (new : (p.on r.disk).Legible) (hr : p.Reported r)
    {path : FilePath} (hm : path ∈ r.changed) (seen : FilePath → Option String) (name : String) :
    ((p.on r.disk).changeAt path).failure? = none ∧
      ((∃ record, ((p.on r.disk).changeAt path).brings? name = some record) ↔
        path ∈ p.batch r ∧ (p.on r.disk).describes? path = some name) ∧
      (((p.on r.disk).changeAt path).sheds (seen path) name = true ↔
        path ∈ p.batch r ∧ (p.on r.disk).Drops seen path name) := by
  obtain ⟨-, hfate⟩ := old.fate new (hr.known path hm)
  rw [mem_batch_iff hm]
  cases hrecord : (p.on r.disk).isRecordFile path with
  | true => simpa using hfate.changeAt hrecord seen name
  | false =>
    rw [changeAt_of_not_isRecordFile hrecord]
    simp [Finding.failure?, Finding.brings?, Finding.sheds]

/-- A report that is taken up in some order is taken up to the end, and leaves the records that its
findings leave in that order. -/
theorem Reported.applyChanges {classes : String → Prop} (hp : Holds p p classes seen)
    (old : p.Legible) (new : (p.on r.disk).Legible) (hr : p.Reported r) {order : List FilePath}
    (perm : order.Perm r.changed) :
    ∃ q, Project.applyChanges order (p.on r.disk) = (.ok (), q) ∧ q.database.names.Placed ∧
      q.database.names.record? =
        reviseAll (p.on r.disk).changeAt seen order p.database.names.record? := by
  have hbelow : ∀ path ∈ order, p.Below path := by
    intro path hm
    exact (old.fate new (hr.known path (perm.mem_iff.mp hm))).1
  have texts : (order.map FilePath.toText).Nodup := by
    refine List.Nodup.map_on ?_ (perm.nodup_iff.mpr hr.distinct)
    intro a ha b hb he
    exact (toText_inj (hbelow a ha) (hbelow b hb)).mp he
  have placed : p.database.names.Placed := by
    obtain ⟨m, hm, -⟩ := hp.tracks
    exact hm.placed
  obtain ⟨hok, hplaced, hrecords⟩ :=
    (ran_applyChanges (.refl (p.on r.disk)) order).revises texts
      (fun path hm => hp.remembers path (hbelow path hm))
      (fun path hm => ⟨(hr.changeAt old new (perm.mem_iff.mp hm) seen "").1,
        (p.on r.disk).proper_changeAt path⟩) placed
  cases hrun : Project.applyChanges order (p.on r.disk) with
  | mk outcome q =>
    rw [hrun] at hok hplaced hrecords
    cases outcome with
    | error e => cases hok
    | ok u => exact ⟨q, rfl, hplaced, hrecords⟩

/-- If no class moves, neither of two files of a batch brings a class that the other brings or takes
away. -/
theorem Reported.apart (old : p.Legible) (new : (p.on r.disk).Legible) (hr : p.Reported r)
    (once : (p.on r.disk).DescribedOnce) (still : ∀ name, ¬ p.Moves seen r name)
    {path q : FilePath} (hpath : path ∈ r.changed) (hq : q ∈ r.changed) (hne : path ≠ q)
    {name : String} {record : ClassRecord}
    (hb : ((p.on r.disk).changeAt path).brings? name = some record) :
    ((p.on r.disk).changeAt q).brings? name = none ∧
      ((p.on r.disk).changeAt q).sheds (seen q) name = false := by
  obtain ⟨-, hbrings, -⟩ := hr.changeAt old new hpath seen name
  obtain ⟨-, hbrings', hsheds⟩ := hr.changeAt old new hq seen name
  obtain ⟨hin, hname⟩ := hbrings.mp ⟨record, hb⟩
  constructor
  · cases hother : ((p.on r.disk).changeAt q).brings? name with
    | none => rfl
    | some other => exact absurd (once path q name hname (hbrings'.mp ⟨other, hother⟩).2) hne
  · rw [← Bool.not_eq_true, hsheds]
    rintro ⟨hin', hdrop⟩
    exact still name ⟨q, hin', path, hin, hdrop, hname⟩

theorem reviseAll_concat (found : FilePath → Finding) (known : FilePath → Option String)
    (order : List FilePath) (path : FilePath) (records : String → Option ClassRecord) :
    reviseAll found known (order ++ [path]) records =
      (found path).revise (known path) (reviseAll found known order records) := by
  rw [reviseAll, List.foldl_append]
  rfl

theorem Reported.lost {classes : String → Prop} (hp : Holds p p classes seen) (old : p.Legible)
    (new : (p.on r.disk).Legible) (hr : p.Reported r) {order : List FilePath} {path : FilePath}
    (perm : (order ++ [path]).Perm r.changed) (hm : path ∈ p.batch r) {name : String}
    (hdrop : (p.on r.disk).Drops seen path name) :
    name ∉ (Project.applyChanges (order ++ [path]) (p.on r.disk)).2.classNames := by
  have hchanged : path ∈ r.changed := (List.mem_filter.mp hm).1
  obtain ⟨-, hbrings, hsheds⟩ := hr.changeAt old new hchanged seen name
  have hnone : ((p.on r.disk).changeAt path).brings? name = none := by
    cases hb : ((p.on r.disk).changeAt path).brings? name with
    | none => rfl
    | some record =>
      have hdescribes : (p.on r.disk).describes? path = some name := (hbrings.mp ⟨record, hb⟩).2
      exact absurd (by simp [noteOn, hdescribes]) hdrop.2
  obtain ⟨q, hq, hplaced, hrecords⟩ := hr.applyChanges hp old new perm
  have hgone : q.database.names.record? name = none := by
    rw [hrecords, reviseAll_concat, Finding.revise, hnone, hsheds.mpr ⟨hm, hdrop⟩]
    rfl
  rw [hq]
  intro hname
  have hclass : q.database.names.isClass name = true := hplaced.mem_classNames.mp hname
  rw [Namespace.isClass, hgone] at hclass
  cases hclass

theorem Reported.kept {classes : String → Prop} (hp : Holds p p classes seen) (old : p.Legible)
    (new : (p.on r.disk).Legible) (hr : p.Reported r) {order : List FilePath} {path : FilePath}
    (perm : (order ++ [path]).Perm r.changed) (hm : path ∈ p.batch r) {name : String}
    (hname : (p.on r.disk).describes? path = some name) :
    name ∈ (Project.applyChanges (order ++ [path]) (p.on r.disk)).2.classNames := by
  have hchanged : path ∈ r.changed := (List.mem_filter.mp hm).1
  obtain ⟨-, hbrings, -⟩ := hr.changeAt old new hchanged seen name
  obtain ⟨record, hrecord⟩ := hbrings.mpr ⟨hm, hname⟩
  obtain ⟨q, hq, hplaced, hrecords⟩ := hr.applyChanges hp old new perm
  have hthere : q.database.names.record? name = some record := by
    rw [hrecords, reviseAll_concat, Finding.revise, hrecord]
    rfl
  have hclass : q.database.names.isClass name = true := by
    rw [Namespace.isClass, hthere]
    rfl
  rw [hq]
  exact hplaced.mem_classNames.mpr hclass

theorem perm_last {order : List FilePath} {path : FilePath} (h : path ∈ order) :
    (order.erase path ++ [path]).Perm order :=
  (List.perm_append_singleton path _).trans (List.perm_cons_erase h).symm

end Round

/-- A change as it should be: the project is in line with its disk and remembers what its record files
describe, the disk is in order before and after, the changed files are reported, and no class is
described by two files. -/
structure WellKept (p : Project) (r : Round) : Prop where
  line : Holds p p p.Described p.describes?
  old : p.Legible
  new : (p.on r.disk).Legible
  reported : p.Reported r
  onceBefore : p.DescribedOnce
  onceAfter : (p.on r.disk).DescribedOnce

/-- A report of changes is taken up without fail in every order. All orders leave the same classes
with the same records exactly if no class moves from one file of the batch to another. -/
theorem same_in_every_order_iff (p : Project) (r : Round) (h : p.WellKept r) :
    (∀ order, order.Perm r.changed → (applyChanges order (p.on r.disk)).1 = .ok ()) ∧
    ((∀ order, order.Perm r.changed → SameClasses (applyChanges order (p.on r.disk)).2
        (applyChanges r.changed (p.on r.disk)).2) ↔
      ∀ name, ¬ p.Moves p.describes? r name) := by
  have hrun := fun (order : List FilePath) (perm : order.Perm r.changed) =>
    h.reported.applyChanges h.line h.old h.new perm
  refine ⟨?_, ?_, ?_⟩
  · intro order perm
    obtain ⟨q, hq, -⟩ := hrun order perm
    rw [hq]
  · -- the file that drops a moving class and the one that brings it are each taken up last
    rintro same name ⟨path, hpath, q, hq, hdrop, hname⟩
    have hlast := perm_last (List.mem_filter.mp hpath).1
    have hlast' := perm_last (List.mem_filter.mp hq).1
    have hlost := h.reported.lost h.line h.old h.new hlast hpath hdrop
    have hkept := h.reported.kept h.line h.old h.new hlast' hq hname
    rw [(same _ hlast).classNames] at hlost
    rw [(same _ hlast').classNames] at hkept
    exact hlost hkept
  · intro still order perm
    obtain ⟨left, hleft, hplaced, hrecords⟩ := hrun order perm
    obtain ⟨right, hright, hplaced', hrecords'⟩ := hrun r.changed (List.Perm.refl _)
    have hsame : left.database.names.record? = right.database.names.record? := by
      rw [hrecords, hrecords']
      refine reviseAll_perm perm ?_ _
      intro path hpath q hq hne name record hb
      exact h.reported.apart h.old h.new h.onceAfter still (perm.mem_iff.mp hpath)
        (perm.mem_iff.mp hq) hne hb
    rw [hleft, hright]
    exact ⟨hplaced.classNames_congr hplaced' (congrFun hsame), congrFun hsame⟩

/-! Two files, each with the record of a class. The class of the second moves to the first, and the
second gets a new class. -/

def placeOf (file : String) : List String := ["compiled", "source", "transpiled", file]

def pathOf (file : String) : FilePath := ⟨1, "app" :: placeOf file⟩

def describe (disk : Disk) (file name : String) : Disk :=
  Disk.put (.file (Utf8.encode ("\x7b\"className\":\"" ++ name ++ "\"\x7d").toList)) (placeOf file)
    disk

def twoFiles (first second : String) : Project :=
  fresh ⟨1, ["app"]⟩ .default .script
    (describe (describe .empty "A.json" first) "B.json" second)

theorem regular_describe {disk : Disk} (hd : disk.Regular) {file : String} (hf : Disk.IsName file)
    (name : String) : (describe disk file name).Regular := by
  refine Disk.Regular.put (.file _) hd ?_
  have hrest : ∀ s ∈ ["compiled", "source", "transpiled"], Disk.IsName s := by decide +kernel
  simp_all [placeOf]

theorem legible_twoFiles {first second : String}
    (selected : (twoFiles first second).disk.select
      (FilePath.ofText (twoFiles first second).settings.metadata.compiledGlob).parts []
      (twoFiles first second).disk = [placeOf "A.json", placeOf "B.json"])
    (hfirst : (twoFiles first second).nameAt? (pathOf "A.json") = some first)
    (hsecond : (twoFiles first second).nameAt? (pathOf "B.json") = some second)
    (names : ∀ name ∈ [first, second], (Text.segments? name).isSome = true) :
    (twoFiles first second).Legible ∧ ∀ path, (twoFiles first second).describes? path =
      if path = pathOf "A.json" then some first
      else if path = pathOf "B.json" then some second else none := by
  have hregular : (twoFiles first second).disk.Regular :=
    regular_describe (regular_describe Disk.regular_empty (by decide +kernel) first)
      (by decide +kernel) second
  have hsound : (FilePath.ofText Settings.default.metadata.compiledGlob).parts.any Disk.isBadSegment =
    false := by decide +kernel
  obtain ⟨hl, hf⟩ := legible_of_select hregular hsound selected (by
    intro parts hp
    rcases List.mem_pair.mp hp with rfl | rfl
    · exact ⟨first, hfirst, names first (by simp)⟩
    · exact ⟨second, hsecond, names second (by simp)⟩)
  refine ⟨hl, fun path => ?_⟩
  have hiff : path ∈ (twoFiles first second).recordFiles ↔
      path = pathOf "A.json" ∨ path = pathOf "B.json" := by
    rw [hf]
    simp [twoFiles, fresh, pathOf]
  rw [describes?]
  split
  · rename_i hm
    rcases hiff.mp hm with rfl | rfl
    · rw [if_pos rfl, hfirst]
    · rw [if_neg (by decide), if_pos rfl, hsecond]
  · rename_i hm
    rw [hiff, not_or] at hm
    rw [if_neg hm.1, if_neg hm.2]

theorem legible_beforeShift : (twoFiles "x.X" "x.Y").Legible ∧
    ∀ path, (twoFiles "x.X" "x.Y").describes? path =
      if path = pathOf "A.json" then some "x.X"
      else if path = pathOf "B.json" then some "x.Y" else none := by
  refine legible_twoFiles (by decide +kernel) ?_ ?_ (by decide +kernel)
  · simp only [nameAt?, readRecord, String.contains_char_eq]
    decide +kernel
  · simp only [nameAt?, readRecord, String.contains_char_eq]
    decide +kernel

theorem legible_afterShift : (twoFiles "x.Y" "x.Z").Legible ∧
    ∀ path, (twoFiles "x.Y" "x.Z").describes? path =
      if path = pathOf "A.json" then some "x.Y"
      else if path = pathOf "B.json" then some "x.Z" else none := by
  refine legible_twoFiles (by decide +kernel) ?_ ?_ (by decide +kernel)
  · simp only [nameAt?, readRecord, String.contains_char_eq]
    decide +kernel
  · simp only [nameAt?, readRecord, String.contains_char_eq]
    decide +kernel

theorem describedOnce_of_pair {p : Project} {first second : FilePath} {a b : String} (hab : a ≠ b)
    (h : ∀ path, p.describes? path =
      if path = first then some a else if path = second then some b else none) :
    p.DescribedOnce := by
  intro path q name hpath hq
  rw [h] at hpath hq
  grind

def unshifted : Project := (twoFiles "x.X" "x.Y").populate.2

def shift : Round := ⟨(twoFiles "x.Y" "x.Z").disk, [pathOf "A.json", pathOf "B.json"]⟩

theorem holds_unshifted : Holds (twoFiles "x.X" "x.Y") unshifted (twoFiles "x.X" "x.Y").Described
    (twoFiles "x.X" "x.Y").describes? := by
  obtain ⟨count, p, hp, hh⟩ : ∃ count p, (twoFiles "x.X" "x.Y").populate = (.ok count, p) ∧
      Holds (twoFiles "x.X" "x.Y") p (twoFiles "x.X" "x.Y").Described
        (twoFiles "x.X" "x.Y").describes? := legible_beforeShift.1.populate
  rw [unshifted, hp]
  exact hh

theorem describes?_unshifted (path : FilePath) : unshifted.describes? path =
    if path = pathOf "A.json" then some "x.X"
    else if path = pathOf "B.json" then some "x.Y" else none := by
  rw [← holds_unshifted.site.describes?]
  exact legible_beforeShift.2 path

theorem describes?_shift (path : FilePath) : (unshifted.on shift.disk).describes? path =
    if path = pathOf "A.json" then some "x.Y"
    else if path = pathOf "B.json" then some "x.Z" else none := by
  rw [← (holds_unshifted.site.on shift.disk).describes?]
  exact legible_afterShift.2 path

theorem wellKept_shift : unshifted.WellKept shift where
  line := holds_unshifted.self.congr holds_unshifted.site.described
    fun path _ => congrFun holds_unshifted.site.describes? path
  old := holds_unshifted.site.legible legible_beforeShift.1
  new := (holds_unshifted.site.on shift.disk).legible legible_afterShift.1
  reported := by
    refine ⟨by decide, ?_, ?_⟩
    · intro path hm
      rcases List.mem_pair.mp hm with rfl | rfl
      · exact Or.inl (mem_recordFiles_of_describes? (describes?_unshifted (pathOf "A.json")))
      · exact Or.inl (mem_recordFiles_of_describes? (describes?_unshifted (pathOf "B.json")))
    · intro path hne
      by_contra hm
      have hother : path ≠ pathOf "A.json" ∧ path ≠ pathOf "B.json" := by
        simpa [shift, not_or] using hm
      rw [describes?_unshifted, describes?_shift] at hne
      simp [hother] at hne
  onceBefore := describedOnce_of_pair (by decide) describes?_unshifted
  onceAfter := describedOnce_of_pair (by decide) describes?_shift

theorem batch_shift : unshifted.batch shift = [pathOf "A.json", pathOf "B.json"] := by
  have hfirst : (twoFiles "x.X" "x.Y").isRecordFile (pathOf "A.json") = true := by cbv
  have hsecond : (twoFiles "x.X" "x.Y").isRecordFile (pathOf "B.json") = true := by cbv
  rw [batch, ← holds_unshifted.site.isRecordFile]
  simp [shift, hfirst, hsecond]

theorem drops_shift :
    (unshifted.on shift.disk).Drops unshifted.describes? (pathOf "B.json") "x.Y" := by
  have hnow : (unshifted.on shift.disk).describes? (pathOf "B.json") = some "x.Z" :=
    describes?_shift (pathOf "B.json")
  refine ⟨describes?_unshifted (pathOf "B.json"), ?_⟩
  simp [noteOn, hnow]

theorem shift_same_in_every_order_iff : unshifted.WellKept shift ∧
    ((∀ order, order.Perm shift.changed →
        SameClasses (applyChanges order (unshifted.on shift.disk)).2
          (applyChanges shift.changed (unshifted.on shift.disk)).2) ↔
      ∀ name, ¬ unshifted.Moves unshifted.describes? shift name) :=
  ⟨wellKept_shift, (same_in_every_order_iff unshifted shift wellKept_shift).2⟩

/-- The class that moves is lost in one order and kept in the other. -/
theorem shift_not_same_in_every_order : unshifted.WellKept shift ∧
    "x.Y" ∉ (applyChanges [pathOf "A.json", pathOf "B.json"]
      (unshifted.on shift.disk)).2.classNames ∧
    "x.Y" ∈ (applyChanges [pathOf "B.json", pathOf "A.json"]
      (unshifted.on shift.disk)).2.classNames := by
  have h := wellKept_shift
  have hperm : ([pathOf "A.json"] ++ [pathOf "B.json"]).Perm shift.changed := List.Perm.refl _
  have hperm' : ([pathOf "B.json"] ++ [pathOf "A.json"]).Perm shift.changed :=
    List.Perm.swap _ _ _
  have hlost := h.reported.lost h.line h.old h.new hperm (by simp [batch_shift]) drops_shift
  have hkept := h.reported.kept h.line h.old h.new hperm' (by simp [batch_shift])
    (describes?_shift (pathOf "A.json"))
  exact ⟨h, hlost, hkept⟩

end Project
end ScriptSense
