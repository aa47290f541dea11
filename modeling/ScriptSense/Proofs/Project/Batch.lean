import ScriptSense.Proofs.Project.Records

/-! A batch of changed files. Each file drops the class it was known to describe and brings the class
it describes now; what stands after the batch is told by the order of the drops and the additions. -/
namespace ScriptSense
namespace Project

def occupied (p : Project) (path : FilePath) : Bool :=
  match p.find path with
  | .ok found => found.isSome
  | .error _ => false

/-- What is remembered of a changed file. A folder that takes the place of a file goes unnoticed. -/
def noteOn (p : Project) (seen : FilePath → Option String) (path : FilePath) : Option String :=
  match p.describes? path with
  | some name => some name
  | none => if p.occupied path then seen path else none

/-- A changed file drops the class it was known to describe, unless that is what is still remembered
of it. -/
def Drops (p : Project) (seen : FilePath → Option String) (path : FilePath) (name : String) : Prop :=
  seen path = some name ∧ p.noteOn seen path ≠ some name

theorem noteOn_congr (p : Project) {seen seen' : FilePath → Option String} {path : FilePath}
    (h : seen path = seen' path) : p.noteOn seen path = p.noteOn seen' path := by
  rw [noteOn, noteOn, h]

theorem drops_congr (p : Project) {seen seen' : FilePath → Option String} {path : FilePath}
    (h : seen path = seen' path) (name : String) :
    p.Drops seen path name ↔ p.Drops seen' path name := by
  rw [Drops, Drops, noteOn_congr p h, h]

/-- What can have become of a file. -/
inductive Fate (p : Project) (path : FilePath) : Prop
  | gone (find : p.find path = .ok none) (nothing : p.describes? path = none)
  | covered (there : Disk) (find : p.find path = .ok (some there))
      (read : ∃ fault, p.readRecord path = .ok (.error fault)) (nothing : p.describes? path = none)
  | present (there : Disk) (r : ClassRecord) (find : p.find path = .ok (some there))
      (read : p.readRecord path = .ok (.ok r)) (name : (Text.segments? r.name).isSome = true)
      (described : p.describes? path = some r.name)

theorem place?_of_mem_recordFiles {p : Project} {path : FilePath} (h : path ∈ p.recordFiles) :
    ∃ parts bytes, p.place? path = some parts ∧ p.disk.find? parts = some (.file bytes) := by
  obtain ⟨-, parts, bytes, rfl, -, hf⟩ := mem_recordFiles.mp h
  exact ⟨parts, bytes, place?_below p parts, hf⟩

theorem describes?_eq_none {p : Project} {path : FilePath} {parts : List String}
    (hp : p.place? path = some parts) (hf : ∀ bytes, p.disk.find? parts ≠ some (.file bytes)) :
    p.describes? path = none := by
  rw [describes?, if_neg]
  intro hm
  obtain ⟨parts', bytes, hp', hf'⟩ := place?_of_mem_recordFiles hm
  have he : parts' = parts := Option.some.inj (hp'.symm.trans hp)
  exact hf bytes (he ▸ hf')

theorem Legible.present {p : Project} (h : p.Legible) {path : FilePath} (hm : path ∈ p.recordFiles) :
    p.Fate path := by
  obtain ⟨parts, bytes, hp, hf⟩ := place?_of_mem_recordFiles hm
  obtain ⟨r, hr, hn, hd⟩ := h.describes? hm
  refine .present (.file bytes) r ?_ hr hn hd
  rw [find, hp]
  simp only [Disk.lookup_of_find? hf p.disk, hf]

/-- A record file of one disk is there on another disk, or it is gone, or a folder covers it. -/
theorem Legible.fate {p : Project} {disk : Disk} (ho : p.Legible) (hn : (p.on disk).Legible)
    {path : FilePath} (h : path ∈ p.recordFiles ∨ path ∈ (p.on disk).recordFiles) :
    (p.on disk).Below path ∧ (p.on disk).Fate path := by
  rcases h with h | h
  · refine ⟨ho.below h, ?_⟩
    obtain ⟨hfound, parts, bytes, rfl, hs, hf⟩ := mem_recordFiles.mp h
    have hp : (p.on disk).place? (p.root.join ⟨0, parts⟩) = some parts := place?_below p parts
    have hfind : (p.on disk).find (p.root.join ⟨0, parts⟩) = .ok (disk.find? parts) := by
      rw [find, hp]
      simp only [on, Disk.lookup_of_find? hf disk]
    cases hd : disk.find? parts with
    | none =>
      refine .gone (hd ▸ hfind) (describes?_eq_none hp ?_)
      intro bytes
      simp [on, hd]
    | some there =>
      cases there with
      | folder es =>
        obtain ⟨r, hr, -⟩ := ho.records _ h
        have hread : disk.read parts = .error .isFolder := by
          rw [Disk.read, Disk.find?_eq_some.mp hd]
        refine .covered (.folder es) (hd ▸ hfind) ?_ (describes?_eq_none hp ?_)
        · rw [readRecord, nullByte_of_readRecord hr, hp]
          simp only [on, hread]
          exact ⟨_, rfl⟩
        · intro bytes
          simp [on, hd]
      | file bytes' =>
        -- the pattern selects the path on the new disk because it did so on the old one
        refine hn.present (mem_recordFiles.mpr ⟨hn.found, parts, bytes', rfl, ?_, hd⟩)
        exact ho.regular.mem_select_transfer hn.regular hf hd rfl rfl hs
  · exact ⟨hn.below h, hn.present h⟩

theorem Holds.removeAny {base p : Project} {classes : String → Prop}
    {seen : FilePath → Option String} (h : Holds base p classes seen) (previous : Option String) :
    Holds base ((previous.map p.remove).getD p)
      (fun name => classes name ∧ previous ≠ some name) seen := by
  cases previous with
  | none => exact h.congr (by simp) fun _ _ => rfl
  | some former =>
    refine (h.remove former).congr ?_ fun _ _ => rfl
    intro name
    simp only [ne_eq, Option.some.injEq, and_comm, eq_comm]

/-- One changed file: its former class goes, unless it is still remembered, and the class that it
describes comes. -/
theorem Holds.applyChange {base p : Project} {classes : String → Prop}
    {seen : FilePath → Option String} (h : Holds base p classes seen) {path : FilePath}
    (hb : base.Below path) (hf : base.Fate path) (hm : base.isRecordFile path = true) :
    ∃ later, p.applyChange path = (.ok (), later) ∧
      Holds base later
        (fun name => base.describes? path = some name ∨ classes name ∧ ¬ base.Drops seen path name)
        (Function.update seen path (base.noteOn seen path)) := by
  have hprev : p.classForPath? path = seen path := h.remembers path hb
  have hrec : (!p.isRecordFile path) = false := by rw [← h.site.isRecordFile, hm]; rfl
  rw [Project.applyChange, hrec, if_neg Bool.false_ne_true, hprev, ← h.site.find]
  cases hf with
  | gone find nothing =>
    have hnote : base.noteOn seen path = none := by simp [noteOn, nothing, occupied, find]
    simp only [find]
    refine ⟨_, rfl, ((h.forget hb).removeAny (seen path)).congr ?_ ?_⟩
    · intro name
      simp [nothing, Drops, hnote]
    · intro q _
      rw [hnote]
  | covered there find read nothing =>
    obtain ⟨fault, read⟩ := read
    have hnote : base.noteOn seen path = seen path := by simp [noteOn, nothing, occupied, find]
    have hload : p.load path = .ok (none, p.note [loadFailed fault]) := by
      rw [Project.load, ← h.site.readRecord, read]
      rfl
    simp only [find, hload]
    refine ⟨_, rfl, (h.note _).congr ?_ ?_⟩
    · intro name
      simp [nothing, Drops, hnote]
    · intro q _
      rw [hnote, Function.update_eq_self]
  | present there r find read name described =>
    have hnote : base.noteOn seen path = some r.name := by simp [noteOn, described]
    obtain ⟨p₁, hload, h₁⟩ := h.load hb read
    obtain ⟨later, hingest, h₂⟩ := (h₁.removeAny ((seen path).filter (· != r.name))).ingest name
    simp only [find, hload, hingest]
    refine ⟨_, rfl, h₂.congr ?_ ?_⟩
    · intro other
      rw [described, Drops, hnote, ne_eq, Option.filter_eq_some_iff, bne_iff_ne, ne_eq, ne_eq,
        Option.some.injEq, eq_comm (a := other)]
    · intro q _
      rw [hnote]

/-! A batch of changed files. -/

/-- Whether something that the files of a batch add and drop, one after the other, is there in the
end. -/
def Standing (adds drops : FilePath → Prop) : List FilePath → Prop → Prop
  | [], held => held
  | path :: rest, held => Standing adds drops rest (adds path ∨ held ∧ ¬ drops path)

/-- What is there in the end was added and not dropped later, or was there before and not dropped at
all. -/
theorem standing_iff (adds drops : FilePath → Prop) (batch : List FilePath) (held : Prop) :
    Standing adds drops batch held ↔
      (∃ earlier path later, batch = earlier ++ path :: later ∧ adds path ∧
        ∀ q ∈ later, ¬ drops q) ∨ held ∧ ∀ q ∈ batch, ¬ drops q := by
  induction batch generalizing held with
  | nil => simp [Standing]
  | cons path rest ih =>
    rw [Standing, ih]
    constructor
    · rintro (⟨earlier, q, later, rfl, ha, hd⟩ | ⟨ha | ⟨hh, hp⟩, hd⟩)
      · exact Or.inl ⟨path :: earlier, q, later, rfl, ha, hd⟩
      · exact Or.inl ⟨[], path, rest, rfl, ha, hd⟩
      · exact Or.inr ⟨hh, by simpa using ⟨hp, hd⟩⟩
    · rintro (⟨earlier, q, later, he, ha, hd⟩ | ⟨hh, hd⟩)
      · cases earlier with
        | nil =>
          obtain ⟨rfl, rfl⟩ := List.cons.inj he
          exact Or.inr ⟨Or.inl ha, hd⟩
        | cons first earlier => exact Or.inl ⟨earlier, q, later, (List.cons.inj he).2, ha, hd⟩
      · have hd' : ¬ drops path ∧ ∀ q ∈ rest, ¬ drops q := by simpa using hd
        exact Or.inr ⟨Or.inr ⟨hh, hd'.1⟩, hd'.2⟩

theorem standing_congr {adds drops drops' : FilePath → Prop} {batch : List FilePath}
    (h : ∀ path ∈ batch, drops path ↔ drops' path) (held : Prop) :
    Standing adds drops batch held ↔ Standing adds drops' batch held := by
  induction batch generalizing held with
  | nil => rfl
  | cons path rest ih =>
    rw [Standing, Standing, h path (by simp), ih fun q hq => h q (by simp [hq])]

/-- A batch of changed files, each named once. Since every file is told about once, what it drops
depends only on what was remembered before the batch. -/
theorem Holds.applyChanges {base p : Project} {classes : String → Prop}
    {seen : FilePath → Option String} (h : Holds base p classes seen) {changed : List FilePath}
    (distinct : changed.Nodup) (hf : ∀ path ∈ changed, base.Below path ∧ base.Fate path) :
    ∃ later, Project.applyChanges changed p = (.ok (), later) ∧
      Holds base later
        (fun name => Standing (fun path => base.describes? path = some name)
          (fun path => base.Drops seen path name) (changed.filter base.isRecordFile) (classes name))
        (fun path => if path ∈ changed.filter base.isRecordFile then base.noteOn seen path
          else seen path) := by
  induction changed generalizing p classes seen with
  | nil => exact ⟨p, rfl, h.congr (fun _ => Iff.rfl) (by simp)⟩
  | cons path rest ih =>
    obtain ⟨hpath, distinct⟩ := List.nodup_cons.mp distinct
    obtain ⟨hb, hfate⟩ := hf path (by simp)
    have hrest : ∀ q ∈ rest, base.Below q ∧ base.Fate q := fun q hq => hf q (by simp [hq])
    by_cases hm : base.isRecordFile path = true
    · obtain ⟨p₁, happly, h₁⟩ := h.applyChange hb hfate hm
      obtain ⟨later, hlater, h₂⟩ := ih h₁ distinct hrest
      refine ⟨later, by rw [Project.applyChanges, happly]; exact hlater, h₂.congr ?_ ?_⟩
      · intro name
        rw [List.filter_cons_of_pos hm, Standing]
        refine standing_congr ?_ _
        intro q hq
        have hne : q ≠ path := fun he => hpath (he ▸ (List.mem_filter.mp hq).1)
        exact drops_congr base (Function.update_of_ne hne _ _) name
      · intro q _
        rw [List.filter_cons_of_pos hm]
        by_cases hq : q = path
        · subst hq
          have hn : q ∉ rest.filter base.isRecordFile := fun hr => hpath (List.mem_filter.mp hr).1
          simp [hn]
        · have hs := Function.update_of_ne hq (base.noteOn seen path) seen
          simp only [List.mem_cons, hq, false_or, noteOn_congr base hs, hs]
    · have happly : p.applyChange path = (.ok (), p) := by
        rw [Project.applyChange, ← h.site.isRecordFile]
        simp [hm]
      obtain ⟨later, hlater, h₂⟩ := ih h distinct hrest
      refine ⟨later, by rw [Project.applyChanges, happly]; exact hlater, ?_⟩
      rw [List.filter_cons_of_neg hm]
      exact h₂

end Project
end ScriptSense
