import ScriptSense.Feature.Signature
import ScriptSense.Project.Basic
import ScriptSense.Proofs.Disk.Paths
import ScriptSense.Proofs.Feature.Provenance
import ScriptSense.Proofs.Namespace.Cache
import ScriptSense.Proofs.Source.Stepwise

/-! Questions are always answered. Completions, signatures and definitions are worked out here with
everything on the way that could go wrong: the searches of the source are carried out position by
position, the views that are asked for are taken from the database, and the path of the file of a
definition is put together. Main statement: at every place from the beginning of the source on,
beyond its end too, there is an answer, and it is the one that is found without looking out for
faults. -/
namespace ScriptSense

open Stepwise (Fault Round)

namespace Override

/-- Goes from a method to the one that it overrides; the state has the classes visited so far. -/
def followRound (view : String → Option ClassRecord) (name : String) (enough : Member → Bool)
    (state : List String × Member) : Except Fault (Round (List String × Member) Member) :=
  if enough state.2 then return .done state.2
  else
    match state.2.overriddenFrom with
    | none => return .done state.2
    | some ancestor =>
      if state.1.contains ancestor then return .done state.2
      else
        match (view ancestor).bind (·.member? name) with
        | none => return .done state.2
        | some overridden => return .again (ancestor :: state.1, overridden)

/-- Following a method comes to an end by itself, with no more rounds than classes and two. -/
theorem loop_followRound {ns : Namespace} {view : String → Traced (Option ClassRecord)}
    (registered : ∀ c v, (view c).value = some v → ns.isClass c = true) (name : String)
    (enough : Member → Bool) (m : Member) :
    Stepwise.loop (followRound (fun c => (view c).value) name enough) (ns.classCount + 2) ([], m) =
      .ok (follow view name enough (ns.classCount + 2) [] m).value := by
  refine Stepwise.loop_eq (fun (s : List String × Member) (a : Member) => ∃ fuel, s.1.Nodup ∧
    (∀ c ∈ s.1, ns.isClass c = true) ∧ ns.classCount < fuel + s.1.length ∧
    a = (follow view name enough fuel s.1 s.2).value) (fun s => ns.classCount + 1 - s.1.length) ?_
    ⟨_, List.nodup_nil, by simp, by simp, rfl⟩ (by dsimp only; omega)
  rintro ⟨visited, m⟩ a ⟨fuel, distinct, hc, hf, rfl⟩
  dsimp only at distinct hc hf ⊢
  have hle := Namespace.length_le_of_nodup distinct hc
  obtain ⟨fuel, rfl⟩ : ∃ k, fuel = k + 1 := ⟨fuel - 1, by omega⟩
  rw [followRound, follow]
  dsimp only
  cases he : enough m with
  | true => exact Or.inl rfl
  | false =>
    rw [if_neg (by simp), if_neg (by simp)]
    cases ho : m.overriddenFrom with
    | none => exact Or.inl rfl
    | some ancestor =>
      dsimp only
      by_cases hv : visited.contains ancestor = true
      · rw [if_pos hv, if_pos hv]
        exact Or.inl rfl
      · rw [if_neg hv, if_neg hv, Traced.bind_value]
        cases hm : (view ancestor).value.bind (·.member? name) with
        | none => exact Or.inl rfl
        | some overridden =>
          obtain ⟨v, hview, -⟩ := Option.bind_eq_some_iff.mp hm
          have hclasses : ∀ c ∈ ancestor :: visited, ns.isClass c = true := by
            intro c hin
            rcases List.mem_cons.mp hin with rfl | hin
            · exact registered c v hview
            · exact hc c hin
          have hnew : (ancestor :: visited).Nodup :=
            List.nodup_cons.mpr ⟨by simpa using hv, distinct⟩
          refine Or.inr ⟨(ancestor :: visited, overridden), rfl,
            ⟨fuel, hnew, hclasses, ?_, rfl⟩, ?_⟩
          · rw [List.length_cons]
            omega
          · rw [List.length_cons]
            omega

end Override

namespace Scene

def completeStepwise (scene : Scene) (window offset : Int) :
    Except Fault (Traced (Option (List Completion))) :=
  match Matcher.inWindow scene.source offset window Backward.receiverTail? with
  | none => return pure (some (scene.names.classNames.map Completion.ofClass))
  | some dot => do
    match ← Stepwise.scan scene.source dot with
    | none => return pure none
    | some receiver =>
      return do
        match ← scene.resolve dot receiver.text with
        | none => return none
        | some d => scene.selectable d

theorem completeStepwise_eq (scene : Scene) (window offset : Int) :
    scene.completeStepwise window offset = .ok (scene.complete window offset) := by
  rw [completeStepwise, complete]
  cases Matcher.inWindow scene.source offset window Backward.receiverTail? with
  | none => rfl
  | some dot =>
    dsimp only
    rw [Stepwise.scan_eq, Stepwise.ok_bind]
    cases Scan.at? scene.source dot <;> rfl

def signatureStepwise (scene : Scene) (offset : Int) :
    Except Fault (Traced (Option Signature)) := do
  match ← Stepwise.openCall scene.source offset with
  | none => return pure none
  | some call =>
    match ← Stepwise.scan scene.source call.bracket with
    | none => return pure none
    | some site =>
      return do
        return (← scene.called offset site.text).bind fun (name, m) =>
          Signature.ofMethod? name m call.argument

theorem signatureStepwise_eq (scene : Scene) (offset : Int) :
    scene.signatureStepwise offset = .ok (scene.signature offset) := by
  rw [signatureStepwise, signature, Stepwise.openCall_eq, Stepwise.ok_bind]
  cases OpenCall.find? scene.source offset with
  | none => rfl
  | some call =>
    dsimp only
    rw [Stepwise.scan_eq, Stepwise.ok_bind]
    cases Scan.at? scene.source call.bracket <;> rfl

def definitionStepwise (scene : Scene) (offset : Int) :
    Except Fault (Traced (Option Definition)) := do
  let stop ← Stepwise.aheadWhile Text.isNameChar scene.source scene.source.length offset
  match ← Stepwise.scan scene.source stop with
  | none => return pure none
  | some span =>
    let text := Scan.dropNew span.text
    match scene.names.lookup (String.ofList text) with
    | some (.klass r) => return pure (r.location.map (Definition.mk (String.ofList text)))
    | some (.package _) => return pure none
    | none => return scene.memberDefinition offset text

theorem definitionStepwise_eq (scene : Scene) {offset : Int} (ho : 0 ≤ offset) :
    ∃ answer, scene.definition offset = .ok answer ∧
      scene.definitionStepwise offset = .ok answer := by
  obtain ⟨n, rfl⟩ := Int.eq_ofNat_of_zero_le ho
  have hslice : Scan.slice scene.source n scene.source.length = scene.source.drop n := by
    rw [Scan.slice, List.take_length]
  have hstop := Stepwise.aheadWhile_eq Text.isNameChar (le_refl scene.source.length) n
  rw [hslice] at hstop
  have hend : Definition.wordEnd scene.source n =
      .ok ((n : Int) + ((scene.source.drop n).takeWhile Text.isNameChar).length) := by
    rw [Definition.wordEnd, Definition.ahead, if_pos ho]
    rfl
  rw [definition, hend, Stepwise.ok_bind, definitionStepwise, hstop, Stepwise.ok_bind,
    Stepwise.scan_eq, Stepwise.ok_bind]
  cases Scan.at? scene.source _ with
  | none => exact ⟨_, rfl, rfl⟩
  | some span =>
    dsimp only
    cases scene.names.lookup (String.ofList (Scan.dropNew span.text)) with
    | none => exact ⟨_, rfl, rfl⟩
    | some entry => cases entry <;> exact ⟨_, rfl, rfl⟩

theorem isClass_of_definition {scene : Scene} (untagged : scene.names.Untagged) {offset : Int}
    (ho : 0 ≤ offset) {answer : Traced (Option Definition)}
    (h : scene.definition offset = .ok answer) {d : Definition} (hd : answer.value = some d) :
    scene.names.isClass d.className = true := by
  obtain ⟨found, hfound, hcases⟩ := scene.definition_cases ho
  obtain rfl : found = answer := Except.ok.inj (hfound.symm.trans h)
  rcases hcases with hnone | ⟨name, r, hlookup, hvalue⟩ | ⟨text, rfl⟩
  · rw [hnone] at hd
    cases hd
  · rw [hvalue] at hd
    obtain ⟨place, -, rfl⟩ := Option.map_eq_some_iff.mp hd
    exact Namespace.isClass_of_record? (Namespace.record?_of_lookup hlookup)
  · rcases ascribed_of_memberDefinition untagged hd with ⟨r, hr, -⟩ | ⟨key, r, p, hr, -⟩
    · exact Namespace.isClass_of_record? hr
    · exact Namespace.isClass_of_record? hr

end Scene

namespace Database

def performStep (db : Database) : Step → Except Namespace.BadName (Database × List Event)
  | .viewed name => (db.view name).1.map fun _ => (db.view name).2
  | .read name => (db.read name).1.map fun _ => (db.read name).2
  | .reported event => .ok (db, [event])

def perform (db : Database) : List Step → Except Namespace.BadName (Database × List Event)
  | [] => .ok (db, [])
  | step :: rest => do
    let (db, events) ← db.performStep step
    let (db, later) ← db.perform rest
    return (db, events ++ later)

theorem Sound.performStep_eq {db : Database} (h : db.Sound) (step : Step) :
    db.performStep step = .ok (db.replayStep step) ∧ (db.replayStep step).1.Sound := by
  cases step with
  | viewed name =>
    obtain ⟨later, hview, hsound⟩ := h.view_eq name
    rw [performStep, replayStep, hview]
    exact ⟨rfl, hsound⟩
  | read name =>
    rw [performStep, replayStep, read_idle h.idle]
    exact ⟨rfl, h⟩
  | reported event => exact ⟨rfl, h⟩

/-- No step of an analysis fails: a cyclic hierarchy is reported, and its class has no view. -/
theorem Sound.perform_eq {db : Database} (h : db.Sound) (steps : List Step) :
    db.perform steps = .ok (db.replay steps) := by
  induction steps generalizing db with
  | nil => rfl
  | cons step rest ih =>
    obtain ⟨hstep, hsound⟩ := h.performStep_eq step
    rw [perform, hstep, Stepwise.ok_bind, replay]
    dsimp only
    rw [ih hsound]
    rfl

end Database

namespace FilePath

theorem leadingSlashes_of_notMem {t : List Char} (h : '/' ∉ t) : leadingSlashes t = 0 := by
  cases t with
  | nil => rfl
  | cons c cs =>
    have hc : c ≠ '/' := by
      rintro rfl
      simp at h
    simp [leadingSlashes, hc]

theorem ofText_part {s : String} (h : IsPart s) : ofText s = ⟨0, [s]⟩ := by
  have hparts := parts_ofText_part h
  have hslashes : (ofText s).slashes = 0 := leadingSlashes_of_notMem h.2.2
  calc
    ofText s = ⟨(ofText s).slashes, (ofText s).parts⟩ := rfl
    _ = ⟨0, [s]⟩ := by rw [hparts, hslashes]

theorem foldl_join {parts : List String} (h : ∀ s ∈ parts, IsPart s) (base : FilePath) :
    parts.foldl (fun (acc : FilePath) s => acc.join (.ofText s)) base =
      ⟨base.slashes, base.parts ++ parts⟩ := by
  induction parts generalizing base with
  | nil => simp
  | cons s rest ih =>
    have hs := ofText_part (h s (by simp))
    rw [List.foldl_cons, ih fun t ht => h t (List.mem_cons_of_mem s ht), hs]
    simp [join, isAbsolute]

end FilePath

namespace Project

/-- Why a question is not answered: a search goes wrong, or an operation of the project fails. -/
inductive Trouble where
  | search (fault : Fault)
  | failure (cause : Failure)
  deriving DecidableEq, Repr

/-- Carries the steps of an analysis over to the project, where each of them may fail. -/
def perform {α : Type} (p : Project) (answer : Traced α) : Except Trouble (α × Project) :=
  match p.database.perform answer.steps with
  | .ok (database, events) => .ok (answer.value, { p with database }.note events)
  | .error e => .error (.failure (.badName e))

def completeAt (p : Project) (source : List Char) (offset : Int) :
    Except Trouble (Option (List Completion) × Project) := do
  let answer ←
    ((p.scene source).completeStepwise p.settings.analysis.window offset).mapError .search
  p.perform answer

def signatureAt (p : Project) (source : List Char) (offset : Int) :
    Except Trouble (Option Signature × Project) := do
  let answer ← ((p.scene source).signatureStepwise offset).mapError .search
  p.perform answer

def definitionAt (p : Project) (source : List Char) (offset : Int) :
    Except Trouble (Option (Definition × Option FilePath) × Project) := do
  let answer ← ((p.scene source).definitionStepwise offset).mapError .search
  match ← p.perform answer with
  | (none, p) => return (none, p)
  | (some d, p) =>
    let path ← (p.sourcePath d.className).mapError .failure
    return (some (d, path), p)

/-- Whether there is a file can be told wherever the source of a class may lie. -/
def TellsFiles (p : Project) : Prop :=
  ∀ name file, p.database.names.isClass name = true → sourceFile name = .ok file →
    ∀ dir ∈ p.settings.metadata.sourceDirs,
      ∃ found, p.find (p.root.join ((FilePath.ofText dir).join file)) = .ok found

variable {p : Project}

theorem perform_eq (h : p.database.Sound) {α : Type} (answer : Traced α) :
    p.perform answer = .ok (p.follow answer) := by
  rw [perform, h.perform_eq]
  rfl

theorem sourceFile_eq {name : String} (h : ∀ s ∈ Text.segments name, FilePath.IsPart s) :
    sourceFile name = .ok ⟨0, (Text.segments name).dropLast ++
      [(Text.segments name).getLast (Text.segments_ne_nil name) ++ ".js"]⟩ := by
  have hjoin : ((Text.splitAt '.' name.toList).map String.ofList).foldl
      (fun (acc : FilePath) s => acc.join (.ofText s)) ⟨0, []⟩ = ⟨0, Text.segments name⟩ := by
    simpa [Text.segments] using FilePath.foldl_join h ⟨0, []⟩
  simp only [sourceFile, hjoin, List.getLast?_eq_some_getLast (Text.segments_ne_nil name)]

theorem exists_sourceFile {ns : Namespace} {name : String} (hc : ns.isClass name = true)
    (hslash : '/' ∉ name.toList) : ∃ file, sourceFile name = .ok file := by
  obtain ⟨r, hr⟩ := Option.isSome_iff_exists.mp hc
  obtain ⟨path, hs, -⟩ := Option.bind_eq_some_iff.mp ((Namespace.record?_eq _ _).symm.trans hr)
  have hempty := (Text.segments?_eq_some.mp hs).1
  have hpart : ∀ s ∈ Text.segments name, FilePath.IsPart s := by
    intro s hs
    have hdot := Text.dot_notMem_of_mem_segments hs
    refine ⟨fun he => hempty (he ▸ hs), ?_, ?_⟩
    · rintro rfl
      exact hdot (by simp)
    · intro hmem
      exact hslash (Text.mem_of_mem_segments hs hmem)
  exact ⟨_, sourceFile_eq hpart⟩

theorem exists_firstWith {file : FilePath} {dirs : List String}
    (h : ∀ dir ∈ dirs, ∃ found, p.find (p.root.join ((FilePath.ofText dir).join file)) = .ok found) :
    ∃ path, p.firstWith file dirs = .ok path := by
  induction dirs with
  | nil => exact ⟨none, rfl⟩
  | cons dir rest ih =>
    obtain ⟨path, hpath⟩ := ih fun d hd => h d (List.mem_cons_of_mem dir hd)
    obtain ⟨found, hfound⟩ := h dir (by simp)
    rw [firstWith]
    split
    · exact ⟨path, hpath⟩
    · rw [hfound, Stepwise.ok_bind]
      split
      · exact ⟨_, rfl⟩
      · exact ⟨path, hpath⟩

theorem firstWith_follow {α : Type} (answer : Traced α) (file : FilePath) (dirs : List String) :
    (p.follow answer).2.firstWith file dirs = p.firstWith file dirs := by
  induction dirs with
  | nil => rfl
  | cons dir rest ih =>
    rw [firstWith, firstWith, ih]
    rfl

theorem sourcePath_follow {α : Type} (answer : Traced α) (name : String) :
    (p.follow answer).2.sourcePath name = p.sourcePath name := by
  rw [sourcePath, sourcePath]
  cases sourceFile name with
  | error e => rfl
  | ok file => exact firstWith_follow answer file p.settings.metadata.sourceDirs

theorem exists_sourcePath (hfiles : p.TellsFiles) {name : String}
    (hc : p.database.names.isClass name = true) (hslash : '/' ∉ name.toList) :
    ∃ path, p.sourcePath name = .ok path := by
  obtain ⟨file, hfile⟩ := exists_sourceFile hc hslash
  obtain ⟨path, hpath⟩ := exists_firstWith (hfiles name file hc hfile)
  rw [sourcePath, hfile, Stepwise.ok_bind]
  exact ⟨path, hpath⟩

theorem completeAt_eq (h : p.database.Sound) (source : List Char) (offset : Int) :
    p.completeAt source offset =
      .ok (p.follow ((p.scene source).complete p.settings.analysis.window offset)) := by
  rw [completeAt, Scene.completeStepwise_eq]
  exact perform_eq h _

theorem signatureAt_eq (h : p.database.Sound) (source : List Char) (offset : Int) :
    p.signatureAt source offset = .ok (p.follow ((p.scene source).signature offset)) := by
  rw [signatureAt, Scene.signatureStepwise_eq]
  exact perform_eq h _

theorem definitionAt_eq (h : p.database.Sound) (untagged : p.database.names.Untagged)
    (hslash : ∀ name, p.database.names.isClass name = true → '/' ∉ name.toList)
    (hfiles : p.TellsFiles) (source : List Char) {offset : Int} (ho : 0 ≤ offset) :
    ∃ answer path, (p.scene source).definition offset = .ok answer ∧
      (∀ d, answer.value = some d → p.sourcePath d.className = .ok path) ∧
      p.definitionAt source offset =
        .ok ((p.follow answer).1.map fun d => (d, path), (p.follow answer).2) := by
  obtain ⟨answer, hanswer, hstepwise⟩ := (p.scene source).definitionStepwise_eq ho
  have hfollow : p.follow answer = (answer.value, (p.follow answer).2) := rfl
  have hperform : p.definitionAt source offset = (do
      match ← p.perform answer with
      | (none, p) => return (none, p)
      | (some d, p) =>
        let path ← (p.sourcePath d.className).mapError .failure
        return (some (d, path), p)) := by
    rw [definitionAt, hstepwise]
    rfl
  rw [hperform, perform_eq h, Stepwise.ok_bind]
  cases hd : answer.value with
  | none =>
    refine ⟨answer, none, hanswer, by simp [hd], ?_⟩
    rw [hfollow, hd]
    rfl
  | some d =>
    have hc := Scene.isClass_of_definition untagged ho hanswer hd
    obtain ⟨path, hpath⟩ := exists_sourcePath hfiles hc (hslash d.className hc)
    refine ⟨answer, path, hanswer, by simpa [hd] using hpath, ?_⟩
    rw [hfollow, hd]
    dsimp only
    rw [sourcePath_follow, hpath]
    rfl

/-- Every question is answered. Whatever the source, at every place from its beginning on, the
completions, the signature and the definition are found, with no search going wrong, no view failing
and no path that cannot be put together; and overridden methods are followed to an end, even where
they override each other. -/
theorem answers_everywhere (p : Project) (roots : List String) (calls : List Database.Call)
    (hdb : p.database = .ofHistory roots calls) (untagged : p.database.names.Untagged)
    (hslash : ∀ name, p.database.names.isClass name = true → '/' ∉ name.toList)
    (hfiles : p.TellsFiles) (source : List Char) (offset : Int) (ho : 0 ≤ offset) :
    p.completeAt source offset =
        .ok (p.follow ((p.scene source).complete p.settings.analysis.window offset)) ∧
      p.signatureAt source offset = .ok (p.follow ((p.scene source).signature offset)) ∧
      (∃ answer path, (p.scene source).definition offset = .ok answer ∧
        (∀ d, answer.value = some d → p.sourcePath d.className = .ok path) ∧
        p.definitionAt source offset =
          .ok ((p.follow answer).1.map fun d => (d, path), (p.follow answer).2)) ∧
      ∀ name enough m, Stepwise.loop
        (Override.followRound p.database.names.view? name enough)
        (p.database.names.classCount + 2) ([], m) =
          .ok ((p.scene source).overridden name enough m).value := by
  have hsound : p.database.Sound := hdb ▸ Database.sound_ofHistory roots calls
  refine ⟨completeAt_eq hsound source offset, signatureAt_eq hsound source offset,
    definitionAt_eq hsound untagged hslash hfiles source ho, ?_⟩
  intro name enough m
  have registered : ∀ c v, ((p.scene source).view c).value = some v →
      p.database.names.isClass c = true := fun _ _ hv => Namespace.isClass_of_view? hv
  exact Override.loop_followRound registered name enough m

def entangledClass (name other : String) : ClassRecord :=
  { ClassRecord.bare name (some other) with
    members := [("run", { Member.function none Doc.empty with overriddenFrom := some other })] }

def entangled : Project :=
  { fresh ⟨1, ["app"]⟩ .default .script .empty with
    database := .ofHistory ["Object"]
      [.ingest (entangledClass "a.A" "a.B"), .ingest (entangledClass "a.B" "a.A")] }

theorem entangled_record {name : String} {r : ClassRecord}
    (h : entangled.database.names.record? name = some r) :
    (name = "a.A" ∨ name = "a.B") ∧ r.Untagged := by
  have hplaced : entangled.database.names.Placed := (Database.sound_ofHistory _ _).placed
  have hrecords : entangled.database.names.records =
      [entangledClass "a.A" "a.B", entangledClass "a.B" "a.A"] := by cbv
  have hname := hplaced.record?_name h
  have hmem := (hplaced.mem_records_iff r).mpr (hname ▸ h)
  have hplain : ∀ name other, (entangledClass name other).Untagged := by
    intro name other
    exact ⟨by simp [entangledClass, Member.function], by simp [entangledClass, ClassRecord.bare],
      by simp [entangledClass, ClassRecord.bare]⟩
  rw [hrecords] at hmem
  simp only [List.mem_cons, List.not_mem_nil, or_false] at hmem
  rcases hmem with rfl | rfl
  · exact ⟨Or.inl hname.symm, hplain _ _⟩
  · exact ⟨Or.inr hname.symm, hplain _ _⟩

theorem entangled_slash (name : String) (h : entangled.database.names.isClass name = true) :
    '/' ∉ name.toList := by
  obtain ⟨r, hr⟩ := Option.isSome_iff_exists.mp h
  rcases (entangled_record hr).1 with rfl | rfl <;> decide

theorem entangled_tellsFiles : entangled.TellsFiles := by
  have hfile : ∀ name ∈ ["a.A", "a.B"], ∀ dir ∈ entangled.settings.metadata.sourceDirs,
      ((sourceFile name).bind fun file =>
        entangled.find (entangled.root.join ((FilePath.ofText dir).join file))).isOk = true := by
    decide +kernel
  intro name file hc hsource dir hdir
  obtain ⟨r, hr⟩ := Option.isSome_iff_exists.mp hc
  have hok := hfile name (by simpa using (entangled_record hr).1) dir hdir
  rw [hsource] at hok
  cases hf : entangled.find (entangled.root.join ((FilePath.ofText dir).join file)) with
  | ok found => exact ⟨found, rfl⟩
  | error e => simp [Except.bind, hf, Except.isOk, Except.toBool] at hok

theorem entangled_answers_beyond :
    entangled.database.names.Untagged ∧
    (∀ name, entangled.database.names.isClass name = true → '/' ∉ name.toList) ∧
    entangled.TellsFiles ∧ (0 : Int) ≤ 99 ∧
    entangled.completeAt "a.A.run(".toList 99 =
      .ok (entangled.follow ((entangled.scene "a.A.run(".toList).complete
        entangled.settings.analysis.window 99)) ∧
    entangled.signatureAt "a.A.run(".toList 99 =
      .ok (entangled.follow ((entangled.scene "a.A.run(".toList).signature 99)) ∧
    ∃ answer path, (entangled.scene "a.A.run(".toList).definition 99 = .ok answer ∧
      entangled.definitionAt "a.A.run(".toList 99 =
        .ok ((entangled.follow answer).1.map fun d => (d, path), (entangled.follow answer).2) := by
  have untagged : entangled.database.names.Untagged := fun _ _ hr => (entangled_record hr).2
  obtain ⟨hcomplete, hsignature, ⟨answer, path, hanswer, -, hdefinition⟩, -⟩ :=
    answers_everywhere entangled _ _ rfl untagged entangled_slash entangled_tellsFiles
      "a.A.run(".toList 99 (by decide)
  exact ⟨untagged, entangled_slash, entangled_tellsFiles, by decide, hcomplete, hsignature, answer,
    path, hanswer, hdefinition⟩

end Project
end ScriptSense
