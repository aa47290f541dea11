import ScriptSense.Disk
import ScriptSense.Proofs.Data.Assoc
import ScriptSense.Proofs.Disk.Paths

/-! What a pattern selects on a disk. Whether a file is selected depends on nothing but the path to
it: two disks that have a file at one path select it both or not at all. -/
namespace ScriptSense
namespace Disk

def IsName (s : String) : Prop := FilePath.IsPart s ∧ s ≠ ".." ∧ isTooLong s = false

instance : DecidablePred IsName := fun _ => inferInstanceAs (Decidable (_ ∧ _ ∧ _))

/-- A disk as file systems keep it: in every folder the entries have proper names, each its own. -/
inductive Regular : Disk → Prop
  | file (bytes : List UInt8) : Regular (.file bytes)
  | folder {es : List (String × Disk)} (distinct : (Assoc.keys es).Nodup)
      (names : ∀ e ∈ es, IsName e.1) (below : ∀ e ∈ es, Regular e.2) : Regular (.folder es)

theorem regular_empty : empty.Regular := .folder (by simp) (by simp) (by simp)

theorem Regular.put {content d : Disk} (hc : content.Regular) (hd : d.Regular) {path : List String}
    (names : ∀ s ∈ path, IsName s) : (Disk.put content path d).Regular := by
  induction path generalizing d with
  | nil => exact hc
  | cons s rest ih =>
    have hs : IsName s := names s (by simp)
    have hes : (Assoc.keys d.entries).Nodup ∧ (∀ e ∈ d.entries, IsName e.1) ∧
        ∀ e ∈ d.entries, Regular e.2 := by
      cases hd with
      | file bytes => simp [entries]
      | folder distinct names below => exact ⟨distinct, names, below⟩
    have hchild : ((Assoc.get? d.entries s).getD empty).Regular := by
      cases hg : Assoc.get? d.entries s with
      | none => exact regular_empty
      | some child => exact hes.2.2 _ (Assoc.mem_of_get? hg)
    have hput := ih hchild fun t ht => names t (by simp [ht])
    refine .folder (Assoc.nodup_keys_put hes.1 _ _) ?_ ?_
    · rintro ⟨t, e⟩ he
      rcases Assoc.mem_put hes.1 he with ⟨rfl, -⟩ | ⟨-, hm⟩
      · exact hs
      · exact hes.2.1 _ hm
    · rintro ⟨t, e⟩ he
      rcases Assoc.mem_put hes.1 he with ⟨-, rfl⟩ | ⟨-, hm⟩
      · exact hput
      · exact hes.2.2 _ hm

/-! Walking a path, one part at a time. -/

def step (above : List Disk) (here : Disk) (s : String) : Except Obstacle (List Disk × Disk) :=
  match here with
  | file _ => .error .throughFile
  | folder es =>
    if s == ".." then
      match above with
      | [] => .error .missing
      | parent :: further => .ok (further, parent)
    else if isTooLong s then .error .nameTooLong
    else
      match Assoc.get? es s with
      | none => .error .missing
      | some d => .ok (here :: above, d)

theorem walk_cons (above : List Disk) (here : Disk) (s : String) (rest : List String) :
    walk above here (s :: rest) =
      match step above here s with
      | .error e => .error e
      | .ok (beyond, there) => walk beyond there rest := by
  cases here with
  | file bytes => simp [walk, step]
  | folder es =>
    by_cases hup : s = ".."
    · cases above <;> simp [walk, step, hup]
    · by_cases hlong : isTooLong s = true
      · simp [walk, step, hup, hlong]
      · cases hg : Assoc.get? es s <;> simp [walk, step, hup, hlong, hg]

theorem isFolder_of_step {above beyond : List Disk} {here there : Disk} {s : String}
    (h : step above here s = .ok (beyond, there)) : here.isFolder = true := by
  cases here with
  | file bytes => cases h
  | folder es => rfl

theorem step_cases {above beyond : List Disk} {here there : Disk} {s : String}
    (h : step above here s = .ok (beyond, there)) :
    (s = ".." ∧ above = there :: beyond) ∨
      (s ≠ ".." ∧ isTooLong s = false ∧ (s, there) ∈ here.entries ∧ beyond = here :: above) := by
  cases here with
  | file bytes => cases h
  | folder es =>
    by_cases hup : s = ".."
    · cases above with
      | nil => simp [step, hup] at h
      | cons parent further => exact Or.inl ⟨hup, by simp_all [step]⟩
    · by_cases hlong : isTooLong s = true
      · simp [step, hup, hlong] at h
      · cases hg : Assoc.get? es s with
        | none => simp [step, hup, hlong, hg] at h
        | some d =>
          have hp : folder es :: above = beyond ∧ d = there := by
            simpa [step, hup, hlong, hg] using h
          exact Or.inr ⟨hup, by simpa using hlong, hp.2 ▸ Assoc.mem_of_get? hg, hp.1.symm⟩

theorem isTooLong_of_step {above : List Disk} {here : Disk} {s : String}
    (h : step above here s = .error .nameTooLong) : s ≠ ".." ∧ isTooLong s = true := by
  cases here with
  | file bytes => cases h
  | folder es =>
    by_cases hup : s = ".."
    · cases above <;> simp [step, hup] at h
    · by_cases hlong : isTooLong s = true
      · exact ⟨hup, hlong⟩
      · cases hg : Assoc.get? es s <;> simp [step, hup, hlong, hg] at h

theorem Regular.entry {here : Disk} (h : here.Regular) {e : String × Disk} (he : e ∈ here.entries) :
    IsName e.1 ∧ e.2.Regular := by
  cases h with
  | file bytes => simp [entries] at he
  | folder distinct names below => exact ⟨names e he, below e he⟩

theorem Regular.step_entry {here : Disk} (h : here.Regular) {e : String × Disk}
    (he : e ∈ here.entries) (above : List Disk) : step above here e.1 = .ok (here :: above, e.2) := by
  cases h with
  | file bytes => simp [entries] at he
  | folder distinct names below =>
    have hn := names e he
    have hg := Assoc.get?_of_mem distinct he
    simp [step, hn.2.1, hn.2.2, hg]

theorem walk_append {above : List Disk} {here there : Disk} {path : List String}
    (h : walk above here path = .ok there) :
    ∃ beyond, ∀ rest, walk above here (path ++ rest) = walk beyond there rest := by
  induction path generalizing above here with
  | nil =>
    have he : here = there := by simpa [walk] using h
    exact ⟨above, fun rest => by rw [he, List.nil_append]⟩
  | cons s path ih =>
    rw [walk_cons] at h
    cases hs : step above here s with
    | error e => simp [hs] at h
    | ok next =>
      obtain ⟨beyond, hb⟩ := ih (by simpa [hs] using h)
      refine ⟨beyond, fun rest => ?_⟩
      rw [List.cons_append, walk_cons, hs]
      exact hb rest

theorem walk_append_error {above : List Disk} {here : Disk} {path : List String} {e : Obstacle}
    (h : walk above here path = .error e) (rest : List String) :
    walk above here (path ++ rest) = .error e := by
  induction path generalizing above here with
  | nil => simp [walk] at h
  | cons s path ih =>
    rw [walk_cons] at h
    rw [List.cons_append, walk_cons]
    cases hs : step above here s with
    | error e' => simpa [hs] using h
    | ok next => exact ih (by simpa [hs] using h)

theorem Regular.step {above beyond : List Disk} {here there : Disk} {s : String}
    (ha : ∀ d ∈ above, d.Regular) (hh : here.Regular)
    (h : Disk.step above here s = .ok (beyond, there)) :
    (∀ d ∈ beyond, d.Regular) ∧ there.Regular := by
  rcases step_cases h with ⟨-, rfl⟩ | ⟨-, -, he, rfl⟩
  · exact ⟨fun d hd => ha d (by simp [hd]), ha there (by simp)⟩
  · exact ⟨by simpa using ⟨hh, ha⟩, (hh.entry he).2⟩

theorem Regular.walk {above : List Disk} {here there : Disk} {path : List String}
    (ha : ∀ d ∈ above, d.Regular) (hh : here.Regular) (h : Disk.walk above here path = .ok there) :
    there.Regular := by
  induction path generalizing above here with
  | nil =>
    have he : here = there := by simpa [Disk.walk] using h
    exact he ▸ hh
  | cons s path ih =>
    rw [walk_cons] at h
    cases hs : Disk.step above here s with
    | error e => simp [hs] at h
    | ok next =>
      obtain ⟨hb, ht⟩ := Regular.step ha hh hs
      exact ih hb ht (by simpa [hs] using h)

theorem walk_ne_tooLong {above : List Disk} {here there : Disk} {path : List String}
    (h : walk above here path = .ok there) (above' : List Disk) (here' : Disk) :
    walk above' here' path ≠ .error .nameTooLong := by
  induction path generalizing above above' here here' with
  | nil => simp [walk]
  | cons s path ih =>
    rw [walk_cons] at h ⊢
    cases hs : step above here s with
    | error e => simp [hs] at h
    | ok next =>
      cases hs' : step above' here' s with
      | ok next' => exact ih (by simpa [hs] using h) _ _
      | error e =>
        intro he
        have htoo : e = .nameTooLong := by simpa using he
        obtain ⟨hup, hlong⟩ := isTooLong_of_step (htoo ▸ hs')
        rcases step_cases hs with ⟨hs, -⟩ | ⟨-, hshort, -⟩
        · exact hup hs
        · simp [hlong] at hshort

/-! What lies at a path, and at the beginnings of the path. -/

theorem find?_eq_some {d there : Disk} {path : List String} :
    d.find? path = some there ↔ Disk.walk [] d path = .ok there := by
  rw [find?]
  cases Disk.walk [] d path <;> simp [Except.toOption]

theorem lookup_of_find? {old there : Disk} {path : List String} (h : old.find? path = some there)
    (new : Disk) : new.lookup path = .ok (new.find? path) := by
  have hn := walk_ne_tooLong (find?_eq_some.mp h) [] new
  rw [lookup, find?]
  cases hw : Disk.walk [] new path with
  | ok found => rfl
  | error e => cases e <;> simp_all [Except.toOption]

theorem Regular.find? {d there : Disk} (hd : d.Regular) {path : List String}
    (h : d.find? path = some there) : there.Regular :=
  Regular.walk (by simp) hd (find?_eq_some.mp h)

theorem exists_find?_of_append {d there : Disk} {path rest : List String}
    (h : d.find? (path ++ rest) = some there) : ∃ here, d.find? path = some here := by
  rw [find?_eq_some] at h
  cases hp : Disk.walk [] d path with
  | ok here => exact ⟨here, find?_eq_some.mpr hp⟩
  | error e => rw [walk_append_error hp] at h; cases h

theorem find?_append {d here : Disk} {path : List String} (h : d.find? path = some here) :
    ∃ above, ∀ rest there, d.find? (path ++ rest) = some there ↔
      Disk.walk above here rest = .ok there := by
  obtain ⟨above, ha⟩ := walk_append (find?_eq_some.mp h)
  exact ⟨above, fun rest there => by rw [find?_eq_some, ha]⟩

theorem isFolder_of_find?_append {d here there : Disk} {path rest : List String}
    (hp : d.find? path = some here) (hr : rest ≠ []) (h : d.find? (path ++ rest) = some there) :
    here.isFolder = true := by
  obtain ⟨above, ha⟩ := find?_append hp
  cases rest with
  | nil => exact absurd rfl hr
  | cons s rest =>
    have hw := (ha (s :: rest) there).mp h
    rw [walk_cons] at hw
    cases hs : Disk.step above here s with
    | error e => simp [hs] at hw
    | ok next => exact isFolder_of_step hs

theorem mem_entries_of_find? {d here there : Disk} {path : List String} {s : String}
    (hp : d.find? path = some here) (hs : s ≠ "..") (h : d.find? (path ++ [s]) = some there) :
    (s, there) ∈ here.entries := by
  obtain ⟨above, ha⟩ := find?_append hp
  have hw := (ha [s] there).mp h
  rw [walk_cons] at hw
  cases hn : Disk.step above here s with
  | error e => simp [hn] at hw
  | ok next =>
    obtain ⟨beyond, next⟩ := next
    have he : next = there := by simpa [hn, Disk.walk] using hw
    rcases step_cases hn with ⟨hup, -⟩ | ⟨-, -, hm, -⟩
    · exact absurd hup hs
    · exact he ▸ hm

theorem Regular.find?_entry {d here : Disk} (hd : d.Regular) {path : List String}
    (hp : d.find? path = some here) {e : String × Disk} (he : e ∈ here.entries) :
    d.find? (path ++ [e.1]) = some e.2 := by
  obtain ⟨above, ha⟩ := find?_append hp
  rw [ha, walk_cons, (hd.find? hp).step_entry he above]
  rfl

/-! The folders below a folder are those that names lead to. -/

theorem mem_foldersOf {path : List String} {es : List (String × Disk)} {f : List String × Disk} :
    f ∈ foldersOf path es ↔ ∃ e ∈ es, f ∈ folders (path ++ [e.1]) e.2 := by
  induction es with
  | nil => simp [foldersOf]
  | cons e rest ih =>
    obtain ⟨s, d⟩ := e
    simp [foldersOf, ih]

theorem Regular.mem_folders {here : Disk} (h : here.Regular) {path : List String}
    {f : List String × Disk} (hf : f ∈ folders path here) :
    ∃ names, f.1 = path ++ names ∧ (∀ s ∈ names, IsName s) ∧ f.2.isFolder = true ∧
      ∀ above, Disk.walk above here names = .ok f.2 := by
  induction h generalizing path with
  | file bytes => simp [folders] at hf
  | @folder es distinct names below ih =>
    rw [folders, List.mem_cons, mem_foldersOf] at hf
    rcases hf with rfl | ⟨e, he, hf⟩
    · exact ⟨[], by simp [isFolder, Disk.walk]⟩
    · obtain ⟨more, hp, hn, hfolder, hw⟩ := ih e he hf
      refine ⟨e.1 :: more, by simp [hp], by simpa using ⟨names e he, hn⟩, hfolder, ?_⟩
      intro above
      rw [walk_cons, (Regular.folder distinct names below).step_entry he above]
      exact hw _

theorem mem_folders_of_walk {above : List Disk} {here there : Disk} {names : List String}
    (hn : ∀ s ∈ names, s ≠ "..") (h : Disk.walk above here names = .ok there)
    (hf : there.isFolder = true) (path : List String) :
    (path ++ names, there) ∈ folders path here := by
  induction names generalizing above here path with
  | nil =>
    have he : here = there := by simpa [Disk.walk] using h
    subst he
    cases here with
    | file bytes => cases hf
    | folder es => simp [folders]
  | cons s names ih =>
    rw [walk_cons] at h
    cases hs : Disk.step above here s with
    | error e => simp [hs] at h
    | ok next =>
      obtain ⟨beyond, next⟩ := next
      rcases step_cases hs with ⟨hup, -⟩ | ⟨-, -, hm, -⟩
      · exact absurd hup (hn s (by simp))
      · have hlater := ih (fun t ht => hn t (by simp [ht])) (by simpa [hs] using h) (path ++ [s])
        cases here with
        | file bytes => simp [entries] at hm
        | folder es =>
          rw [folders, List.mem_cons, mem_foldersOf]
          exact Or.inr ⟨(s, next), hm, by simpa using hlater⟩

/-- The parts of a path that a segment of a pattern stands for. -/
def Covers (segment : String) (names : List String) : Prop :=
  if segment = "**" then ∀ s ∈ names, IsName s
  else if isWild segment = true then
    ∃ s, names = [s] ∧ IsName s ∧ Glob.segmentMatches segment.toList s.toList = true
  else names = [segment]

theorem leads_iff {segment : String} (hd : segment ≠ "**") (rest : List String) (next : Disk) :
    (rest.isEmpty || next.isFolder) = true ↔
      (segment = "**" ∨ rest ≠ [] → next.isFolder = true) := by
  cases rest <;> simp [hd]

/-- A segment selects what its parts lead to. Every segment but the last leads to folders, and so does
a double star. -/
theorem Regular.mem_select_cons {root here : Disk} (hr : root.Regular) {path : List String}
    (hp : root.find? path = some here) (segment : String) (rest q : List String) :
    q ∈ select root (segment :: rest) path here ↔
      ∃ names next, Covers segment names ∧ root.find? (path ++ names) = some next ∧
        (segment = "**" ∨ rest ≠ [] → next.isFolder = true) ∧
        q ∈ select root rest (path ++ names) next := by
  have hh := hr.find? hp
  obtain ⟨above, ha⟩ := find?_append hp
  rw [select]
  by_cases hd : segment = "**"
  · simp only [hd, beq_self_eq_true, if_true, List.mem_eraseDups, List.mem_flatMap, Covers]
    constructor
    · rintro ⟨f, hf, hq⟩
      obtain ⟨names, hpath, hn, hfolder, hw⟩ := hh.mem_folders hf
      rw [hpath] at hq
      exact ⟨names, f.2, hn, (ha names f.2).mpr (hw above), fun _ => hfolder, hq⟩
    · rintro ⟨names, next, hn, hfound, hfolder, hq⟩
      refine ⟨(path ++ names, next), ?_, hq⟩
      exact mem_folders_of_walk (fun s hs => (hn s hs).2.1) ((ha names next).mp hfound)
        (hfolder (Or.inl trivial)) path
  · have hb : (segment == "**") = false := by simpa using hd
    by_cases hw : isWild segment = true
    · simp only [hb, hw, if_true, List.mem_flatMap, Covers, if_neg hd, Bool.false_eq_true, if_false]
      constructor
      · rintro ⟨e, he, hq⟩
        split at hq
        · rename_i hc
          rw [Bool.and_eq_true, leads_iff hd] at hc
          exact ⟨[e.1], e.2, ⟨e.1, rfl, (hh.entry he).1, hc.2⟩, hr.find?_entry hp he, hc.1, hq⟩
        · simp at hq
      · rintro ⟨names, next, ⟨s, rfl, hs, hm⟩, hfound, hfolder, hq⟩
        refine ⟨(s, next), mem_entries_of_find? hp hs.2.1 hfound, ?_⟩
        rw [if_pos (by rw [Bool.and_eq_true, leads_iff hd]; exact ⟨hfolder, hm⟩)]
        exact hq
    · simp only [hb, hw, Covers, if_neg hd, Bool.false_eq_true, if_false]
      constructor
      · intro hq
        split at hq
        · rename_i next hfound
          split at hq
          · rename_i hc
            exact ⟨[segment], next, rfl, hfound, (leads_iff hd rest next).mp hc, hq⟩
          · simp at hq
        · simp at hq
      · rintro ⟨names, next, rfl, hfound, hfolder, hq⟩
        simp only [hfound]
        rw [if_pos ((leads_iff hd rest next).mpr hfolder)]
        exact hq

theorem Regular.prefix_of_mem_select {root here : Disk} (hr : root.Regular) {segments path : List String}
    (hp : root.find? path = some here) {q : List String} (hq : q ∈ select root segments path here) :
    path <+: q := by
  induction segments generalizing path here with
  | nil =>
    have he : q = path := by simpa [select] using hq
    exact he ▸ List.prefix_rfl
  | cons segment rest ih =>
    obtain ⟨names, next, -, hfound, -, hlater⟩ := (hr.mem_select_cons hp segment rest q).mp hq
    exact (List.prefix_append path names).trans (ih hfound hlater)

/-- A file that is selected on one disk is selected on any other that has a file in its place. -/
theorem Regular.mem_select_transfer {old new : Disk} (ho : old.Regular) (hn : new.Regular)
    {q : List String} {bytes bytes' : List UInt8} (hq : old.find? q = some (.file bytes))
    (hq' : new.find? q = some (.file bytes')) {segments path : List String} {here here' : Disk}
    (hp : old.find? path = some here) (hp' : new.find? path = some here')
    (h : q ∈ select old segments path here) : q ∈ select new segments path here' := by
  induction segments generalizing path here here' with
  | nil => simpa [select] using h
  | cons segment rest ih =>
    obtain ⟨names, next, hc, hfound, hfolder, hlater⟩ := (ho.mem_select_cons hp segment rest q).mp h
    obtain ⟨more, rfl⟩ := ho.prefix_of_mem_select hfound hlater
    obtain ⟨next', hfound'⟩ := exists_find?_of_append hq'
    refine (hn.mem_select_cons hp' segment rest _).mpr
      ⟨names, next', hc, hfound', ?_, ih hfound hfound' hlater⟩
    -- the path goes on after a folder of the old disk, so that the new disk has a folder there too
    intro hs
    have hm : more ≠ [] := by
      rintro rfl
      rw [List.append_nil, hfound] at hq
      have hf := hfolder hs
      simp_all [isFolder]
    exact isFolder_of_find?_append hfound' hm hq'

theorem Covers.isPart {segment : String} {names : List String} (hs : FilePath.IsPart segment)
    (h : Covers segment names) : ∀ s ∈ names, FilePath.IsPart s := by
  unfold Covers at h
  split at h
  · exact fun s hm => (h s hm).1
  · split at h
    · obtain ⟨s, rfl, hn, -⟩ := h
      simpa using hn.1
    · simpa [h] using hs

theorem Regular.isPart_of_mem_select {root here : Disk} (hr : root.Regular)
    {segments path : List String} (hp : root.find? path = some here)
    (hs : ∀ s ∈ segments, FilePath.IsPart s) (hpath : ∀ s ∈ path, FilePath.IsPart s)
    {q : List String} (hq : q ∈ select root segments path here) : ∀ s ∈ q, FilePath.IsPart s := by
  induction segments generalizing path here with
  | nil =>
    have he : q = path := by simpa [select] using hq
    exact he ▸ hpath
  | cons segment rest ih =>
    obtain ⟨names, next, hc, hfound, -, hlater⟩ := (hr.mem_select_cons hp segment rest q).mp hq
    refine ih hfound (fun s hm => hs s (by simp [hm])) ?_ hlater
    intro s hm
    rcases List.mem_append.mp hm with hm | hm
    · exact hpath s hm
    · exact hc.isPart (hs segment (by simp)) s hm

/-! The files that a pattern matches. -/

theorem mem_glob {d : Disk} {pattern : String} {paths : List FilePath}
    (h : d.glob pattern = .ok paths) {path : FilePath} :
    path ∈ paths ↔ ∃ parts bytes, path = ⟨0, parts⟩ ∧
      parts ∈ select d (FilePath.ofText pattern).parts [] d ∧ d.find? parts = some (.file bytes) := by
  simp only [glob] at h
  split at h
  · cases h
  · rw [← Except.ok.inj h]
    simp only [List.mem_mergeSort, List.mem_map, List.mem_filter]
    constructor
    · rintro ⟨parts, ⟨hs, hf⟩, rfl⟩
      cases hd : d.find? parts with
      | none => simp [hd] at hf
      | some found =>
        cases found with
        | file bytes => exact ⟨parts, bytes, rfl, hs, hd⟩
        | folder es => simp [hd, isFile, isFolder] at hf
    · rintro ⟨parts, bytes, rfl, hs, hd⟩
      exact ⟨parts, ⟨hs, by simp [hd, isFile, isFolder]⟩, rfl⟩

end Disk
end ScriptSense
