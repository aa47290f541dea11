import ScriptSense.Proofs.Disk.Matching
import ScriptSense.Proofs.Project.Records

/-! Finding record files on the disk, and telling the path of a record file when it changes. The disk
is searched with the segments of the pattern that mean something; the path of a change is compared
with all segments as they are written. Main statement: for a pattern without empty segments and
single dots both come to the same, and for any other no change is ever taken for that of a record
file. -/
namespace ScriptSense

namespace Text

theorem splitAt_append_of_notMem {separator : Char} {ending : List Char}
    (h : separator ∉ ending) (t : List Char) :
    ∃ pieces last, splitAt separator (t ++ ending) = pieces ++ [last ++ ending] := by
  induction t with
  | nil => exact ⟨[], [], by rw [List.nil_append, splitAt_of_notMem h]; rfl⟩
  | cons c cs ih =>
    obtain ⟨pieces, last, hs⟩ := ih
    rw [List.cons_append, splitAt, hs]
    by_cases hc : c = separator
    · rw [if_pos (by simpa using hc)]
      exact ⟨[] :: pieces, last, rfl⟩
    · rw [if_neg (by simpa using hc)]
      cases pieces with
      | nil => exact ⟨[], c :: last, rfl⟩
      | cons piece pieces => exact ⟨(c :: piece) :: pieces, last, rfl⟩

end Text

namespace Glob

/-- A segment that stands for its own text only. -/
def IsLiteral (segment : List Char) : Prop := ∀ c ∈ segment, c ≠ '*' ∧ c ≠ '?' ∧ c ≠ '['

theorem pieces_cons_of_isLiteral {c : Char} {rest : List Char} (h : IsLiteral (c :: rest)) :
    pieces (c :: rest) = .char c :: pieces rest := by
  obtain ⟨hstar, hany, hset⟩ := h c (by simp)
  exact pieces_char hstar hany hset rest

theorem segmentMatches_iff_of_isLiteral {segment : List Char} (h : IsLiteral segment)
    (part : List Char) : segmentMatches segment part = true ↔ part = segment := by
  induction segment generalizing part with
  | nil => cases part <;> simp [segmentMatches, pieces, covers, coverage]
  | cons c rest ih =>
    rw [segmentMatches, pieces_cons_of_isLiteral h]
    cases part with
    | nil => simp [covers_nil]
    | cons d part =>
      have hrest := ih (fun e he => h e (by simp [he])) part
      rw [segmentMatches] at hrest
      rw [covers_cons (by simp), Bool.and_eq_true, hrest, List.cons.injEq]
      simp [Piece.accepts]

theorem ne_doubleStar_of_isLiteral {segment : List Char} (h : IsLiteral segment) :
    segment ≠ doubleStar := by
  rintro rfl
  exact absurd rfl (h '*' (by simp [doubleStar])).1

theorem mem_of_segmentsMatch {segments parts : List (List Char)} {segment : List Char}
    (hl : IsLiteral segment) (hm : segment ∈ segments) (h : segmentsMatch segments parts = true) :
    segment ∈ parts := by
  have hne := ne_doubleStar_of_isLiteral hl
  fun_induction segmentsMatch segments parts with
  | case1 parts => cases hm
  | case2 head rest ih =>
    rw [Bool.and_eq_true, beq_iff_eq] at h
    rcases List.mem_cons.mp hm with rfl | hm
    · exact absurd h.1 hne
    · exact ih hm h.2
  | case3 head rest part parts hhead ih₁ ih₂ =>
    rw [Bool.or_eq_true] at h
    rcases h with h | h
    · rcases List.mem_cons.mp hm with rfl | hm
      · exact absurd (by simpa using hhead) hne
      · exact ih₁ hm h
    · exact List.mem_cons_of_mem _ (ih₂ hm h)
  | case4 head rest part parts hhead ih =>
    rw [Bool.and_eq_true] at h
    rcases List.mem_cons.mp hm with rfl | hm
    · rw [(segmentMatches_iff_of_isLiteral hl part).mp h.1]
      exact List.mem_cons_self
    · exact List.mem_cons_of_mem _ (ih hm h.2)

theorem eq_doubleStar_of_segmentsMatch_nil {segments : List (List Char)}
    (h : segmentsMatch segments [] = true) : ∀ segment ∈ segments, segment = doubleStar := by
  induction segments with
  | nil => simp
  | cons head rest ih =>
    rw [segmentsMatch, Bool.and_eq_true, beq_iff_eq] at h
    intro segment hm
    rcases List.mem_cons.mp hm with rfl | hm
    · exact h.1
    · exact ih h.2 segment hm

end Glob

namespace Disk

theorem isLiteral_of_not_isWild {segment : String} (h : ¬ isWild segment = true) :
    Glob.IsLiteral segment.toList := by
  simpa [isWild, not_or, and_assoc, Glob.IsLiteral] using h

/-- A path that matches is cut into the parts that the first segment stands for, and a rest that the
other segments match. -/
theorem exists_covers_of_segmentsMatch {segment : String} {rest : List (List Char)}
    {names : List String} (hn : ∀ s ∈ names, IsName s)
    (h : Glob.segmentsMatch (segment.toList :: rest) (names.map String.toList) = true) :
    ∃ block more, names = block ++ more ∧ Covers segment block ∧
      Glob.segmentsMatch rest (more.map String.toList) = true := by
  by_cases hd : segment = "**"
  · subst hd
    induction names with
    | nil =>
      rw [List.map_nil, Glob.segmentsMatch, Bool.and_eq_true] at h
      exact ⟨[], [], rfl, by simp [Covers], h.2⟩
    | cons s names ih =>
      have hstar : ("**".toList == Glob.doubleStar) = true := by decide
      rw [List.map_cons, Glob.segmentsMatch, if_pos hstar, Bool.or_eq_true] at h
      rcases h with h | h
      · exact ⟨[], s :: names, rfl, by simp [Covers], h⟩
      · obtain ⟨block, more, rfl, hc, hmore⟩ := ih (fun t ht => hn t (by simp [ht])) h
        refine ⟨s :: block, more, rfl, ?_, hmore⟩
        rw [Covers, if_pos rfl]
        exact fun t ht => hn t (List.mem_append_left more ht)
  · have hne : segment.toList ≠ Glob.doubleStar := fun he => hd (String.toList_inj.mp he)
    cases names with
    | nil =>
      rw [List.map_nil, Glob.segmentsMatch, Bool.and_eq_true, beq_iff_eq] at h
      exact absurd h.1 hne
    | cons s names =>
      rw [List.map_cons, Glob.segmentsMatch, if_neg (by simpa using hne), Bool.and_eq_true] at h
      refine ⟨[s], names, rfl, ?_, h.2⟩
      rw [Covers, if_neg hd]
      split
      · exact ⟨s, rfl, hn s (by simp), h.1⟩
      · rename_i hw
        have hs := (Glob.segmentMatches_iff_of_isLiteral (isLiteral_of_not_isWild hw) _).mp h.1
        rw [String.toList_inj.mp hs]

/-- A file whose path matches is selected, unless the pattern ends in a double star. -/
theorem Regular.mem_select_of_segmentsMatch {root here : Disk} (hr : root.Regular)
    {segments path names : List String} (hp : root.find? path = some here)
    (hlast : segments.getLast? ≠ some "**") (hn : ∀ s ∈ names, IsName s) {bytes : List UInt8}
    (hf : root.find? (path ++ names) = some (.file bytes))
    (h : Glob.segmentsMatch (segments.map String.toList) (names.map String.toList) = true) :
    path ++ names ∈ select root segments path here := by
  induction segments generalizing path here names with
  | nil =>
    have hnil : names = [] := by simpa [Glob.segmentsMatch] using h
    simp [hnil, select]
  | cons segment rest ih =>
    rw [List.map_cons] at h
    obtain ⟨block, more, rfl, hc, hmore⟩ := exists_covers_of_segmentsMatch hn h
    rw [← List.append_assoc] at hf ⊢
    obtain ⟨next, hnext⟩ := exists_find?_of_append hf
    have hlater : rest ≠ [] → rest.getLast? ≠ some "**" := by
      intro hne
      rwa [List.getLast?_cons_of_ne_nil hne] at hlast
    refine (hr.mem_select_cons hp segment rest _).mpr ⟨block, next, hc, hnext, ?_, ?_⟩
    · -- the path goes on, since the pattern does not end in a double star
      intro hs
      refine isFolder_of_find?_append hnext ?_ hf
      rintro rfl
      have hstars := Glob.eq_doubleStar_of_segmentsMatch_nil hmore
      cases hl : rest.getLast? with
      | none =>
        obtain rfl := List.getLast?_eq_none_iff.mp hl
        simp_all
      | some last =>
        have hmem := List.mem_of_getLast? hl
        have hstar : last = "**" :=
          String.toList_inj.mp (hstars last.toList (List.mem_map_of_mem hmem))
        exact hlater (List.ne_nil_of_mem hmem) (hstar ▸ hl)
    · by_cases hne : rest = []
      · subst hne
        have hnil : more = [] := by simpa [Glob.segmentsMatch] using hmore
        simp [hnil, select]
      · exact ih hnext (hlater hne) (fun s hs => hn s (List.mem_append_right block hs)) hf hmore

theorem Regular.mem_select_iff {root : Disk} (hr : root.Regular) {segments names : List String}
    (hlast : segments.getLast? ≠ some "**") (hn : ∀ s ∈ names, IsName s) {bytes : List UInt8}
    (hf : root.find? names = some (.file bytes)) :
    names ∈ select root segments [] root ↔
      Glob.segmentsMatch (segments.map String.toList) (names.map String.toList) = true := by
  constructor
  · intro h
    obtain ⟨names', he, hm⟩ := hr.segmentsMatch_of_mem_select rfl h
    rwa [he, List.nil_append]
  · have hroot : root.find? [] = some root := rfl
    exact hr.mem_select_of_segmentsMatch hroot hlast hn hf

end Disk

/-! Accepted patterns. -/

theorem Settings.Metadata.exists_append_of_refuseGlob {glob : String} (h : refuseGlob glob = none) :
    ∃ front, glob.toList = front ++ ".json".toList := by
  simp only [refuseGlob] at h
  split at h
  · cases h
  · split at h
    · cases h
    · rename_i he
      rw [Bool.not_eq_true', Bool.not_eq_false, String.endsWith_eq_endsWith_toSlice,
        String.Slice.endsWith_string_iff] at he
      obtain ⟨front, hf⟩ : ".json".toList <:+ glob.toList := by simpa using he
      exact ⟨front, hf.symm⟩

/-- The last segment of an accepted pattern is kept, and stands for a single part. -/
theorem FilePath.getLast?_parts_ofText {glob : String}
    (accepted : Settings.Metadata.refuseGlob glob = none) :
    (ofText glob).parts.getLast? ≠ some "**" := by
  obtain ⟨front, hf⟩ := Settings.Metadata.exists_append_of_refuseGlob accepted
  have hslash : '/' ∉ ".json".toList := by decide
  obtain ⟨pieces, last, hs⟩ := Text.splitAt_append_of_notMem hslash front
  have hkept : (!(last ++ ".json".toList).isEmpty && last ++ ".json".toList != ['.']) = true := by
    simp [List.append_eq_cons_iff]
  rw [ofText, hf, hs, List.filter_append, List.filter_singleton, hkept]
  intro h
  have he : last ++ ".json".toList = "**".toList := by
    simpa using congrArg (Option.map String.toList) h
  have hj : 'j' ∈ "**".toList := by
    rw [← he]
    simp
  exact absurd hj (by decide)

namespace Project

variable {p : Project}

structure HasFile (p : Project) (names : List String) : Prop where
  below : names ≠ []
  proper : ∀ s ∈ names, Disk.IsName s
  content : ∃ bytes, p.disk.find? names = some (.file bytes)

theorem isRecordFile_below {names : List String} (hne : names ≠ [])
    (hn : ∀ s ∈ names, FilePath.IsPart s) :
    p.isRecordFile (p.root.join ⟨0, names⟩) =
      Glob.segmentsMatch (Text.splitAt '/' p.settings.metadata.compiledGlob.toList)
        (names.map String.toList) := by
  have htext : (FilePath.mk 0 names).toText = "/".intercalate names := by
    simp [FilePath.toText, hne]
  rw [isRecordFile, FilePath.join_below, FilePath.relativeTo?_below]
  simp only [htext, Glob.isMatch, FilePath.splitAt_intercalate hne hn]

/-- Only a plain pattern matches the path of a file: no part of it is empty or a single dot. -/
theorem HasFile.isPlain {names : List String} (h : p.HasFile names)
    (hm : p.isRecordFile (p.root.join ⟨0, names⟩) = true) :
    Glob.IsPlain p.settings.metadata.compiledGlob := by
  have hpart : ∀ s ∈ names, FilePath.IsPart s := fun s hs => (h.proper s hs).1
  rw [isRecordFile_below h.below hpart] at hm
  intro segment hs
  constructor
  · rintro rfl
    have hl : Glob.IsLiteral [] := by simp [Glob.IsLiteral]
    obtain ⟨s, hmem, he⟩ := List.mem_map.mp (Glob.mem_of_segmentsMatch hl hs hm)
    exact (hpart s hmem).1 (String.toList_eq_nil_iff.mp he)
  · rintro rfl
    have hl : Glob.IsLiteral ['.'] := by simp [Glob.IsLiteral]
    obtain ⟨s, hmem, he⟩ := List.mem_map.mp (Glob.mem_of_segmentsMatch hl hs hm)
    exact (hpart s hmem).2.1 (String.toList_inj.mp he)

theorem exists_discover_iff : (∃ paths, p.discover = .ok paths) ↔
    ∀ segment ∈ (FilePath.ofText p.settings.metadata.compiledGlob).parts,
      Disk.isBadSegment segment = false := by
  have hbad : (FilePath.ofText p.settings.metadata.compiledGlob).parts.any Disk.isBadSegment = false ↔
      ∀ segment ∈ (FilePath.ofText p.settings.metadata.compiledGlob).parts,
        Disk.isBadSegment segment = false := by simp [List.any_eq_false]
  rw [← hbad, discover, Disk.glob]
  cases (FilePath.ofText p.settings.metadata.compiledGlob).parts.any Disk.isBadSegment <;> simp

theorem join_below_injective {root : FilePath} {a b : List String}
    (h : root.join ⟨0, a⟩ = root.join ⟨0, b⟩) : a = b := by
  simpa using h

/-- A file is found if and only if the segments that mean something match its path. -/
theorem HasFile.mem_discover_iff {names : List String} (h : p.HasFile names)
    (regular : p.disk.Regular)
    (accepted : Settings.Metadata.refuseGlob p.settings.metadata.compiledGlob = none)
    {paths : List FilePath} (hd : p.discover = .ok paths) :
    p.root.join ⟨0, names⟩ ∈ paths ↔
      Glob.segmentsMatch ((FilePath.ofText p.settings.metadata.compiledGlob).parts.map String.toList)
        (names.map String.toList) = true := by
  obtain ⟨bytes, hf⟩ := h.content
  have hfiles : p.recordFiles = paths := by rw [recordFiles, hd]
  rw [← hfiles, mem_recordFiles,
    ← regular.mem_select_iff (FilePath.getLast?_parts_ofText accepted) h.proper hf]
  constructor
  · rintro ⟨-, names', -, he, hs, -⟩
    rwa [join_below_injective he]
  · intro hs
    exact ⟨⟨paths, hd⟩, names, bytes, rfl, hs, hf⟩

/-- A file whose path is that of a record file is found, unless the pattern has segments that mean
nothing; with such a segment, no file's path is that of a record file. -/
theorem HasFile.isRecordFile_iff {names : List String} (h : p.HasFile names)
    (regular : p.disk.Regular)
    (accepted : Settings.Metadata.refuseGlob p.settings.metadata.compiledGlob = none)
    {paths : List FilePath} (hd : p.discover = .ok paths) :
    p.isRecordFile (p.root.join ⟨0, names⟩) = true ↔
      Glob.IsPlain p.settings.metadata.compiledGlob ∧ p.root.join ⟨0, names⟩ ∈ paths := by
  have hpart : ∀ s ∈ names, FilePath.IsPart s := fun s hs => (h.proper s hs).1
  rw [h.mem_discover_iff regular accepted hd]
  constructor
  · intro hm
    have plain := h.isPlain hm
    rw [isRecordFile_below h.below hpart, ← FilePath.parts_ofText_plain plain] at hm
    exact ⟨plain, hm⟩
  · rintro ⟨plain, hs⟩
    rw [isRecordFile_below h.below hpart, ← FilePath.parts_ofText_plain plain]
    exact hs

/-- Every path that is found by a plain pattern is that of a record file, also one that goes up. -/
theorem isRecordFile_of_mem_discover (regular : p.disk.Regular)
    (plain : Glob.IsPlain p.settings.metadata.compiledGlob) {paths : List FilePath}
    (hd : p.discover = .ok paths) {path : FilePath} (hp : path ∈ paths) :
    p.isRecordFile path = true := by
  have hfiles : p.recordFiles = paths := by rw [recordFiles, hd]
  rw [← hfiles, mem_recordFiles] at hp
  obtain ⟨-, names, bytes, rfl, hs, hf⟩ := hp
  rw [isRecordFile, FilePath.join_below, FilePath.relativeTo?_below]
  exact regular.isMatch_of_mem_select plain hf hs

/-- The files that are found under an accepted pattern, and those whose changes are followed. They
are the same for a plain pattern. For any other pattern no change of a file is followed, so that they
are the same only where no file is found. -/
theorem discover_and_isRecordFile (regular : p.disk.Regular)
    (accepted : Settings.Metadata.refuseGlob p.settings.metadata.compiledGlob = none) :
    ((∃ paths, p.discover = .ok paths) ↔
      ∀ segment ∈ (FilePath.ofText p.settings.metadata.compiledGlob).parts,
        Disk.isBadSegment segment = false) ∧
    ∀ paths, p.discover = .ok paths →
      (∀ names, p.HasFile names →
        (p.root.join ⟨0, names⟩ ∈ paths ↔
          Glob.segmentsMatch
            ((FilePath.ofText p.settings.metadata.compiledGlob).parts.map String.toList)
            (names.map String.toList) = true) ∧
        (p.isRecordFile (p.root.join ⟨0, names⟩) = true ↔
          Glob.IsPlain p.settings.metadata.compiledGlob ∧ p.root.join ⟨0, names⟩ ∈ paths)) ∧
      (Glob.IsPlain p.settings.metadata.compiledGlob →
        ∀ path ∈ paths, p.isRecordFile path = true) ∧
      ((∀ names, p.HasFile names →
          (p.root.join ⟨0, names⟩ ∈ paths ↔ p.isRecordFile (p.root.join ⟨0, names⟩) = true)) ↔
        Glob.IsPlain p.settings.metadata.compiledGlob ∨
          ∀ names, p.HasFile names → p.root.join ⟨0, names⟩ ∉ paths) := by
  refine ⟨exists_discover_iff, fun paths hd => ⟨?_, ?_, ?_, ?_⟩⟩
  · intro names h
    exact ⟨h.mem_discover_iff regular accepted hd, h.isRecordFile_iff regular accepted hd⟩
  · intro plain path hp
    exact isRecordFile_of_mem_discover regular plain hd hp
  · intro same
    by_cases plain : Glob.IsPlain p.settings.metadata.compiledGlob
    · exact .inl plain
    · refine .inr fun names h hp => plain ?_
      exact ((h.isRecordFile_iff regular accepted hd).mp ((same names h).mp hp)).1
  · rintro (plain | nothing) names h
    · rw [h.isRecordFile_iff regular accepted hd]
      simp [plain]
    · rw [h.isRecordFile_iff regular accepted hd]
      exact iff_of_false (nothing names h) fun hm => nothing names h hm.2

def under (pattern : String) : Project :=
  fresh ⟨1, ["app"]⟩
    { Settings.default with
      metadata := { Settings.Metadata.default with compiledGlob := pattern } }
    .script (Disk.put (.file []) ["compiled", "A.json"] .empty)

theorem regular_under (pattern : String) : (under pattern).disk.Regular :=
  Disk.Regular.put (.file []) Disk.regular_empty (by decide +kernel)

theorem hasFile_under (pattern : String) : (under pattern).HasFile ["compiled", "A.json"] :=
  ⟨by simp, by decide +kernel, [], rfl⟩

theorem under_sound (pattern : String)
    (h : (FilePath.ofText pattern).parts = ["compiled", "*.json"]) :
    (∀ segment ∈ (FilePath.ofText (under pattern).settings.metadata.compiledGlob).parts,
      Disk.isBadSegment segment = false) ∧
    Glob.segmentsMatch
      ((FilePath.ofText (under pattern).settings.metadata.compiledGlob).parts.map String.toList)
      (["compiled", "A.json"].map String.toList) = true := by
  have hglob : (under pattern).settings.metadata.compiledGlob = pattern := rfl
  have hpieces : Glob.pieces "*.json".toList =
      [.star, .char '.', .char 'j', .char 's', .char 'o', .char 'n'] := by simp [Glob.pieces]
  have hfile : Glob.segmentMatches "*.json".toList "A.json".toList = true := by
    rw [Glob.segmentMatches, hpieces]
    decide
  have hfolder : Glob.segmentMatches "compiled".toList "compiled".toList = true :=
    Glob.segmentMatches_self (by simp)
  rw [hglob, h]
  refine ⟨by decide +kernel, ?_⟩
  have hfirst : ("compiled".toList == Glob.doubleStar) = false := by decide
  have hsecond : ("*.json".toList == Glob.doubleStar) = false := by decide
  simp only [List.map_cons, List.map_nil, Glob.segmentsMatch, hfirst, hsecond, hfile, hfolder,
    Bool.false_eq_true, if_false, List.isEmpty_nil, Bool.and_self]

theorem under_plain_found_and_followed :
    (under "compiled/*.json").disk.Regular ∧
    Settings.Metadata.refuseGlob (under "compiled/*.json").settings.metadata.compiledGlob = none ∧
    (under "compiled/*.json").HasFile ["compiled", "A.json"] ∧
    ∃ paths, (under "compiled/*.json").discover = .ok paths ∧
      (under "compiled/*.json").root.join ⟨0, ["compiled", "A.json"]⟩ ∈ paths ∧
      (under "compiled/*.json").isRecordFile
        ((under "compiled/*.json").root.join ⟨0, ["compiled", "A.json"]⟩) = true := by
  have regular := regular_under "compiled/*.json"
  have accepted : Settings.Metadata.refuseGlob "compiled/*.json" = none := by decide +kernel
  have plain : Glob.IsPlain "compiled/*.json" := by decide +kernel
  have hfile := hasFile_under "compiled/*.json"
  obtain ⟨hsound, hmatch⟩ := under_sound "compiled/*.json" (by decide +kernel)
  obtain ⟨hok, hfound⟩ := discover_and_isRecordFile regular accepted
  obtain ⟨paths, hd⟩ := hok.mpr hsound
  obtain ⟨hfiles, hall, -⟩ := hfound paths hd
  have hmem := (hfiles _ hfile).1.mpr hmatch
  exact ⟨regular, accepted, hfile, paths, hd, hmem, hall plain _ hmem⟩

/-- With a single dot in front, the file is found, and its changes are not followed. -/
theorem under_dotted_found_not_followed :
    (under "./compiled/*.json").disk.Regular ∧
    Settings.Metadata.refuseGlob (under "./compiled/*.json").settings.metadata.compiledGlob = none ∧
    (under "./compiled/*.json").HasFile ["compiled", "A.json"] ∧
    ∃ paths, (under "./compiled/*.json").discover = .ok paths ∧
      (under "./compiled/*.json").root.join ⟨0, ["compiled", "A.json"]⟩ ∈ paths ∧
      (under "./compiled/*.json").isRecordFile
        ((under "./compiled/*.json").root.join ⟨0, ["compiled", "A.json"]⟩) = false := by
  have accepted : Settings.Metadata.refuseGlob "./compiled/*.json" = none := by decide +kernel
  have hfile := hasFile_under "./compiled/*.json"
  obtain ⟨hsound, hmatch⟩ := under_sound "./compiled/*.json" (by decide +kernel)
  obtain ⟨paths, hd⟩ := exists_discover_iff.mpr hsound
  have hmem := (hfile.mem_discover_iff (regular_under _) accepted hd).mpr hmatch
  refine ⟨regular_under _, accepted, hfile, paths, hd, hmem, ?_⟩
  rw [Bool.eq_false_iff]
  intro hm
  have plain : Glob.IsPlain "./compiled/*.json" := hfile.isPlain hm
  exact absurd plain (by decide +kernel)

end Project
end ScriptSense
