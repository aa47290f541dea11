import ScriptSense.Proofs.Disk.Selection

/-! Patterns that are written plainly, without empty segments and single dots. Such a pattern matches
the path of every file that it selects on a disk. -/
namespace ScriptSense

namespace Glob

/-- A pattern without segments that mean nothing on a disk. -/
def IsPlain (pattern : String) : Prop :=
  ∀ segment ∈ Text.splitAt '/' pattern.toList, segment ≠ [] ∧ segment ≠ ['.']

instance (pattern : String) : Decidable (IsPlain pattern) :=
  inferInstanceAs (Decidable (∀ _ ∈ _, _))

theorem coverage_ne_nil (text : List Char) (pattern : List Piece) : coverage text pattern ≠ [] := by
  induction pattern with
  | nil => simp [coverage]
  | cons piece more ih =>
    cases piece with
    | star =>
      obtain ⟨b, bs, hb⟩ := List.exists_cons_of_ne_nil ih
      simp [coverage, hb, orLater]
    | any => simp [coverage]
    | set negated items => simp [coverage]
    | char c => simp [coverage]

theorem coverage_step {piece : Piece} (h : piece ≠ .star) (text : List Char) (more : List Piece) :
    coverage text (piece :: more) =
      List.zipWith (fun c rest => piece.accepts c && rest) text (coverage text more).tail ++
        [false] := by
  cases piece with
  | star => exact absurd rfl h
  | any => rfl
  | set negated items => rfl
  | char c => rfl

/-- What is known of the shorter tails of a text does not depend on its first character. -/
theorem tail_coverage_cons (c : Char) (text : List Char) (pattern : List Piece) :
    (coverage (c :: text) pattern).tail = coverage text pattern := by
  induction pattern with
  | nil => rfl
  | cons piece more ih =>
    obtain ⟨b, bs, hb⟩ := List.exists_cons_of_ne_nil (coverage_ne_nil (c :: text) more)
    rw [hb, List.tail_cons] at ih
    by_cases hp : piece = .star
    · simp [hp, coverage, hb, ih, orLater]
    · obtain ⟨d, ds, hd⟩ := List.exists_cons_of_ne_nil (coverage_ne_nil text more)
      simp [coverage_step hp, hb, ih, hd]

theorem covers_nil {piece : Piece} (h : piece ≠ .star) (more : List Piece) :
    covers (piece :: more) [] = false := by
  simp [covers, coverage_step h]

theorem covers_cons {piece : Piece} (h : piece ≠ .star) (more : List Piece) (c : Char)
    (text : List Char) :
    covers (piece :: more) (c :: text) = (piece.accepts c && covers more text) := by
  obtain ⟨d, ds, hd⟩ := List.exists_cons_of_ne_nil (coverage_ne_nil text more)
  simp [covers, coverage_step h, tail_coverage_cons, hd]

theorem pieces_char {c : Char} (hstar : c ≠ '*') (hany : c ≠ '?') (hset : c ≠ '[')
    (rest : List Char) : pieces (c :: rest) = .char c :: pieces rest := by
  rw [pieces] <;> simp_all

theorem segmentMatches_self {segment : List Char}
    (h : ∀ c ∈ segment, c ≠ '*' ∧ c ≠ '?' ∧ c ≠ '[') : segmentMatches segment segment = true := by
  induction segment with
  | nil => simp [segmentMatches, pieces, covers, coverage]
  | cons c rest ih =>
    obtain ⟨hstar, hany, hset⟩ := h c (by simp)
    have hrest : segmentMatches rest rest = true := ih fun d hd => h d (by simp [hd])
    rw [segmentMatches, pieces_char hstar hany hset, covers_cons (by simp), ← segmentMatches, hrest]
    simp [Piece.accepts]

end Glob

namespace Disk

open Glob (segmentsMatch)

theorem segmentsMatch_doubleStar {rest parts : List (List Char)} (h : segmentsMatch rest parts = true)
    (names : List (List Char)) :
    segmentsMatch (Glob.doubleStar :: rest) (names ++ parts) = true := by
  induction names with
  | nil =>
    cases parts with
    | nil => simp [segmentsMatch, h]
    | cons part parts => simp [segmentsMatch, h]
  | cons name names ih => simp [segmentsMatch, ih]

theorem Covers.segmentsMatch {segment : String} {names : List String} (hc : Covers segment names)
    {rest parts : List (List Char)} (h : Glob.segmentsMatch rest parts = true) :
    Glob.segmentsMatch (segment.toList :: rest) (names.map String.toList ++ parts) = true := by
  unfold Covers at hc
  by_cases hd : segment = "**"
  · subst hd
    exact segmentsMatch_doubleStar h _
  · have hne : (segment.toList == Glob.doubleStar) = false := by
      rw [beq_eq_false_iff_ne]
      intro he
      exact hd (String.toList_inj.mp he)
    rw [if_neg hd] at hc
    split at hc
    · obtain ⟨s, rfl, -, hs⟩ := hc
      simp [Glob.segmentsMatch, hne, hs, h]
    · rename_i hw
      subst hc
      have hself : Glob.segmentMatches segment.toList segment.toList = true := by
        refine Glob.segmentMatches_self ?_
        simpa [isWild, not_or, and_assoc] using hw
      simp [Glob.segmentsMatch, hne, hself, h]

theorem Regular.segmentsMatch_of_mem_select {root here : Disk} (hr : root.Regular)
    {segments path : List String} (hp : root.find? path = some here) {q : List String}
    (hq : q ∈ select root segments path here) :
    ∃ names, q = path ++ names ∧
      segmentsMatch (segments.map String.toList) (names.map String.toList) = true := by
  induction segments generalizing path here with
  | nil =>
    have he : q = path := by simpa [select] using hq
    exact ⟨[], by simp [he], by simp [segmentsMatch]⟩
  | cons segment rest ih =>
    obtain ⟨names, next, hc, hfound, -, hlater⟩ := (hr.mem_select_cons hp segment rest q).mp hq
    obtain ⟨more, rfl, hmore⟩ := ih hfound hlater
    refine ⟨names ++ more, by simp, ?_⟩
    rw [List.map_append]
    exact hc.segmentsMatch hmore

theorem Regular.ne_nil_of_mem_select {root : Disk} (hr : root.Regular) {segments q : List String}
    (hs : segments ≠ []) {bytes : List UInt8} (hf : root.find? q = some (.file bytes))
    (hq : q ∈ select root segments [] root) : q ≠ [] := by
  rintro rfl
  obtain ⟨segment, rest, rfl⟩ := List.exists_cons_of_ne_nil hs
  obtain ⟨names, next, hc, hfound, hfolder, hlater⟩ := (hr.mem_select_cons rfl segment rest _).mp hq
  rw [List.nil_append] at hfound hlater
  obtain rfl : names = [] := List.prefix_nil.mp (hr.prefix_of_mem_select hfound hlater)
  have hstar : segment = "**" := by
    unfold Covers at hc
    split at hc
    · assumption
    · simp at hc
  obtain rfl : next = .file bytes := Option.some.inj (hfound.symm.trans hf)
  exact absurd (hfolder (Or.inl hstar)) (by simp [isFolder])

end Disk

namespace FilePath

theorem splitAt_intercalate {parts : List String} (hne : parts ≠ [])
    (h : ∀ s ∈ parts, IsPart s) :
    Text.splitAt '/' ("/".intercalate parts).toList = parts.map String.toList := by
  induction parts with
  | nil => exact absurd rfl hne
  | cons s rest ih =>
    have hs : Text.splitAt '/' s.toList = [s.toList] :=
      Text.splitAt_of_notMem (h s (by simp)).2.2
    by_cases hr : rest = []
    · simpa [hr] using hs
    · rw [String.intercalate_cons_of_ne_nil hr]
      have hl : (s ++ "/" ++ "/".intercalate rest).toList =
          s.toList ++ '/' :: ("/".intercalate rest).toList := by simp [String.toList_append]
      rw [hl, Text.splitAt_append, hs, ih hr fun t ht => h t (by simp [ht])]
      rfl

theorem parts_ofText_plain {pattern : String} (h : Glob.IsPlain pattern) :
    (ofText pattern).parts.map String.toList = Text.splitAt '/' pattern.toList := by
  have hall : (Text.splitAt '/' pattern.toList).filter (fun p => !p.isEmpty && p != ['.']) =
      Text.splitAt '/' pattern.toList := by
    rw [List.filter_eq_self]
    intro segment hs
    simpa using h segment hs
  simp [ofText, hall, Function.comp_def]

end FilePath

theorem Disk.Regular.isMatch_of_mem_select {disk : Disk} (hr : disk.Regular) {pattern : String}
    (plain : Glob.IsPlain pattern) {q : List String} {bytes : List UInt8}
    (hf : disk.find? q = some (.file bytes))
    (hq : q ∈ disk.select (FilePath.ofText pattern).parts [] disk) :
    Glob.isMatch pattern.toList (FilePath.mk 0 q).toText.toList = true := by
  have hparts := FilePath.parts_ofText_plain plain
  have hs : (FilePath.ofText pattern).parts ≠ [] := by
    intro he
    rw [he] at hparts
    exact Text.splitAt_ne_nil _ _ hparts.symm
  have hne : q ≠ [] := hr.ne_nil_of_mem_select hs hf hq
  have hq' : ∀ s ∈ q, FilePath.IsPart s :=
    hr.isPart_of_mem_select rfl (fun s hm => FilePath.isPart_of_mem_ofText hm) (by simp) hq
  have htext : (FilePath.mk 0 q).toText = "/".intercalate q := by
    simp [FilePath.toText, hne]
  obtain ⟨names, rfl, hmatch⟩ := hr.segmentsMatch_of_mem_select rfl hq
  rw [Glob.isMatch, ← hparts, htext, FilePath.splitAt_intercalate hne hq']
  exact hmatch

end ScriptSense
