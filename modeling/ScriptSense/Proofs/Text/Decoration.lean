import Mathlib.Data.List.DropRight
import ScriptSense.Proofs.Text.Segments
import ScriptSense.TypeText

/-! What is taken off the text of a type: the blanks at its ends, and on each line the decoration from
the first `<` to the last `>`. The reach of decoration is told by how a line is cut, and text behind it
that has no `>` does not matter. Nothing is left of a type exactly if it is nothing but decoration. -/
namespace ScriptSense

namespace Text

theorem trim_eq (t : List Char) : trim t = (t.dropWhile isBlank).rdropWhile isBlank := rfl

theorem notMem_of_blank {t : List Char} (h : ∀ c ∈ t, isBlank c = true) {c : Char}
    (hc : isBlank c = false) : c ∉ t := by
  intro hmem
  rw [h c hmem] at hc
  cases hc

theorem dropWhile_of_blank {t : List Char} (h : ∀ c ∈ t, isBlank c = true) :
    t.dropWhile isBlank = [] := List.dropWhile_eq_nil_iff.mpr h

theorem trim_append_left {front : List Char} (h : ∀ c ∈ front, isBlank c = true) (t : List Char) :
    trim (front ++ t) = trim t := by
  rw [trim_eq, List.dropWhile_append_of_pos h, trim_eq]

theorem trim_append_right {back : List Char} (h : ∀ c ∈ back, isBlank c = true) (t : List Char) :
    trim (t ++ back) = trim t := by
  have hback : ∀ u : List Char, (u ++ back).rdropWhile isBlank = u.rdropWhile isBlank := by
    intro u
    have hrev : ∀ c ∈ back.reverse, isBlank c = true := fun c hc => h c (List.mem_reverse.mp hc)
    rw [List.rdropWhile, List.reverse_append, List.dropWhile_append_of_pos hrev, List.rdropWhile]
  rw [trim_eq, List.dropWhile_append, trim_eq]
  split
  · rename_i hempty
    rw [List.isEmpty_iff.mp hempty, dropWhile_of_blank h]
  · exact hback _

theorem dropWhile_append_cons {c : Char} (hc : isBlank c = false) (front rest : List Char) :
    (front ++ c :: rest).dropWhile isBlank = front.dropWhile isBlank ++ c :: rest := by
  induction front with
  | nil => simp [hc]
  | cons d ds ih =>
    by_cases hd : isBlank d = true
    · simp [hd, ih]
    · simp [hd]

theorem rdropWhile_append_cons {c : Char} (hc : isBlank c = false) (front back : List Char) :
    (front ++ c :: back).rdropWhile isBlank = front ++ c :: back.rdropWhile isBlank := by
  have hrev := dropWhile_append_cons hc back.reverse front.reverse
  simp [List.rdropWhile, hrev]

theorem trim_append_cons {c : Char} (hc : isBlank c = false) (front back : List Char) :
    trim (front ++ c :: back) = front.dropWhile isBlank ++ c :: back.rdropWhile isBlank := by
  rw [trim_eq, dropWhile_append_cons hc, rdropWhile_append_cons hc]

theorem exists_trim (t : List Char) : ∃ front back, t = front ++ trim t ++ back ∧
    (∀ c ∈ front, isBlank c = true) ∧ ∀ c ∈ back, isBlank c = true := by
  refine ⟨t.takeWhile isBlank, (t.dropWhile isBlank).rtakeWhile isBlank, ?_,
    fun c hc => List.mem_takeWhile_imp hc, fun c hc => List.mem_rtakeWhile_imp hc⟩
  rw [trim_eq, List.append_assoc, List.rdropWhile_append_rtakeWhile,
    List.takeWhile_append_dropWhile]

theorem trim_isInfix (t : List Char) : trim t <:+: t := by
  obtain ⟨front, back, ht, -⟩ := exists_trim t
  exact ⟨front, back, ht.symm⟩

theorem mem_of_mem_trim {t : List Char} {c : Char} (h : c ∈ trim t) : c ∈ t :=
  (trim_isInfix t).mem h

/-- Taking blanks off the end brings no blank to the front. -/
theorem trim_trim (t : List Char) : trim (trim t) = trim t := by
  have hfront : (trim t).dropWhile isBlank = trim t := by
    rw [trim_eq, List.dropWhile_eq_self_iff]
    intro hpos
    rw [(List.rdropWhile_prefix isBlank (t.dropWhile isBlank)).getElem hpos]
    exact List.dropWhile_get_zero_not isBlank t _
  rw [trim_eq (trim t), hfront, trim_eq, List.rdropWhile_idempotent]

theorem mem_trim {t : List Char} {c : Char} (h : c ∈ t) (hc : isBlank c = false) : c ∈ trim t := by
  obtain ⟨front, back, ht, hfront, hback⟩ := exists_trim t
  rw [ht, List.mem_append, List.mem_append] at h
  rcases h with (h | h) | h
  · exact absurd h (notMem_of_blank hfront hc)
  · exact h
  · exact absurd h (notMem_of_blank hback hc)

theorem trim_eq_nil_iff (t : List Char) : trim t = [] ↔ ∀ c ∈ t, isBlank c = true := by
  constructor
  · intro h c hc
    by_contra hblank
    have hmem := mem_trim hc (by simpa using hblank)
    rw [h] at hmem
    cases hmem
  · intro h
    rw [trim_eq, dropWhile_of_blank h]
    rfl

theorem exists_splitAt (separator : Char) (t : List Char) :
    ∃ pieces, splitAt separator t = t.takeWhile (· != separator) :: pieces := by
  induction t with
  | nil => exact ⟨[], rfl⟩
  | cons c cs ih =>
    obtain ⟨pieces, hpieces⟩ := ih
    by_cases hc : c = separator
    · exact ⟨splitAt separator cs, by simp [splitAt, hc]⟩
    · exact ⟨pieces, by simp [splitAt, hc, hpieces]⟩

end Text

namespace TypeText

open Text

variable {c : Char} {t : List Char}

theorem afterLast?_eq_none_iff : afterLast? c t = none ↔ c ∉ t := by
  induction t with
  | nil => simp [afterLast?]
  | cons d ds ih =>
    rw [afterLast?, List.mem_cons, not_or, ← ih]
    cases h : afterLast? c ds with
    | some rest => simp
    | none =>
      have hsym : d = c ↔ c = d := eq_comm
      simp [hsym]

theorem afterLast?_append {back : List Char} (h : c ∉ back) (front : List Char) :
    afterLast? c (front ++ back) = (afterLast? c front).map (· ++ back) := by
  induction front with
  | nil => rw [List.nil_append, afterLast?_eq_none_iff.mpr h]; rfl
  | cons d ds ih =>
    rw [List.cons_append, afterLast?, ih, afterLast?]
    cases afterLast? c ds with
    | some rest => rfl
    | none =>
      dsimp only [Option.map_none]
      split <;> rfl

theorem afterLast?_append_cons {rest : List Char} (h : c ∉ rest) (front : List Char) :
    afterLast? c (front ++ c :: rest) = some rest := by
  induction front with
  | nil => simp [afterLast?, afterLast?_eq_none_iff.mpr h]
  | cons d ds ih => rw [List.cons_append, afterLast?, ih]

theorem beforeLast?_eq_none_iff : beforeLast? c t = none ↔ c ∉ t := by
  induction t with
  | nil => simp [beforeLast?]
  | cons d ds ih =>
    rw [beforeLast?, List.mem_cons, not_or, ← ih]
    cases h : beforeLast? c ds with
    | some front => simp
    | none =>
      have hsym : d = c ↔ c = d := eq_comm
      simp [hsym]

theorem beforeLast?_append_cons {rest : List Char} (h : c ∉ rest) (front : List Char) :
    beforeLast? c (front ++ c :: rest) = some front := by
  induction front with
  | nil => simp [beforeLast?, beforeLast?_eq_none_iff.mpr h]
  | cons d ds ih => rw [List.cons_append, beforeLast?, ih]

theorem exists_last (h : c ∈ t) : ∃ front rest, t = front ++ c :: rest ∧ c ∉ rest := by
  induction t with
  | nil => cases h
  | cons d ds ih =>
    by_cases hds : c ∈ ds
    · obtain ⟨front, rest, rfl, hrest⟩ := ih hds
      exact ⟨d :: front, rest, rfl, hrest⟩
    · obtain rfl := (List.mem_cons.mp h).resolve_right hds
      exact ⟨[], ds, rfl, hds⟩

theorem exists_first (h : c ∈ t) : ∃ front rest, t = front ++ c :: rest ∧ c ∉ front := by
  obtain ⟨front, rest, ht, hfront⟩ := exists_last (List.mem_reverse.mpr h)
  refine ⟨rest.reverse, front.reverse, ?_, by simpa using hfront⟩
  rw [← List.reverse_reverse t, ht]
  simp

theorem append_cons_eq_cases {d : Char} (hne : c ≠ d) {a b front back : List Char}
    (h : a ++ c :: b = front ++ d :: back) :
    (∃ more, front = a ++ c :: more ∧ b = more ++ d :: back) ∨
      ∃ more, a = front ++ d :: more ∧ back = more ++ c :: b := by
  rcases List.append_eq_append_iff.mp h with ⟨more, hfront, hb⟩ | ⟨more, ha, hback⟩
  · rcases List.cons_eq_append_iff.mp hb with ⟨-, he⟩ | ⟨later, rfl, hlater⟩
    · exact absurd (List.cons.inj he).1.symm hne
    · exact Or.inl ⟨later, hfront, hlater⟩
  · rcases List.cons_eq_append_iff.mp hback with ⟨-, he⟩ | ⟨later, rfl, hlater⟩
    · exact absurd (List.cons.inj he).1 hne
    · exact Or.inr ⟨later, ha, hlater⟩

/-! Decoration on a line. -/

theorem stripLine_append {front : List Char} (h : '<' ∉ front) (rest : List Char) :
    stripLine (front ++ rest) = front ++ stripLine rest := by
  induction front with
  | nil => rfl
  | cons d ds ih =>
    rw [List.mem_cons, not_or] at h
    have hd : ¬ d = '<' := fun he => h.1 he.symm
    simp [stripLine, hd, ih h.2]

theorem stripLine_of_notMem {line : List Char} (h : '<' ∉ line) : stripLine line = line := by
  simpa [stripLine] using stripLine_append h []

theorem stripLine_decorated {front back : List Char} (hfront : '<' ∉ front) (hback : '>' ∉ back)
    (inner : List Char) : stripLine (front ++ '<' :: (inner ++ '>' :: back)) = front ++ back := by
  rw [stripLine_append hfront, stripLine]
  simp [afterLast?_append_cons hback]

/-- What closes no decoration stays, if it begins behind the opening or opens none. -/
theorem stripLine_append_right {back : List Char} (hclose : '>' ∉ back) {line : List Char}
    (hopen : '<' ∈ line ∨ '<' ∉ back) : stripLine (line ++ back) = stripLine line ++ back := by
  induction line with
  | nil =>
    have hno : '<' ∉ back := hopen.resolve_left (by simp)
    rw [List.nil_append, stripLine_of_notMem hno]
    rfl
  | cons d ds ih =>
    by_cases hd : d = '<'
    · simp only [List.cons_append, stripLine, hd, afterLast?_append hclose]
      cases afterLast? '>' ds <;> rfl
    · have hds : '<' ∈ ds ∨ '<' ∉ back := by
        refine hopen.imp_left ?_
        intro hmem
        exact (List.mem_cons.mp hmem).resolve_left fun he => hd he.symm
      simp [stripLine, hd, ih hds]

/-- What is left of a line is what comes before its decoration and what comes behind it. -/
theorem exists_stripLine (line : List Char) : ∃ front back, stripLine line = front ++ back ∧
    '<' ∉ front ∧ '>' ∉ back ∧
    (line = front ++ back ∨ ∃ inner, line = front ++ '<' :: (inner ++ '>' :: back)) := by
  by_cases ho : '<' ∈ line
  · obtain ⟨front, rest, rfl, hfront⟩ := exists_first ho
    by_cases hc : '>' ∈ rest
    · obtain ⟨inner, back, rfl, hback⟩ := exists_last hc
      exact ⟨front, back, stripLine_decorated hfront hback inner, hfront, hback, Or.inr ⟨inner, rfl⟩⟩
    · refine ⟨front, '<' :: rest, ?_, hfront, by simpa using hc, Or.inl rfl⟩
      rw [stripLine_append hfront, stripLine, afterLast?_eq_none_iff.mpr hc]
      rfl
  · refine ⟨line, [], ?_, ho, List.not_mem_nil, Or.inl (List.append_nil line).symm⟩
    rw [stripLine_of_notMem ho, List.append_nil]

theorem mem_of_mem_stripLine {line : List Char} (h : c ∈ stripLine line) : c ∈ line := by
  obtain ⟨front, back, hstrip, -, -, hline⟩ := exists_stripLine line
  rw [hstrip, List.mem_append] at h
  rcases hline with rfl | ⟨inner, rfl⟩ <;> rcases h with h | h <;> simp [h]

theorem stripGenerics_of_line (h : '\n' ∉ t) : stripGenerics t = trim (stripLine t) := by
  rw [stripGenerics, splitAt_of_notMem h]
  rfl

theorem stripGenerics_trim (h : '\n' ∉ t) : stripGenerics (trim t) = stripGenerics t := by
  obtain ⟨front, back, ht, hfront, hback⟩ := exists_trim t
  have hstrip : stripLine t = front ++ (stripLine (trim t) ++ back) := by
    conv_lhs => rw [ht]
    rw [List.append_assoc, stripLine_append (notMem_of_blank hfront (by decide)),
      stripLine_append_right (notMem_of_blank hback (by decide))
        (Or.inr (notMem_of_blank hback (by decide)))]
  rw [stripGenerics_of_line h, stripGenerics_of_line fun hm => h (mem_of_mem_trim hm), hstrip,
    trim_append_left hfront, trim_append_right hback]

/-- Nothing but decoration: every line is blank, apart from one stretch of decoration at most. -/
def IsHollow (t : List Char) : Prop :=
  ∀ line ∈ splitAt '\n' t, ∃ front back, (∀ c ∈ front, isBlank c = true) ∧
    (∀ c ∈ back, isBlank c = true) ∧
    (line = front ++ back ∨ ∃ inner, line = front ++ '<' :: (inner ++ '>' :: back))

theorem mem_joinWith (separator : Char) {pieces : List (List Char)} :
    c ∈ joinWith [separator] pieces →
      c = separator ∨ ∃ piece ∈ pieces, c ∈ piece := by
  induction pieces with
  | nil => exact fun h => absurd h List.not_mem_nil
  | cons piece pieces ih =>
    cases pieces with
    | nil => exact fun h => Or.inr ⟨piece, by simp, h⟩
    | cons next more =>
      intro h
      rw [joinWith, List.mem_append, List.mem_append] at h
      rcases h with (h | h) | h
      · exact Or.inr ⟨piece, by simp, h⟩
      · exact Or.inl (List.mem_singleton.mp h)
      · refine (ih h).imp_right ?_
        rintro ⟨other, hmem, hc⟩
        exact ⟨other, List.mem_cons_of_mem _ hmem, hc⟩
      · simp

/-- A line of which blanks are left is blank, or has blanks around its decoration. -/
theorem blank_stripLine_iff (line : List Char) : (∀ c ∈ stripLine line, isBlank c = true) ↔
    ∃ front back, (∀ c ∈ front, isBlank c = true) ∧ (∀ c ∈ back, isBlank c = true) ∧
      (line = front ++ back ∨ ∃ inner, line = front ++ '<' :: (inner ++ '>' :: back)) := by
  constructor
  · intro h
    obtain ⟨front, back, hstrip, -, -, hline⟩ := exists_stripLine line
    rw [hstrip] at h
    exact ⟨front, back, fun c hc => h c (by simp [hc]), fun c hc => h c (by simp [hc]), hline⟩
  · rintro ⟨front, back, hfront, hback, rfl | ⟨inner, rfl⟩⟩
    · have hplain : '<' ∉ front ++ back := by
        simp [notMem_of_blank hfront (show isBlank '<' = false by decide),
          notMem_of_blank hback (show isBlank '<' = false by decide)]
      rw [stripLine_of_notMem hplain]
      intro c hc
      exact (List.mem_append.mp hc).elim (hfront c) (hback c)
    · rw [stripLine_decorated (notMem_of_blank hfront (by decide))
        (notMem_of_blank hback (by decide))]
      intro c hc
      exact (List.mem_append.mp hc).elim (hfront c) (hback c)

theorem stripGenerics_eq_nil_iff (t : List Char) : stripGenerics t = [] ↔ IsHollow t := by
  rw [stripGenerics, trim_eq_nil_iff]
  constructor
  · intro h line hline
    rw [← blank_stripLine_iff]
    intro c hc
    exact h c ((infix_joinWith_of_mem ['\n'] (List.mem_map_of_mem hline)).mem hc)
  · intro h c hc
    rcases mem_joinWith '\n' hc with rfl | ⟨piece, hpiece, hc⟩
    · decide
    · obtain ⟨line, hline, rfl⟩ := List.mem_map.mp hpiece
      exact (blank_stripLine_iff line).mpr (h line hline) c hc

end TypeText
end ScriptSense
