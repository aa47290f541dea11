import ScriptSense.Proofs.Text.Decoration
import ScriptSense.Record.Doc

/-! The type that documentation gives a variable. A type tag names the type in braces and may go on
with a description. The braces are taken to reach to the last closing brace of the line, so that a
description with a closing brace on the first line is taken for a part of the type. Main statement:
what is read is the type exactly if the first line of the description has no closing brace, or if
decoration of the type ends late enough in the description to cover the brace. -/
namespace ScriptSense
namespace Doc

open Text TypeText

/-- A text that braces may hold as a type: it is not blank, and stands on a line without braces. -/
structure IsPlainType (type : List Char) : Prop where
  opening : '\x7b' ∉ type
  closing : '\x7d' ∉ type
  line : '\n' ∉ type
  notBlank : ∃ c ∈ type, isBlank c = false

def firstLine (description : List Char) : List Char := description.takeWhile (· != '\n')

def typeBody (type description : List Char) : List Char :=
  '\x7b' :: type ++ '\x7d' :: ' ' :: description

def braced (type description : List Char) : List Char :=
  match beforeLast? '\x7d' (firstLine description) with
  | none => type
  | some more => type ++ '\x7d' :: ' ' :: more

variable {type description : List Char}

theorem newline_notMem_firstLine (description : List Char) : '\n' ∉ firstLine description := by
  intro h
  simpa using List.mem_takeWhile_imp h

theorem braced_of_notMem (h : '\x7d' ∉ firstLine description) : braced type description = type := by
  rw [braced, beforeLast?_eq_none_iff.mpr h]

theorem braced_of_eq {more rest : List Char} (h : firstLine description = more ++ '\x7d' :: rest)
    (hrest : '\x7d' ∉ rest) : braced type description = type ++ '\x7d' :: ' ' :: more := by
  rw [braced, h, beforeLast?_append_cons hrest]

theorem newline_notMem_braced (h : IsPlainType type) (description : List Char) :
    '\n' ∉ braced type description := by
  by_cases hc : '\x7d' ∈ firstLine description
  · obtain ⟨more, rest, hmore, hrest⟩ := exists_last hc
    have hline := newline_notMem_firstLine description
    rw [hmore, List.mem_append, not_or] at hline
    rw [braced_of_eq hmore hrest]
    simp [h.line, hline.1]
  · rw [braced_of_notMem hc]
    exact h.line

theorem findSome?_typeBody (h : IsPlainType type) (description : List Char) :
    (splitAt '\n' (typeBody type description)).findSome? bracesOfLine? =
      some (braced type description) := by
  obtain ⟨lines, hlines⟩ := exists_splitAt '\n' (typeBody type description)
  have hfirst : (typeBody type description).takeWhile (· != '\n') =
      '\x7b' :: (type ++ '\x7d' :: ' ' :: firstLine description) := by
    have htype : ∀ c ∈ type, (c != '\n') = true := by
      intro c hc
      simpa using ne_of_mem_of_not_mem hc h.line
    simp [typeBody, firstLine, List.takeWhile_append_of_pos htype]
  have hbraces : beforeLast? '\x7d' (type ++ '\x7d' :: ' ' :: firstLine description) =
      some (braced type description) := by
    by_cases hc : '\x7d' ∈ firstLine description
    · obtain ⟨more, rest, hmore, hrest⟩ := exists_last hc
      rw [braced_of_eq hmore hrest, hmore]
      have hsplit := beforeLast?_append_cons hrest (type ++ '\x7d' :: ' ' :: more)
      simpa using hsplit
    · rw [braced_of_notMem hc, beforeLast?_append_cons (by simpa using hc)]
  rw [hlines, hfirst, List.findSome?_cons, bracesOfLine?, if_pos (by rfl), hbraces]

theorem trim_braced_ne_nil (h : IsPlainType type) (description : List Char) :
    trim (braced type description) ≠ [] := by
  intro hnil
  obtain ⟨c, hc, hblank⟩ := h.notBlank
  have hmem : c ∈ braced type description := by
    rw [braced]
    split <;> simp [hc]
  rw [(trim_eq_nil_iff _).mp hnil c hmem] at hblank
  cases hblank

/-- The type of a variable is read from its first type tag, with all that the braces are taken to
hold. -/
theorem variableType_typeBody (h : IsPlainType type) (description : List Char) {d : Doc}
    {more : List BodyDoc} (hd : d.types = ⟨String.ofList (typeBody type description)⟩ :: more) :
    d.variableType = some (String.ofList (stripGenerics (braced type description))) := by
  have hne := trim_braced_ne_nil h description
  have hbraced : braced? (typeBody type description) = some (trim (braced type description)) := by
    rw [braced?, findSome?_typeBody h]
    simp [hne]
  rw [variableType, hd, List.findSome?_cons, String.toList_ofList, hbraced, Option.map_some,
    stripGenerics_trim (newline_notMem_braced h description)]

/-- A description with a closing brace is told apart from the type only if decoration that begins in
the type ends behind the brace. -/
theorem stripGenerics_braced_iff (h : IsPlainType type) (description : List Char) :
    stripGenerics (braced type description) = stripGenerics type ↔
      '\x7d' ∉ firstLine description ∨
      ∃ front inner covered back rest, type = front ++ '<' :: inner ∧ '<' ∉ front ∧
        firstLine description = covered ++ '>' :: back ++ '\x7d' :: rest ∧ '>' ∉ back ∧
        '\x7d' ∉ rest ∧ trim (front ++ back) = stripGenerics type := by
  by_cases hc : '\x7d' ∈ firstLine description
  · obtain ⟨more, rest, hmore, hrest⟩ := exists_last hc
    have hline := newline_notMem_braced h description
    rw [stripGenerics_of_line hline, braced_of_eq hmore hrest]
    have hbrace : '\x7d' ∉ stripGenerics type := by
      rw [stripGenerics_of_line h.line]
      exact fun hm => h.closing (mem_of_mem_stripLine (mem_of_mem_trim hm))
    have hkept : ∀ kept, stripLine (type ++ '\x7d' :: ' ' :: more) = kept → '\x7d' ∈ kept →
        trim (stripLine (type ++ '\x7d' :: ' ' :: more)) ≠ stripGenerics type := by
      intro kept hk hmem he
      exact hbrace (he ▸ mem_trim (hk ▸ hmem) (by decide))
    constructor
    · intro he
      refine Or.inr ?_
      by_cases ho : '<' ∈ type
      · obtain ⟨front, inner, htype, hfront⟩ := exists_first ho
        by_cases hclose : '>' ∈ more
        · obtain ⟨covered, back, rfl, hback⟩ := exists_last hclose
          refine ⟨front, inner, covered, back, rest, htype, hfront, hmore, hback, hrest, ?_⟩
          have hsplit : type ++ '\x7d' :: ' ' :: (covered ++ '>' :: back) =
              front ++ '<' :: ((inner ++ '\x7d' :: ' ' :: covered) ++ '>' :: back) := by
            simp [htype]
          rw [← he, hsplit, stripLine_decorated hfront hback]
        · have hno : '>' ∉ '\x7d' :: ' ' :: more := by simpa using hclose
          exact absurd he (hkept _ (stripLine_append_right hno (Or.inl ho)) (by simp))
      · exact absurd he (hkept _ (stripLine_append ho _) (by simp [stripLine]))
    · rintro (hno | ⟨front, inner, covered, back, rest', htype, hfront, hsplit, hback, hrest', htrim⟩)
      · exact absurd hc hno
      · have hcut : beforeLast? '\x7d' (firstLine description) = some more := by
          rw [hmore, beforeLast?_append_cons hrest]
        rw [hsplit, beforeLast?_append_cons hrest'] at hcut
        have hline : type ++ '\x7d' :: ' ' :: more =
            front ++ '<' :: ((inner ++ '\x7d' :: ' ' :: covered) ++ '>' :: back) := by
          simp [htype, ← Option.some.inj hcut]
        rw [hline, stripLine_decorated hfront hback, htrim]
  · rw [braced_of_notMem hc]
    exact ⟨fun _ => Or.inl hc, fun _ => rfl⟩

/-- What a type tag is read as. Whatever tags follow, the type of the variable is what is left of all
that the braces are taken to hold. That is the type in braces if the first line of the description has
no closing brace; otherwise it is only where decoration of the type ends in the description, late
enough to cover the brace, and the text behind it completes the type by chance. -/
theorem variableType_reads_tag (type description : List Char) (h : IsPlainType type) (d : Doc)
    (more : List BodyDoc) (hd : d.types = ⟨String.ofList (typeBody type description)⟩ :: more) :
    d.variableType = some (String.ofList (stripGenerics (braced type description))) ∧
    (d.variableType = some (String.ofList (stripGenerics type)) ↔
      '\x7d' ∉ firstLine description ∨
      ∃ front inner covered back rest, type = front ++ '<' :: inner ∧ '<' ∉ front ∧
        firstLine description = covered ++ '>' :: back ++ '\x7d' :: rest ∧ '>' ∉ back ∧
        '\x7d' ∉ rest ∧ trim (front ++ back) = stripGenerics type) := by
  have hread := variableType_typeBody h description hd
  refine ⟨hread, ?_⟩
  rw [hread, Option.some.injEq, String.ofList_inj, stripGenerics_braced_iff h]

def linked : Doc :=
  { empty with
    types := [⟨String.ofList (typeBody "Map<String>".toList "of \x7b@link a.B\x7d".toList)⟩] }

theorem isPlainType_map : IsPlainType "Map<String>".toList :=
  ⟨by decide, by decide, by decide, 'M', by decide, by decide⟩

theorem variableType_linked : IsPlainType "Map<String>".toList ∧
    linked.variableType = some "Map\x7d of \x7b@link a.B" := by
  refine ⟨isPlainType_map, ?_⟩
  rw [(variableType_reads_tag _ "of \x7b@link a.B\x7d".toList isPlainType_map linked [] rfl).1]
  decide +kernel

/-- The link is taken for a part of the type. -/
theorem variableType_linked_not_plain : IsPlainType "Map<String>".toList ∧
    linked.types = [⟨"\x7b" ++ "Map<String>" ++ "\x7d of \x7b@link a.B\x7d"⟩] ∧
    linked.variableType ≠ some (String.ofList (stripGenerics "Map<String>".toList)) :=
  ⟨isPlainType_map, by decide +kernel, by decide +kernel⟩

end Doc
end ScriptSense
