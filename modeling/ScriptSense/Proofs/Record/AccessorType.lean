import ScriptSense.Namespace.View
import ScriptSense.Proofs.Text.Decoration

/-! The type that the accessors of a property document. The type is taken from the check of the
property, with its decoration dropped, when the accessors are made; decoration is dropped once more
when their documentation is read. Main statement: the second time changes nothing, because no line of
what is left opens decoration and closes it again, so that an accessor documents the type that its
property documents. -/
namespace ScriptSense
namespace TypeText

open Text

/-- Somewhere a `<` has a `>` behind it on the same line. -/
def IsDecorated (t : List Char) : Prop :=
  ∃ front inner back, t = front ++ '<' :: (inner ++ '>' :: back) ∧ '\n' ∉ inner

variable {t line rest front back : List Char}

theorem IsDecorated.mono {part : List Char} (h : IsDecorated part) (hpart : part <:+: t) :
    IsDecorated t := by
  obtain ⟨front, inner, back, rfl, hinner⟩ := h
  obtain ⟨before, behind, rfl⟩ := hpart
  exact ⟨before ++ front, inner, back ++ behind, by simp, hinner⟩

theorem IsDecorated.of_append (h : IsDecorated (line ++ '\n' :: rest)) :
    IsDecorated line ∨ IsDecorated rest := by
  obtain ⟨front, inner, back, ht, hinner⟩ := h
  rcases append_cons_eq_cases (by decide) ht with ⟨more, -, hrest⟩ | ⟨more, hline, hopen⟩
  · exact Or.inr ⟨more, inner, back, hrest, hinner⟩
  · -- what opens in the line closes in it too, or else the end of the line would stand inside
    rcases append_cons_eq_cases (by decide) hopen with ⟨later, hmore, -⟩ | ⟨later, hend, -⟩
    · exact Or.inl ⟨front, inner, later, by rw [hline, hmore], hinner⟩
    · exact absurd (by simp [hend]) hinner

theorem IsDecorated.of_joinWith {lines : List (List Char)}
    (h : IsDecorated (joinWith ['\n'] lines)) : ∃ line ∈ lines, IsDecorated line := by
  induction lines with
  | nil =>
    obtain ⟨front, inner, back, ht, -⟩ := h
    simp [joinWith] at ht
  | cons first more ih =>
    cases more with
    | nil => exact ⟨first, by simp, h⟩
    | cons next others =>
      have hjoin : joinWith ['\n'] (first :: next :: others) =
          first ++ '\n' :: joinWith ['\n'] (next :: others) := by simp [joinWith]
      rw [hjoin] at h
      rcases h.of_append with h | h
      · exact ⟨first, by simp, h⟩
      · obtain ⟨line, hline, hd⟩ := ih h
        exact ⟨line, List.mem_cons_of_mem first hline, hd⟩

theorem not_isDecorated_append (hfront : '<' ∉ front) (hback : '>' ∉ back) :
    ¬ IsDecorated (front ++ back) := by
  rintro ⟨before, inner, behind, ht, -⟩
  rcases List.append_eq_append_iff.mp ht with ⟨more, -, hmore⟩ | ⟨more, hmore, hopen⟩
  · exact hback (by simp [hmore])
  · -- the opening stands in one part or the other, and the closing behind it
    rcases List.cons_eq_append_iff.mp hopen with ⟨-, he⟩ | ⟨later, rfl, -⟩
    · exact hback (by simp [he])
    · exact hfront (by simp [hmore])

theorem not_isDecorated_stripLine (line : List Char) : ¬ IsDecorated (stripLine line) := by
  obtain ⟨front, back, hstrip, hfront, hback, -⟩ := exists_stripLine line
  rw [hstrip]
  exact not_isDecorated_append hfront hback

theorem stripLine_of_not_isDecorated (hline : '\n' ∉ line) (h : ¬ IsDecorated line) :
    stripLine line = line := by
  obtain ⟨front, back, hstrip, -, -, rfl | ⟨inner, rfl⟩⟩ := exists_stripLine line
  · exact hstrip
  · refine absurd ⟨front, inner, back, rfl, ?_⟩ h
    exact fun hmem => hline (by simp [hmem])

theorem IsDecorated.trim (h : IsDecorated t) : IsDecorated (trim t) := by
  obtain ⟨front, inner, back, rfl, hinner⟩ := h
  have hopen : isBlank '<' = false := by decide
  have hclose : isBlank '>' = false := by decide
  rw [trim_append_cons hopen, rdropWhile_append_cons hclose]
  exact ⟨front.dropWhile isBlank, inner, back.rdropWhile isBlank, rfl, hinner⟩

theorem stripGenerics_of_not_isDecorated (h : ¬ IsDecorated t) : stripGenerics t = trim t := by
  have hlines : ∀ line ∈ splitAt '\n' t, stripLine line = line := by
    intro line hline
    refine stripLine_of_not_isDecorated (notMem_of_mem_splitAt hline) ?_
    exact fun hd => h (hd.mono (infix_of_mem_splitAt hline))
  rw [stripGenerics, List.map_congr_left hlines, List.map_id', joinWith_splitAt]

/-- Joining the lines and trimming the whole bring no two brackets onto one line. -/
theorem not_isDecorated_stripGenerics (t : List Char) : ¬ IsDecorated (stripGenerics t) := by
  intro h
  obtain ⟨line, hline, hd⟩ := (h.mono (trim_isInfix _)).of_joinWith
  obtain ⟨whole, -, rfl⟩ := List.mem_map.mp hline
  exact not_isDecorated_stripLine whole hd

theorem stripGenerics_eq_trim_iff (t : List Char) :
    stripGenerics t = trim t ↔ ¬ IsDecorated t := by
  constructor
  · intro he hd
    have hleft := not_isDecorated_stripGenerics t
    rw [he] at hleft
    exact hleft hd.trim
  · exact stripGenerics_of_not_isDecorated

theorem stripGenerics_stripGenerics (t : List Char) :
    stripGenerics (stripGenerics t) = stripGenerics t := by
  have hsettled := stripGenerics_of_not_isDecorated (not_isDecorated_stripGenerics t)
  rw [hsettled, stripGenerics, trim_trim]

end TypeText

namespace Property

open TypeText

variable {p : Property} {type : String}

theorem stripGenerics_documentedType (h : p.documentedType = some type) :
    String.ofList (stripGenerics type.toList) = type := by
  obtain ⟨check, -, hcheck⟩ := Option.bind_eq_some_iff.mp h
  split at hcheck
  · cases hcheck
  · obtain rfl := Option.some.inj hcheck
    rw [String.toList_ofList, stripGenerics_stripGenerics]

end Property

namespace View

open TypeText

def accessorEnding (name : String) : String := String.ofList (Text.capitalize name.toList)

/-- The getter and the setter are documented to return the type of the property if anything is left
of it, and the resetter nothing. -/
theorem returnType_accessors (name : String) (p : Property) :
    (accessors name p).map (fun e => (e.1, e.2.doc.bind Doc.returnType)) =
      [("get" ++ accessorEnding name, p.documentedType.filter (!·.isEmpty)),
        ("set" ++ accessorEnding name, p.documentedType.filter (!·.isEmpty)),
        ("reset" ++ accessorEnding name, none)] := by
  cases hp : p.documentedType with
  | none => simp [accessors, accessorEnding, Member.function, Doc.returnType, hp]
  | some type =>
    have hstrip := Property.stripGenerics_documentedType hp
    by_cases ht : type = ""
    · simp [accessors, accessorEnding, Member.function, Doc.returnType, hp, ht, Option.filter_some]
    · simp [accessors, accessorEnding, Member.function, Doc.returnType, hp, ht, hstrip,
        Option.filter_some]

/-- Dropping decoration once is enough: it changes a text by more than trimming exactly if a `<` has a
`>` behind it on some line, and no line of what is left has such a pair. So the type that a property
documents, if anything is left of it, is what its getter and its setter are documented to return,
although it is stripped for them once more. -/
theorem accessors_keep_documentedType :
    (∀ t : List Char, stripGenerics (stripGenerics t) = stripGenerics t ∧
      ¬ IsDecorated (stripGenerics t) ∧ (stripGenerics t = Text.trim t ↔ ¬ IsDecorated t)) ∧
    ∀ (name : String) (p : Property) (type : String), p.documentedType = some type → type ≠ "" →
      (accessors name p).map (fun e => (e.1, e.2.doc.bind Doc.returnType)) =
        [("get" ++ accessorEnding name, some type), ("set" ++ accessorEnding name, some type),
          ("reset" ++ accessorEnding name, none)] := by
  refine ⟨fun t => ⟨stripGenerics_stripGenerics t, not_isDecorated_stripGenerics t,
    stripGenerics_eq_trim_iff t⟩, ?_⟩
  intro name p type hp hne
  have hkept : p.documentedType.filter (!·.isEmpty) = some type := by
    simp [hp, hne, Option.filter_some]
  rw [returnType_accessors, hkept]

/-- A check with brackets that open behind decoration and close in front of it, on two lines. -/
def crossed : Property :=
  ⟨none, some " > a.Array<Map<String>> <\nx<y> ", none, false, none, none, none⟩

theorem accessors_crossed_keep_type :
    crossed.documentedType = some "> a.Array <\nx" ∧ "> a.Array <\nx" ≠ "" ∧
    (accessors "label" crossed).map (fun e => (e.1, e.2.doc.bind Doc.returnType)) =
      [("getLabel", some "> a.Array <\nx"), ("setLabel", some "> a.Array <\nx"),
        ("resetLabel", none)] := by
  have hp : crossed.documentedType = some "> a.Array <\nx" := by decide +kernel
  have hending : accessorEnding "label" = "Label" := by decide +kernel
  have h := accessors_keep_documentedType.2 "label" crossed _ hp (by decide)
  rw [hending] at h
  exact ⟨hp, by decide, h⟩

end View
end ScriptSense
