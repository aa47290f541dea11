import ScriptSense.Text.Name

/-! Cutting a text at a separator and joining the pieces again. The segments of a qualified name
determine the name, and a name below another one has one segment more. -/
namespace ScriptSense
namespace Text

theorem splitAt_of_notMem {separator : Char} {t : List Char} (h : separator ∉ t) :
    splitAt separator t = [t] := by
  induction t with
  | nil => rfl
  | cons c cs ih =>
    rw [List.mem_cons, not_or] at h
    have hc : c ≠ separator := fun he => h.1 he.symm
    simp [splitAt, hc, ih h.2]

theorem notMem_of_mem_splitAt {separator : Char} {t piece : List Char}
    (h : piece ∈ splitAt separator t) : separator ∉ piece := by
  induction t generalizing piece with
  | nil =>
    have hp : piece = [] := by simpa [splitAt] using h
    simp [hp]
  | cons c cs ih =>
    simp only [splitAt] at h
    split at h
    · rcases List.mem_cons.mp h with hp | hp
      · simp [hp]
      · exact ih hp
    · rename_i hc
      have hne : separator ≠ c := fun he => hc (by simp [he])
      split at h
      · have hp : piece = [c] := by simpa using h
        simp [hp, hne]
      · rename_i first more hs
        rcases List.mem_cons.mp h with hp | hp
        · have hf : separator ∉ first := ih (by simp [hs])
          simp [hp, hne, hf]
        · exact ih (by simp [hs, hp])

theorem infix_joinWith_of_mem (separator : List Char) {pieces : List (List Char)}
    {piece : List Char} (h : piece ∈ pieces) : piece <:+: joinWith separator pieces := by
  induction pieces with
  | nil => cases h
  | cons first rest ih =>
    cases rest with
    | nil =>
      obtain rfl := List.mem_singleton.mp h
      exact List.infix_rfl
    | cons next more =>
      rw [joinWith]
      · rcases List.mem_cons.mp h with rfl | h
        · rw [List.append_assoc]
          exact (List.prefix_append piece _).isInfix
        · exact (ih h).trans (List.suffix_append _ _).isInfix
      · simp

theorem infix_of_mem_splitAt {separator : Char} {t piece : List Char}
    (h : piece ∈ splitAt separator t) : piece <:+: t := by
  rw [← joinWith_splitAt separator t]
  exact infix_joinWith_of_mem [separator] h

theorem mem_of_mem_splitAt {separator c : Char} {t piece : List Char}
    (h : piece ∈ splitAt separator t) (hc : c ∈ piece) : c ∈ t :=
  (infix_of_mem_splitAt h).mem hc

theorem splitAt_append (separator : Char) (a b : List Char) :
    splitAt separator (a ++ separator :: b) = splitAt separator a ++ splitAt separator b := by
  induction a with
  | nil => simp [splitAt]
  | cons c cs ih =>
    by_cases hc : c = separator
    · simp [splitAt, hc, ih]
    · cases hs : splitAt separator cs with
      | nil => exact absurd hs (splitAt_ne_nil separator cs)
      | cons piece pieces => simp [splitAt, hc, ih, hs]

/-- All segments of a name, empty ones included. -/
def segments (name : String) : List String := (splitAt '.' name.toList).map String.ofList

theorem segments_ne_nil (name : String) : segments name ≠ [] := by
  simp [segments, splitAt_ne_nil]

theorem segments?_eq (name : String) :
    segments? name = if "" ∈ segments name then none else some (segments name) := by
  have hiff : (splitAt '.' name.toList).all (!·.isEmpty) = true ↔ "" ∉ segments name := by
    simp only [List.all_eq_true, Bool.not_eq_true', List.isEmpty_eq_false_iff, segments,
      List.mem_map, not_exists, not_and]
    constructor
    · intro h piece hp he
      exact h piece hp (by simpa using he)
    · intro h piece hp he
      exact h piece hp (by simp [he])
  unfold segments?
  by_cases h : "" ∈ segments name
  · have hf : (splitAt '.' name.toList).all (!·.isEmpty) = false := by
      simpa using mt hiff.mp (not_not_intro h)
    simp only [hf, if_pos h]
    rfl
  · simp only [hiff.mpr h, if_neg h, if_true]
    rfl

theorem segments?_eq_some {name : String} {path : List String} :
    segments? name = some path ↔ "" ∉ segments name ∧ segments name = path := by
  rw [segments?_eq]
  by_cases h : "" ∈ segments name <;> simp [h]

theorem empty_notMem_segments {name : String} (h : (segments? name).isSome = true) :
    "" ∉ segments name := by
  obtain ⟨path, hp⟩ := Option.isSome_iff_exists.mp h
  exact (segments?_eq_some.mp hp).1

theorem ofList_joinWith_segments (name : String) :
    String.ofList (joinWith ['.'] ((segments name).map String.toList)) = name := by
  have hm : (segments name).map String.toList = splitAt '.' name.toList := by
    simp [segments, Function.comp_def]
  rw [hm, joinWith_splitAt, String.ofList_toList]

theorem segments_injective {a b : String} (h : segments a = segments b) : a = b := by
  rw [← ofList_joinWith_segments a, h, ofList_joinWith_segments]

theorem dot_notMem_of_mem_segments {name s : String} (h : s ∈ segments name) :
    '.' ∉ s.toList := by
  obtain ⟨piece, hp, rfl⟩ := List.mem_map.mp h
  simpa using notMem_of_mem_splitAt hp

theorem mem_of_mem_segments {name s : String} (h : s ∈ segments name) {c : Char}
    (hc : c ∈ s.toList) : c ∈ name.toList := by
  obtain ⟨piece, hp, rfl⟩ := List.mem_map.mp h
  exact mem_of_mem_splitAt hp (by simpa using hc)

theorem segments_below (name : String) {s : String} (h : '.' ∉ s.toList) :
    segments (name ++ "." ++ s) = segments name ++ [s] := by
  have hl : (name ++ "." ++ s).toList = name.toList ++ '.' :: s.toList := by
    simp [String.toList_append]
  simp [segments, hl, splitAt_append, splitAt_of_notMem h]

end Text
end ScriptSense
