import ScriptSense.FilePath
import ScriptSense.Proofs.Text.Segments

/-! Paths below a folder. The parts of a path are read off its text again, so that two paths below one
folder have the same text only if they are the same. -/
namespace ScriptSense
namespace FilePath

def IsPart (s : String) : Prop := s ≠ "" ∧ s ≠ "." ∧ '/' ∉ s.toList

instance : DecidablePred IsPart := fun _ => inferInstanceAs (Decidable (_ ∧ _ ∧ _))

theorem isPart_of_mem_ofText {text s : String} (h : s ∈ (ofText text).parts) : IsPart s := by
  simp only [ofText, List.mem_map, List.mem_filter, Bool.and_eq_true, Bool.not_eq_true',
    List.isEmpty_eq_false_iff, bne_iff_ne] at h
  obtain ⟨piece, ⟨hm, hne, hdot⟩, rfl⟩ := h
  refine ⟨by simpa using hne, ?_, by simpa using Text.notMem_of_mem_splitAt hm⟩
  intro he
  exact hdot (by simpa using congrArg String.toList he)

theorem parts_ofText_append (a b : String) :
    (ofText (a ++ "/" ++ b)).parts = (ofText a).parts ++ (ofText b).parts := by
  have hl : (a ++ "/" ++ b).toList = a.toList ++ '/' :: b.toList := by simp [String.toList_append]
  simp [ofText, hl, Text.splitAt_append]

theorem parts_ofText_part {s : String} (h : IsPart s) : (ofText s).parts = [s] := by
  have hne : s.toList ≠ [] := by simpa using h.1
  have hdot : s.toList ≠ ['.'] := by
    intro he
    exact h.2.1 (by rw [← String.ofList_toList (s := s), he])
  simp [ofText, Text.splitAt_of_notMem h.2.2, hne, hdot]

theorem parts_ofText_intercalate {parts : List String} (h : ∀ s ∈ parts, IsPart s) :
    (ofText ("/".intercalate parts)).parts = parts := by
  induction parts with
  | nil => rfl
  | cons s rest ih =>
    have hs := parts_ofText_part (h s (by simp))
    by_cases hr : rest = []
    · simpa [hr] using hs
    · rw [String.intercalate_cons_of_ne_nil hr, parts_ofText_append, hs,
        ih fun t ht => h t (by simp [ht])]
      rfl

theorem parts_ofText_slashes (n : Nat) (text : String) :
    (ofText (String.ofList (List.replicate n '/') ++ text)).parts = (ofText text).parts := by
  induction n with
  | zero => simp
  | succ n ih =>
    have hs : String.ofList (List.replicate (n + 1) '/') ++ text =
        "" ++ "/" ++ (String.ofList (List.replicate n '/') ++ text) := by
      apply String.toList_inj.mp
      simp [List.replicate_succ]
    rw [hs, parts_ofText_append, ih]
    rfl

@[simp] theorem join_below (root : FilePath) (parts : List String) :
    root.join ⟨0, parts⟩ = ⟨root.slashes, root.parts ++ parts⟩ := rfl

@[simp] theorem relativeTo?_below (root : FilePath) (parts : List String) :
    relativeTo? ⟨root.slashes, root.parts ++ parts⟩ root = some ⟨0, parts⟩ := by
  simp [relativeTo?]

theorem parts_ofText_below (root : FilePath) : ∃ front : List String, ∀ parts : List String,
    (∀ s ∈ parts, IsPart s) → (ofText (root.join ⟨0, parts⟩).toText).parts = front ++ parts := by
  by_cases hr : root.parts = []
  · refine ⟨[], fun parts h => ?_⟩
    rw [join_below, hr, toText]
    split
    · rename_i he
      have hp : parts = [] := by simp_all
      subst hp
      rfl
    · rw [parts_ofText_slashes, List.nil_append, parts_ofText_intercalate h]
  · refine ⟨(ofText ("/".intercalate root.parts)).parts, fun parts h => ?_⟩
    have hn : (root.slashes == 0 && (root.parts ++ parts).isEmpty) = false := by simp [hr]
    rw [join_below, toText, hn, if_neg Bool.false_ne_true, parts_ofText_slashes]
    by_cases hp : parts = []
    · simp [hp]
    · rw [String.intercalate_append_of_ne_nil hr hp, parts_ofText_append,
        parts_ofText_intercalate h]

theorem toText_below_injective (root : FilePath) {a b : List String} (ha : ∀ s ∈ a, IsPart s)
    (hb : ∀ s ∈ b, IsPart s) (h : (root.join ⟨0, a⟩).toText = (root.join ⟨0, b⟩).toText) :
    a = b := by
  obtain ⟨front, hf⟩ := parts_ofText_below root
  have hab : front ++ a = front ++ b := by rw [← hf a ha, h, hf b hb]
  exact List.append_cancel_left hab

end FilePath
end ScriptSense
