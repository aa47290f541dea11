import ScriptSense.Data.Assoc

/-! Reading finite maps after they were changed. Every map is told by what is found under its keys;
where keys do not repeat, the entries themselves are what is found. -/
namespace ScriptSense
namespace Assoc

variable {α : Type}

@[simp] theorem keys_nil : keys ([] : Assoc α) = [] := rfl

@[simp] theorem keys_cons (entry : String × α) (rest : Assoc α) :
    keys (entry :: rest) = entry.1 :: keys rest := rfl

theorem mem_keys_of_mem {m : Assoc α} {key : String} {value : α} (h : (key, value) ∈ m) :
    key ∈ m.keys := List.mem_map.mpr ⟨(key, value), h, rfl⟩

theorem mem_of_get? {m : Assoc α} {key : String} {value : α} (h : m.get? key = some value) :
    (key, value) ∈ m := by
  induction m with
  | nil => simp at h
  | cons entry rest ih =>
    rw [get?_cons] at h
    split at h
    · rename_i he
      have hk : key = entry.1 := by simpa using he
      have hv : entry.2 = value := by simpa using h
      simp [hk, ← hv]
    · exact List.mem_cons_of_mem _ (ih h)

theorem get?_of_mem {m : Assoc α} (distinct : m.keys.Nodup) {key : String} {value : α}
    (h : (key, value) ∈ m) : m.get? key = some value := by
  induction m with
  | nil => simp at h
  | cons entry rest ih =>
    rw [keys_cons, List.nodup_cons] at distinct
    rw [get?_cons]
    rcases List.mem_cons.mp h with he | hr
    · simp [← he]
    · have hne : key ≠ entry.1 := fun hk => distinct.1 (hk ▸ mem_keys_of_mem hr)
      simp [hne, ih distinct.2 hr]

theorem mem_keys_iff {m : Assoc α} {key : String} : key ∈ m.keys ↔ (m.get? key).isSome = true := by
  rw [isSome_get?]
  simp [keys, has]

theorem get?_append (m more : Assoc α) (key : String) :
    get? (m ++ more) key = (m.get? key).or (more.get? key) := by
  induction m with
  | nil => simp
  | cons entry rest ih =>
    rw [List.cons_append, get?_cons, get?_cons, ih]
    split <;> simp

theorem get?_putNew (m : Assoc α) (key other : String) (value : α) :
    (m.putNew key value).get? other =
      (m.get? other).or (if other = key then some value else none) := by
  unfold putNew
  split
  · rename_i hh
    rw [← isSome_get?] at hh
    obtain ⟨v, hv⟩ := Option.isSome_iff_exists.mp hh
    by_cases ho : other = key <;> simp [ho, hv]
  · simp [get?_append, get?_cons]

theorem get?_map {β : Type} (f : α → β) (m : Assoc α) (key : String) :
    get? (m.map fun entry => (entry.1, f entry.2)) key = (m.get? key).map f := by
  induction m with
  | nil => rfl
  | cons entry rest ih =>
    rw [List.map_cons, get?_cons, get?_cons, ih]
    split <;> rfl

theorem get?_filter (m : Assoc α) (keep : String → Bool) (key : String) :
    get? (m.filter fun entry => keep entry.1) key = if keep key then m.get? key else none := by
  induction m with
  | nil => simp
  | cons entry rest ih =>
    rw [List.filter_cons]
    by_cases he : key = entry.1
    · subst he
      cases hk : keep entry.1 <;> simp_all [get?_cons]
    · cases hk : keep entry.1 <;> simp_all [get?_cons]

theorem get?_erase (m : Assoc α) (key other : String) :
    (m.erase key).get? other = if other = key then none else m.get? other := by
  rw [erase, get?_filter m (· != key)]
  by_cases ho : other = key <;> simp [ho]

theorem mem_erase {m : Assoc α} {key other : String} {value : α} :
    (other, value) ∈ m.erase key ↔ (other, value) ∈ m ∧ other ≠ key := by simp [erase]

theorem keys_erase_sublist (m : Assoc α) (key : String) :
    (m.erase key).keys.Sublist m.keys := (List.filter_sublist (l := m)).map _

theorem keys_put (m : Assoc α) (key : String) (value : α) :
    (m.put key value).keys = if key ∈ m.keys then m.keys else m.keys ++ [key] := by
  induction m with
  | nil => simp [put]
  | cons entry rest ih =>
    unfold put
    by_cases he : entry.1 = key
    · simp [he]
    · have hk : key ≠ entry.1 := fun h => he h.symm
      by_cases hr : key ∈ keys rest <;> simp [he, hk, hr, ih]

theorem nodup_keys_put {m : Assoc α} (distinct : m.keys.Nodup) (key : String) (value : α) :
    (m.put key value).keys.Nodup := by
  rw [keys_put]
  split
  · exact distinct
  · rename_i hk
    rw [List.nodup_append]
    refine ⟨distinct, by simp, ?_⟩
    intro a ha b hb he
    have hb' : b = key := by simpa using hb
    exact hk (hb' ▸ he ▸ ha)

/-- An entry after a write is the one that was written, or an old one under another key. -/
theorem mem_put {m : Assoc α} (distinct : m.keys.Nodup) {key other : String} {value v : α}
    (h : (other, v) ∈ m.put key value) :
    (other = key ∧ v = value) ∨ (other ≠ key ∧ (other, v) ∈ m) := by
  have hg := get?_of_mem (nodup_keys_put distinct key value) h
  rw [get?_put] at hg
  split at hg
  · rename_i ho
    exact Or.inl ⟨ho, by simpa using hg.symm⟩
  · rename_i ho
    exact Or.inr ⟨ho, mem_of_get? hg⟩

end Assoc
end ScriptSense
