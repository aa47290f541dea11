import Mathlib.Data.List.Nodup
import ScriptSense.Namespace.Trie
import ScriptSense.Proofs.Data.Assoc

/-! What a trie holds. Writing and erasing change what is found at one path only, and they keep a
trie tidy: names do not repeat among the children of a node, and every child leads to a value. In a
tidy trie a path leads somewhere exactly if it can be continued to a value. -/
namespace ScriptSense
namespace Trie

variable {α : Type}

@[simp] theorem value?_node (v : Option α) (cs : List (String × Trie α)) :
    (node v cs).value? = v := rfl

@[simp] theorem children_node (v : Option α) (cs : List (String × Trie α)) :
    (node v cs).children = cs := rfl

@[simp] theorem get?_nil (t : Trie α) : t.get? [] = t.value? := rfl

theorem get?_cons (t : Trie α) (s : String) (path : List String) :
    t.get? (s :: path) = (t.children.get? s).bind fun child => child.get? path := by
  simp only [get?, sub?]
  cases t.children.get? s <;> rfl

theorem sub?_append (path more : List String) (t : Trie α) :
    sub? (path ++ more) t = (sub? path t).bind (sub? more) := by
  induction path generalizing t with
  | nil => rfl
  | cons s path ih =>
    simp only [List.cons_append, sub?, Option.bind_assoc]
    congr 1
    funext child
    exact ih child

theorem get?_append (path more : List String) (t : Trie α) :
    t.get? (path ++ more) = (sub? path t).bind fun below => below.get? more := by
  simp only [get?, sub?_append, Option.bind_assoc]

@[simp] theorem get?_empty (path : List String) : (empty : Trie α).get? path = none := by
  cases path with
  | nil => rfl
  | cons s path => simp [get?_cons, empty]

theorem get?_of_isBare {t : Trie α} (h : t.isBare = true) (path : List String) :
    t.get? path = none := by
  have hb : t.value? = none ∧ t.children = [] := by simpa [isBare] using h
  cases path with
  | nil => simp [hb.1]
  | cons s path => simp [get?_cons, hb.2]

theorem get?_insert (v : α) (path other : List String) (t : Trie α) :
    (insert v path t).get? other = if other = path then some v else t.get? other := by
  induction path generalizing t other with
  | nil =>
    cases other with
    | nil => simp [insert]
    | cons s rest => simp [insert, get?_cons]
  | cons s path ih =>
    cases other with
    | nil => simp [insert]
    | cons s' rest =>
      simp only [insert, get?_cons, children_node, Assoc.get?_put, List.cons.injEq]
      by_cases hs : s' = s
      · subst hs
        rw [if_pos rfl, Option.bind_some, ih]
        cases t.children.get? s' <;> simp
      · simp [hs]

theorem get?_erase (path other : List String) (t : Trie α) :
    (erase path t).get? other = if other = path then none else t.get? other := by
  induction path generalizing t other with
  | nil =>
    cases other with
    | nil => simp [erase]
    | cons s rest => simp [erase, get?_cons]
  | cons s path ih =>
    cases hc : t.children.get? s with
    | none =>
      simp only [erase, hc]
      split
      · rename_i ho
        rw [ho, get?_cons, hc]
        rfl
      · rfl
    | some child =>
      simp only [erase, hc]
      cases other with
      | nil => split <;> simp
      | cons s' rest =>
        by_cases hs : s' = s
        · subst hs
          have hl := ih rest child
          split
          · rename_i hb
            rw [get?_of_isBare hb] at hl
            simp [get?_cons, Assoc.get?_erase, hc, ← hl]
          · simp [get?_cons, Assoc.get?_put, hc, hl]
        · split <;> simp [get?_cons, Assoc.get?_erase, Assoc.get?_put, hs]

def Alive (t : Trie α) : Prop := ∃ path, (t.get? path).isSome = true

/-- No name repeats among the children of a node, and every child leads to a value. -/
inductive Tidy : Trie α → Prop where
  | node {v : Option α} {cs : List (String × Trie α)} (distinct : (Assoc.keys cs).Nodup)
      (tidy : ∀ s child, (s, child) ∈ cs → Tidy child)
      (alive : ∀ s child, (s, child) ∈ cs → Alive child) : Tidy (node v cs)

theorem tidy_empty : Tidy (empty : Trie α) :=
  .node (by simp) (by intro s child h; cases h) (by intro s child h; cases h)

theorem tidy_iff {t : Trie α} : Tidy t ↔ t.children.keys.Nodup ∧
    ∀ s child, (s, child) ∈ t.children → Tidy child ∧ Alive child := by
  cases t with
  | node v cs =>
    constructor
    · rintro ⟨distinct, tidy, alive⟩
      exact ⟨distinct, fun s child h => ⟨tidy s child h, alive s child h⟩⟩
    · rintro ⟨distinct, below⟩
      exact .node distinct (fun s child h => (below s child h).1) fun s child h => (below s child h).2

theorem Tidy.child {t child : Trie α} (h : Tidy t) {s : String}
    (hc : t.children.get? s = some child) : Tidy child ∧ Alive child :=
  (tidy_iff.mp h).2 s child (Assoc.mem_of_get? hc)

theorem Tidy.alive {t : Trie α} (h : Tidy t) (hb : t.isBare = false) : Alive t := by
  cases hv : t.value? with
  | some v => exact ⟨[], by simp [hv]⟩
  | none =>
    cases hc : t.children with
    | nil => simp [isBare, hv, hc] at hb
    | cons entry rest =>
      obtain ⟨s, child⟩ := entry
      obtain ⟨path, hp⟩ := ((tidy_iff.mp h).2 s child (by simp [hc])).2
      refine ⟨s :: path, ?_⟩
      simpa [get?_cons, hc, Assoc.get?_cons] using hp

theorem Tidy.insert {t : Trie α} (h : Tidy t) (v : α) (path : List String) :
    Tidy (insert v path t) := by
  induction path generalizing t with
  | nil =>
    have hc := tidy_iff.mp h
    exact tidy_iff.mpr hc
  | cons s path ih =>
    obtain ⟨distinct, below⟩ := tidy_iff.mp h
    have hchild : Tidy ((t.children.get? s).getD empty) := by
      cases hc : t.children.get? s with
      | none => exact tidy_empty
      | some child => exact (h.child hc).1
    refine tidy_iff.mpr ⟨Assoc.nodup_keys_put distinct _ _, ?_⟩
    intro s' child hm
    rcases Assoc.mem_put distinct hm with ⟨-, rfl⟩ | ⟨-, hold⟩
    · exact ⟨ih hchild, path, by simp [get?_insert]⟩
    · exact below s' child hold

theorem Tidy.erase {t : Trie α} (h : Tidy t) (path : List String) : Tidy (erase path t) := by
  induction path generalizing t with
  | nil =>
    have hc := tidy_iff.mp h
    exact tidy_iff.mpr hc
  | cons s path ih =>
    obtain ⟨distinct, below⟩ := tidy_iff.mp h
    cases hc : t.children.get? s with
    | none => simpa [Trie.erase, hc] using h
    | some child =>
      simp only [Trie.erase, hc]
      have hleft := ih (h.child hc).1
      split
      · refine tidy_iff.mpr ⟨distinct.sublist (Assoc.keys_erase_sublist _ _), ?_⟩
        intro s' child' hm
        exact below s' child' (Assoc.mem_erase.mp hm).1
      · rename_i hb
        refine tidy_iff.mpr ⟨Assoc.nodup_keys_put distinct _ _, ?_⟩
        intro s' child' hm
        rcases Assoc.mem_put distinct hm with ⟨-, rfl⟩ | ⟨-, hold⟩
        · exact ⟨hleft, hleft.alive (by simpa using hb)⟩
        · exact below s' child' hold

theorem Tidy.sub {t below : Trie α} (h : Tidy t) {path : List String}
    (hs : sub? path t = some below) : Tidy below := by
  induction path generalizing t with
  | nil => exact (Option.some.inj hs) ▸ h
  | cons s path ih =>
    obtain ⟨child, hc, hr⟩ := Option.bind_eq_some_iff.mp hs
    exact ih (h.child hc).1 hr

/-- In a tidy trie a path leads somewhere exactly if a continuation of it leads to a value. -/
theorem Tidy.isSome_sub? {t : Trie α} (h : Tidy t) {path : List String} (hne : path ≠ []) :
    (sub? path t).isSome = true ↔ ∃ more, (t.get? (path ++ more)).isSome = true := by
  constructor
  · intro hs
    induction path generalizing t with
    | nil => exact absurd rfl hne
    | cons s path ih =>
      obtain ⟨below, hb⟩ := Option.isSome_iff_exists.mp hs
      obtain ⟨child, hc, hr⟩ := Option.bind_eq_some_iff.mp hb
      obtain ⟨htidy, halive⟩ := h.child hc
      cases path with
      | nil =>
        obtain ⟨more, hm⟩ := halive
        exact ⟨more, by simpa [get?_cons, hc] using hm⟩
      | cons s' rest =>
        obtain ⟨more, hm⟩ := ih htidy (by simp) (by simp [hr])
        exact ⟨more, by simpa [get?_cons, hc] using hm⟩
  · rintro ⟨more, hm⟩
    rw [get?_append] at hm
    cases hs : sub? path t with
    | none => simp [hs] at hm
    | some below => rfl

theorem pathsBelow_eq (cs : List (String × Trie α)) :
    pathsBelow cs = cs.flatMap fun entry => (paths entry.2).map (entry.1 :: ·) := by
  induction cs with
  | nil => simp [pathsBelow]
  | cons entry rest ih => simp [pathsBelow, ih]

theorem mem_paths_iff {t : Trie α} (h : Tidy t) (path : List String) :
    path ∈ t.paths ↔ (t.get? path).isSome = true := by
  induction h generalizing path with
  | @node v cs distinct tidy alive ih =>
    cases path with
    | nil => cases v <;> simp [paths, pathsBelow_eq]
    | cons s path =>
      have hv : s :: path ∈ paths (node v cs) ↔ s :: path ∈ pathsBelow cs := by
        cases v <;> simp [paths]
      rw [hv, pathsBelow_eq, get?_cons, children_node]
      constructor
      · intro hm
        obtain ⟨⟨s', child⟩, hc, hp⟩ := List.mem_flatMap.mp hm
        obtain ⟨path', hp', he⟩ := List.mem_map.mp hp
        obtain ⟨rfl, rfl⟩ := List.cons.inj he
        rw [Assoc.get?_of_mem distinct hc]
        exact (ih s' child hc path').mp hp'
      · intro hs
        cases hc : Assoc.get? cs s with
        | none => simp [hc] at hs
        | some child =>
          have hm := Assoc.mem_of_get? hc
          have hp := (ih s child hm path).mpr (by simpa [hc] using hs)
          exact List.mem_flatMap.mpr ⟨(s, child), hm, List.mem_map.mpr ⟨path, hp, rfl⟩⟩

theorem nodup_paths {t : Trie α} (h : Tidy t) : t.paths.Nodup := by
  induction h with
  | @node v cs distinct tidy alive ih =>
    have hbelow : (pathsBelow cs).Nodup := by
      rw [pathsBelow_eq, List.nodup_flatMap]
      refine ⟨?_, ?_⟩
      · rintro ⟨s, child⟩ hc
        exact (ih s child hc).map (fun a b he => (List.cons.inj he).2)
      · have hd : cs.Pairwise fun a b => a.1 ≠ b.1 := List.pairwise_map.mp distinct
        refine hd.imp ?_
        intro a b hab path ha hb
        obtain ⟨p, -, rfl⟩ := List.mem_map.mp ha
        obtain ⟨q, -, he⟩ := List.mem_map.mp hb
        exact hab (List.cons.inj he).1.symm
    cases v with
    | none => simpa [paths] using hbelow
    | some v =>
      have hn : [] ∉ pathsBelow cs := by simp [pathsBelow_eq]
      simpa [paths] using ⟨hn, hbelow⟩

theorem mem_paths_of_get? {t : Trie α} {path : List String} (h : (t.get? path).isSome = true) :
    path ∈ t.paths := by
  induction path generalizing t with
  | nil =>
    cases t with
    | node v cs => cases v <;> simp_all [paths]
  | cons s path ih =>
    cases t with
    | node v cs =>
      cases hc : Assoc.get? cs s with
      | none => simp [get?_cons, hc] at h
      | some child =>
        have hp : path ∈ child.paths := ih (by simpa [get?_cons, hc] using h)
        have hm : s :: path ∈ pathsBelow cs := by
          rw [pathsBelow_eq]
          exact List.mem_flatMap.mpr
            ⟨(s, child), Assoc.mem_of_get? hc, List.mem_map.mpr ⟨path, hp, rfl⟩⟩
        exact List.mem_append_right _ hm

end Trie
end ScriptSense
