import Mathlib.Data.Finmap
import Mathlib.Data.Finset.Sort
import Mathlib.Data.String.Basic
import ScriptSense.Namespace.Basic
import ScriptSense.Proofs.Namespace.Trie
import ScriptSense.Proofs.Text.Segments

/-! A namespace as a finite map. The names of the classes are its keys, their records its values,
and all questions to a namespace are questions about that map. What makes this so is that every
record stands at the path of its own name, and that no path leads to nothing. -/
namespace ScriptSense

abbrev Registry := Finmap fun _ : String => ClassRecord

theorem not_decide_lt_iff (a b : String) : (!decide (b < a)) = true ↔ a ≤ b := by
  simp only [Bool.not_eq_true', decide_eq_false_iff_not, not_lt]

theorem pairwise_mergeSort_text {α : Type} (key : α → String) (items : List α) :
    (items.mergeSort fun a b => !(key b < key a)).Pairwise fun a b => key a ≤ key b := by
  have htrans : ∀ a b c : α, (!decide (key b < key a)) = true → (!decide (key c < key b)) = true →
      (!decide (key c < key a)) = true := by
    intro a b c hab hbc
    rw [not_decide_lt_iff] at *
    exact hab.trans hbc
  have htotal : ∀ a b : α, (!decide (key b < key a) || !decide (key a < key b)) = true := by
    intro a b
    rw [Bool.or_eq_true, not_decide_lt_iff, not_decide_lt_iff]
    exact le_total _ _
  exact (List.pairwise_mergeSort htrans htotal items).imp fun h => (not_decide_lt_iff _ _).mp h

theorem sortTexts_perm (texts : List String) : (sortTexts texts).Perm texts :=
  List.mergeSort_perm _ _

theorem sortTexts_eq_sort {texts : List String} (distinct : texts.Nodup) {keys : Finset String}
    (h : ∀ text, text ∈ texts ↔ text ∈ keys) : sortTexts texts = keys.sort := by
  have hk : keys = (sortTexts texts).toFinset := by
    ext text
    rw [List.mem_toFinset, (sortTexts_perm texts).mem_iff, h]
  rw [hk]
  have hn : (sortTexts texts).Nodup := (sortTexts_perm texts).nodup_iff.mpr distinct
  exact ((List.toFinset_sort (fun a b : String => a ≤ b) hn).mpr
    (pairwise_mergeSort_text id texts)).symm

namespace Namespace

/-- Every record stands at the path of its own name, the tree has no useless nodes, and the names
that are kept beside the tree are those of its records. -/
structure Placed (ns : Namespace) : Prop where
  tidy : ns.tree.Tidy
  own : ∀ path r, ns.tree.get? path = some r → Text.segments? r.name = some path
  distinct : ns.registered.Nodup
  mem_registered_iff : ∀ name, name ∈ ns.registered ↔ ns.isClass name = true

theorem find?_of_segments {name : String} (ns : Namespace) (h : "" ∉ Text.segments name) :
    ns.find? name = Trie.sub? (Text.segments name) ns.tree := by
  rw [find?, Text.segments?_eq, if_neg h]
  rfl

theorem record?_eq (ns : Namespace) (name : String) :
    ns.record? name = (Text.segments? name).bind ns.tree.get? := by
  rw [record?, find?, Option.bind_assoc]
  rfl

theorem Placed.record?_name {ns : Namespace} (h : ns.Placed) {name : String} {r : ClassRecord}
    (hr : ns.record? name = some r) : r.name = name := by
  rw [record?_eq] at hr
  obtain ⟨path, hp, hg⟩ := Option.bind_eq_some_iff.mp hr
  have h₁ := (Text.segments?_eq_some.mp hp).2
  have h₂ := (Text.segments?_eq_some.mp (h.own path r hg)).2
  exact Text.segments_injective (h₂.trans h₁.symm)

theorem Placed.record?_of_get? {ns : Namespace} (h : ns.Placed) {path : List String}
    {r : ClassRecord} (hg : ns.tree.get? path = some r) : ns.record? r.name = some r := by
  rw [record?_eq, h.own path r hg]
  exact hg

@[simp] theorem record?_empty (roots : List String) (name : String) :
    (empty roots).record? name = none := by
  rw [record?_eq]
  cases Text.segments? name <;> simp [empty]

theorem placed_empty (roots : List String) : (empty roots).Placed where
  tidy := Trie.tidy_empty
  own := by intro path r h; simp [empty] at h
  distinct := List.nodup_nil
  mem_registered_iff := by
    intro name
    rw [isClass, record?_empty]
    exact ⟨fun h => absurd h List.not_mem_nil, fun h => absurd h (by simp)⟩

theorem insert_eq (ns : Namespace) (r : ClassRecord) :
    ns.insert r = if "" ∈ Text.segments r.name then .error ⟨r.name⟩
      else .ok { ns with
        tree := ns.tree.insert r (Text.segments r.name)
        registered := ns.registered.insert r.name } := by
  unfold insert
  rw [Text.segments?_eq]
  by_cases h : "" ∈ Text.segments r.name <;> simp [h]

theorem insert_eq_ok {ns ns' : Namespace} {r : ClassRecord} (h : ns.insert r = .ok ns') :
    "" ∉ Text.segments r.name ∧ ns' = { ns with
      tree := ns.tree.insert r (Text.segments r.name)
      registered := ns.registered.insert r.name } := by
  rw [insert_eq] at h
  split at h
  · cases h
  · rename_i hn
    exact ⟨hn, (Except.ok.inj h).symm⟩

theorem record?_insert {ns ns' : Namespace} {r : ClassRecord} (hi : ns.insert r = .ok ns')
    (name : String) : ns'.record? name = if name = r.name then some r else ns.record? name := by
  obtain ⟨hn, rfl⟩ := insert_eq_ok hi
  simp only [record?_eq]
  by_cases he : name = r.name
  · subst he
    simp [Text.segments?_eq, hn, Trie.get?_insert]
  · cases hs : Text.segments? name with
    | none => simp [he]
    | some path =>
      have hp : path ≠ Text.segments r.name := fun h =>
        he (Text.segments_injective ((Text.segments?_eq_some.mp hs).2.trans h))
      simp [he, Trie.get?_insert, hp]

theorem Placed.insert {ns ns' : Namespace} {r : ClassRecord} (h : ns.Placed)
    (hi : ns.insert r = .ok ns') : ns'.Placed := by
  have hrecord := record?_insert hi
  obtain ⟨hn, rfl⟩ := insert_eq_ok hi
  refine ⟨h.tidy.insert r _, ?_, h.distinct.insert, ?_⟩
  · intro path r' hg
    rw [Trie.get?_insert] at hg
    split at hg
    · rename_i hp
      obtain rfl := Option.some.inj hg
      rw [hp, Text.segments?_eq, if_neg hn]
    · exact h.own path r' hg
  · intro name
    rw [isClass, hrecord, List.mem_insert_iff, h.mem_registered_iff]
    by_cases hname : name = r.name <;> simp [hname, isClass]

theorem record?_remove (ns : Namespace) (name other : String) :
    (ns.remove name).record? other = if other = name then none else ns.record? other := by
  unfold Namespace.remove
  cases hs : Text.segments? name with
  | none =>
    by_cases ho : other = name
    · simp [ho, record?_eq, hs]
    · simp [ho]
  | some path =>
    by_cases hc : ns.isClass name = true
    · simp only [hc, if_true, record?_eq]
      by_cases ho : other = name
      · simp [ho, hs, Trie.get?_erase]
      · cases hs' : Text.segments? other with
        | none => simp [ho]
        | some path' =>
          have hp : path' ≠ path := by
            intro he
            have h₁ := (Text.segments?_eq_some.mp hs).2
            have h₂ := (Text.segments?_eq_some.mp hs').2
            exact ho (Text.segments_injective (h₂.trans (he.trans h₁.symm)))
          simp [ho, Trie.get?_erase, hp]
    · have hn : ns.record? name = none := by simpa [isClass] using hc
      by_cases ho : other = name
      · simp [hc, ho, hn]
      · simp [hc, ho]

theorem Placed.remove {ns : Namespace} (h : ns.Placed) (name : String) : (ns.remove name).Placed := by
  have hrecord := ns.record?_remove name
  unfold Namespace.remove at hrecord ⊢
  split
  · rename_i path hpath
    simp only [hpath] at hrecord
    split
    · rename_i hclass
      rw [if_pos hclass] at hrecord
      refine ⟨h.tidy.erase _, ?_, h.distinct.erase name, ?_⟩
      · intro path r hg
        rw [Trie.get?_erase] at hg
        split at hg
        · cases hg
        · exact h.own path r hg
      · intro other
        rw [isClass, hrecord, h.distinct.mem_erase_iff, h.mem_registered_iff]
        by_cases hname : other = name <;> simp [hname, isClass]
    · exact h
  · exact h

@[simp] theorem roots_remove (ns : Namespace) (name : String) : (ns.remove name).roots = ns.roots := by
  unfold Namespace.remove
  split
  · split <;> rfl
  · rfl

theorem roots_insert {ns ns' : Namespace} {r : ClassRecord} (hi : ns.insert r = .ok ns') :
    ns'.roots = ns.roots := by
  obtain ⟨-, rfl⟩ := insert_eq_ok hi
  rfl

/-- The map that a namespace is, with all that can be asked about it. -/
structure Represents (ns : Namespace) (m : Registry) : Prop where
  /-- Exactly the keys are classes. -/
  isClass_iff : ∀ name, ns.isClass name = true ↔ name ∈ m
  /-- The record of a class is the value of its key. -/
  record?_eq_lookup : ∀ name, ns.record? name = m.lookup name
  /-- The paths are the beginnings of the keys, cut into segments. -/
  containsPath_iff : ∀ name, ns.containsPath name = true ↔
    "" ∉ Text.segments name ∧ ∃ key ∈ m, Text.segments name <+: Text.segments key
  /-- A key stands for its class. -/
  lookup_key : ∀ name r, m.lookup name = some r → ns.lookup name = some (.klass r)
  /-- Another path stands for a package with the segments that continue it, in order and each once;
  those are classes that make it a key. -/
  lookup_package : ∀ name, name ∉ m → ns.containsPath name = true → ∃ children,
    ns.lookup name = some (.package children) ∧
    (children.map Prod.fst).Pairwise (· < ·) ∧
    ∀ s isKey, (s, isKey) ∈ children ↔ '.' ∉ s.toList ∧
      ns.containsPath (name ++ "." ++ s) = true ∧ isKey = decide (name ++ "." ++ s ∈ m)
  /-- What is no path stands for nothing. -/
  lookup_absent : ∀ name, ns.containsPath name = false → ns.lookup name = none
  /-- The names that are kept are the keys, each once. -/
  registered : ns.registered.Nodup ∧ ∀ name, name ∈ ns.registered ↔ name ∈ m
  /-- The class names are the keys in order. -/
  classNames_eq_sort : ns.classNames = m.keys.sort
  /-- The classes are as many as the keys, by the names that are kept and by the tree. -/
  size_eq_card : ns.size = m.keys.card
  classCount_eq_card : ns.classCount = m.keys.card

theorem Placed.containsPath_iff {ns : Namespace} (h : ns.Placed) (name : String) :
    ns.containsPath name = true ↔ "" ∉ Text.segments name ∧
      ∃ key, (ns.record? key).isSome = true ∧ Text.segments name <+: Text.segments key := by
  by_cases hn : "" ∈ Text.segments name
  · simp [containsPath, find?, Text.segments?_eq, hn]
  · rw [containsPath, find?_of_segments ns hn, h.tidy.isSome_sub? (Text.segments_ne_nil name)]
    constructor
    · rintro ⟨more, hm⟩
      obtain ⟨r, hr⟩ := Option.isSome_iff_exists.mp hm
      have hs := (Text.segments?_eq_some.mp (h.own _ r hr)).2
      exact ⟨hn, r.name, by simp [h.record?_of_get? hr], more, hs.symm⟩
    · rintro ⟨-, key, hk, more, hm⟩
      obtain ⟨r, hr⟩ := Option.isSome_iff_exists.mp hk
      rw [record?_eq] at hr
      obtain ⟨path, hp, hg⟩ := Option.bind_eq_some_iff.mp hr
      refine ⟨more, ?_⟩
      rw [hm, (Text.segments?_eq_some.mp hp).2, hg]
      rfl

theorem lookup_of_record? {ns : Namespace} {name : String} {r : ClassRecord}
    (h : ns.record? name = some r) : ns.lookup name = some (.klass r) := by
  obtain ⟨t, ht, hv⟩ := Option.bind_eq_some_iff.mp h
  simp [lookup, ht, hv]

theorem lookup_of_find? {ns : Namespace} {name : String} {t : Trie ClassRecord}
    (hf : ns.find? name = some t) (hr : ns.record? name = none) :
    ns.lookup name = some (.package (childrenOf t)) := by
  have hv : t.value? = none := by simpa [record?, hf] using hr
  simp [lookup, hf, hv]

theorem find?_below {ns : Namespace} {name s : String} {t : Trie ClassRecord}
    (hf : ns.find? name = some t) (hdot : '.' ∉ s.toList) (hs : s ≠ "") :
    ns.find? (name ++ "." ++ s) = t.children.get? s := by
  obtain ⟨path, hp, hsub⟩ := Option.bind_eq_some_iff.mp hf
  obtain ⟨hn, rfl⟩ := Text.segments?_eq_some.mp hp
  have hn' : "" ∉ Text.segments (name ++ "." ++ s) := by
    simp [Text.segments_below name hdot, hn, hs.symm]
  rw [find?_of_segments ns hn', Text.segments_below name hdot, Trie.sub?_append, hsub]
  cases hc : t.children.get? s <;> simp [Trie.sub?, hc]

theorem Placed.child_name {ns : Namespace} (h : ns.Placed) {name s : String}
    {t child : Trie ClassRecord} (hf : ns.find? name = some t) (hc : (s, child) ∈ t.children) :
    '.' ∉ s.toList ∧ s ≠ "" := by
  obtain ⟨path, hp, hsub⟩ := Option.bind_eq_some_iff.mp hf
  have ht := h.tidy.sub hsub
  obtain ⟨distinct, below⟩ := Trie.tidy_iff.mp ht
  obtain ⟨more, hm⟩ := (below s child hc).2
  obtain ⟨r, hr⟩ := Option.isSome_iff_exists.mp hm
  have hg : ns.tree.get? (path ++ s :: more) = some r := by
    rw [Trie.get?_append, hsub, Option.bind_some, Trie.get?_cons, Assoc.get?_of_mem distinct hc]
    exact hr
  obtain ⟨hn, hsegs⟩ := Text.segments?_eq_some.mp (h.own _ r hg)
  have hmem : s ∈ Text.segments r.name := by simp [hsegs]
  exact ⟨Text.dot_notMem_of_mem_segments hmem, fun he => hn (he ▸ hmem)⟩

theorem mem_childrenOf {t : Trie ClassRecord} {s : String} {isClass : Bool} :
    (s, isClass) ∈ childrenOf t ↔
      ∃ child, (s, child) ∈ t.children ∧ child.value?.isSome = isClass := by
  simp [childrenOf]

/-- The children of a package are the segments that continue its name to a path. -/
theorem Placed.mem_childrenOf_iff {ns : Namespace} (h : ns.Placed) {name : String}
    {t : Trie ClassRecord} (hf : ns.find? name = some t) (s : String) (isClass : Bool) :
    (s, isClass) ∈ childrenOf t ↔ '.' ∉ s.toList ∧ ns.containsPath (name ++ "." ++ s) = true ∧
      isClass = ns.isClass (name ++ "." ++ s) := by
  obtain ⟨path, hp, hsub⟩ := Option.bind_eq_some_iff.mp hf
  obtain ⟨distinct, below⟩ := Trie.tidy_iff.mp (h.tidy.sub hsub)
  rw [mem_childrenOf]
  constructor
  · rintro ⟨child, hc, rfl⟩
    obtain ⟨hdot, hs⟩ := h.child_name hf hc
    have hb := find?_below hf hdot hs
    rw [Assoc.get?_of_mem distinct hc] at hb
    refine ⟨hdot, ?_, ?_⟩
    · rw [containsPath, hb]; rfl
    · rw [Namespace.isClass, record?, hb]; rfl
  · rintro ⟨hdot, hpath, rfl⟩
    have hs : s ≠ "" := by
      rintro rfl
      have hn := ((h.containsPath_iff _).mp hpath).1
      rw [Text.segments_below name hdot] at hn
      exact hn (by simp)
    have hb := find?_below hf hdot hs
    rw [containsPath, hb] at hpath
    obtain ⟨child, hc⟩ := Option.isSome_iff_exists.mp hpath
    refine ⟨child, Assoc.mem_of_get? hc, ?_⟩
    rw [Namespace.isClass, record?, hb, hc]
    rfl

theorem childrenOf_pairwise {t : Trie ClassRecord} (distinct : t.children.keys.Nodup) :
    ((childrenOf t).map Prod.fst).Pairwise (· < ·) := by
  have hle := pairwise_mergeSort_text Prod.fst
    (t.children.map fun child => (child.1, child.2.value?.isSome))
  have hperm := (List.mergeSort_perm (t.children.map fun child => (child.1, child.2.value?.isSome))
    fun a b => !(b.1 < a.1)).map Prod.fst
  have hkeys : (t.children.map fun child => (child.1, child.2.value?.isSome)).map Prod.fst =
      t.children.keys := by simp [Assoc.keys]
  have hne : ((childrenOf t).map Prod.fst).Nodup :=
    hperm.nodup_iff.mpr (hkeys ▸ distinct)
  exact ((List.pairwise_map.mpr hle).and hne).imp fun h => lt_of_le_of_ne h.1 h.2

theorem Placed.name_of_path {ns : Namespace} (h : ns.Placed) {path : List String} {r : ClassRecord}
    (hg : ns.tree.get? path = some r) :
    String.ofList (Text.joinWith ['.'] (path.map String.toList)) = r.name := by
  rw [← (Text.segments?_eq_some.mp (h.own path r hg)).2, Text.ofList_joinWith_segments]

theorem Placed.mem_names_iff {ns : Namespace} (h : ns.Placed) (name : String) :
    name ∈ ns.tree.paths.map (fun path =>
      String.ofList (Text.joinWith ['.'] (path.map String.toList))) ↔
      (ns.record? name).isSome = true := by
  constructor
  · intro hm
    obtain ⟨path, hp, rfl⟩ := List.mem_map.mp hm
    obtain ⟨r, hr⟩ := Option.isSome_iff_exists.mp ((Trie.mem_paths_iff h.tidy path).mp hp)
    rw [h.name_of_path hr, h.record?_of_get? hr]
    rfl
  · intro hs
    obtain ⟨r, hr⟩ := Option.isSome_iff_exists.mp hs
    have hname := h.record?_name hr
    rw [record?_eq] at hr
    obtain ⟨path, -, hg⟩ := Option.bind_eq_some_iff.mp hr
    have hp := (Trie.mem_paths_iff h.tidy path).mpr (by simp [hg])
    exact List.mem_map.mpr ⟨path, hp, (h.name_of_path hg).trans hname⟩

theorem Placed.nodup_names {ns : Namespace} (h : ns.Placed) :
    (ns.tree.paths.map fun path =>
      String.ofList (Text.joinWith ['.'] (path.map String.toList))).Nodup := by
  refine List.Nodup.map_on ?_ (Trie.nodup_paths h.tidy)
  intro a ha b hb he
  obtain ⟨r, hr⟩ := Option.isSome_iff_exists.mp ((Trie.mem_paths_iff h.tidy a).mp ha)
  obtain ⟨r', hr'⟩ := Option.isSome_iff_exists.mp ((Trie.mem_paths_iff h.tidy b).mp hb)
  rw [h.name_of_path hr, h.name_of_path hr'] at he
  have h₁ := h.own a r hr
  have h₂ := h.own b r' hr'
  rw [he, h₂] at h₁
  exact (Option.some.inj h₁).symm

theorem Placed.classNames_eq_sort {ns : Namespace} (h : ns.Placed) {keys : Finset String}
    (hk : ∀ name, (ns.record? name).isSome = true ↔ name ∈ keys) : ns.classNames = keys.sort :=
  sortTexts_eq_sort h.distinct fun name => (h.mem_registered_iff name).trans (hk name)

theorem Placed.classCount_eq_size {ns : Namespace} (h : ns.Placed) : ns.classCount = ns.size := by
  have hperm : (ns.tree.paths.map fun path =>
      String.ofList (Text.joinWith ['.'] (path.map String.toList))).Perm ns.registered :=
    (List.perm_ext_iff_of_nodup h.nodup_names h.distinct).mpr fun name =>
      (h.mem_names_iff name).trans (h.mem_registered_iff name).symm
  simpa [classCount, size] using hperm.length_eq

/-- A namespace in which every record stands in its place is the map of its records. -/
theorem Placed.represents {ns : Namespace} (h : ns.Placed) {m : Registry}
    (hm : ∀ name, ns.record? name = m.lookup name) : ns.Represents m := by
  have hkey : ∀ name, (ns.record? name).isSome = true ↔ name ∈ m := by
    intro name
    rw [hm, Finmap.lookup_isSome]
  have hnames : ns.classNames = m.keys.sort :=
    h.classNames_eq_sort fun name => (hkey name).trans Finmap.mem_keys.symm
  have hregistered : ∀ name, name ∈ ns.registered ↔ name ∈ m := fun name =>
    (h.mem_registered_iff name).trans (hkey name)
  have hsize : ns.size = m.keys.card := by
    rw [size, ← (sortTexts_perm _).length_eq, ← classNames, hnames, Finset.length_sort]
  refine ⟨hkey, hm, ?_, ?_, ?_, ?_, ⟨h.distinct, hregistered⟩, hnames, hsize,
    h.classCount_eq_size.trans hsize⟩
  · intro name
    rw [h.containsPath_iff]
    simp only [hkey]
  · intro name r hr
    exact lookup_of_record? ((hm name).trans hr)
  · intro name hn hpath
    have hnone : ns.record? name = none := (hm name).trans (Finmap.lookup_eq_none.mpr hn)
    obtain ⟨t, ht⟩ := Option.isSome_iff_exists.mp hpath
    obtain ⟨path, -, hsub⟩ := Option.bind_eq_some_iff.mp ht
    refine ⟨childrenOf t, lookup_of_find? ht hnone,
      childrenOf_pairwise (Trie.tidy_iff.mp (h.tidy.sub hsub)).1, ?_⟩
    intro s isKey
    have hd : ns.isClass (name ++ "." ++ s) = decide (name ++ "." ++ s ∈ m) := by
      rw [Bool.eq_iff_iff, decide_eq_true_iff]
      exact hkey _
    rw [h.mem_childrenOf_iff ht, hd]
  · intro name hpath
    have hf : ns.find? name = none := by simpa [containsPath] using hpath
    simp [lookup, hf]

end Namespace
end ScriptSense
