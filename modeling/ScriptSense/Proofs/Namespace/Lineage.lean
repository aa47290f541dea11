import ScriptSense.Namespace.View
import ScriptSense.Proofs.Namespace.Registry

/-! Walks from a class along its superclasses. A walk that ends is the lineage of its class, and the
merged view is built along it; a walk that does not repeat a class ends, since there are only finitely
many classes. -/
namespace ScriptSense
namespace Namespace

/-- The superclass with which the walk from a class goes on: one that is merged and registered. -/
def next? (ns : Namespace) (name : String) : Option String :=
  (ns.record? name).bind fun r => (View.mergedSuper? ns.roots r).filter ns.isClass

/-- The class that the walk from a class reaches after some steps. -/
def ancestor? (ns : Namespace) : Nat → String → Option String
  | 0, name => if ns.isClass name then some name else none
  | i + 1, name => (ns.next? name).bind fun superClass => ns.ancestor? i superClass

theorem next?_eq_some {ns : Namespace} {name superClass : String}
    (h : ns.next? name = some superClass) : ∃ r, ns.record? name = some r ∧
      View.mergedSuper? ns.roots r = some superClass ∧ ns.isClass superClass = true := by
  obtain ⟨r, hr, hs⟩ := Option.bind_eq_some_iff.mp h
  exact ⟨r, hr, Option.filter_eq_some_iff.mp hs⟩

theorem next?_of_record? {ns : Namespace} {name : String} {r : ClassRecord}
    (hr : ns.record? name = some r) :
    ns.next? name = (View.mergedSuper? ns.roots r).filter ns.isClass := by
  rw [next?, hr]
  rfl

theorem isClass_of_record? {ns : Namespace} {name : String} {r : ClassRecord}
    (hr : ns.record? name = some r) : ns.isClass name = true := by rw [isClass, hr]; rfl

theorem isClass_append {ns : Namespace} {chain : List String} {name : String}
    (h : ∀ c ∈ chain, ns.isClass c = true) (hn : ns.isClass name = true) :
    ∀ c ∈ chain ++ [name], ns.isClass c = true := by
  intro c hm
  rcases List.mem_append.mp hm with hm | hm
  · exact h c hm
  · exact (List.mem_singleton.mp hm) ▸ hn

theorem isClass_of_ancestor? {ns : Namespace} {i : Nat} {name c : String}
    (h : ns.ancestor? i name = some c) : ns.isClass c = true := by
  induction i generalizing name with
  | zero =>
    simp only [ancestor?] at h
    split at h
    · rename_i hc
      exact (Option.some.inj h) ▸ hc
    · cases h
  | succ i ih =>
    obtain ⟨superClass, -, hs⟩ := Option.bind_eq_some_iff.mp h
    exact ih hs

theorem ancestor?_add (ns : Namespace) {i : Nat} {name c : String}
    (h : ns.ancestor? i name = some c) (j : Nat) :
    ns.ancestor? (i + j) name = ns.ancestor? j c := by
  induction i generalizing name with
  | zero =>
    simp only [ancestor?] at h
    split at h
    · rw [Nat.zero_add, Option.some.inj h]
    · cases h
  | succ i ih =>
    obtain ⟨superClass, hn, hs⟩ := Option.bind_eq_some_iff.mp h
    rw [Nat.add_right_comm, ancestor?, hn]
    exact ih hs

theorem length_le_of_nodup {ns : Namespace} {names : List String} (distinct : names.Nodup)
    (hc : ∀ name ∈ names, ns.isClass name = true) : names.length ≤ ns.classCount := by
  have hsub : names.map Text.segments ⊆ ns.tree.paths := by
    intro path hpath
    obtain ⟨name, hn, rfl⟩ := List.mem_map.mp hpath
    obtain ⟨r, hr⟩ := Option.isSome_iff_exists.mp (hc name hn)
    rw [record?_eq] at hr
    obtain ⟨path, hp, hg⟩ := Option.bind_eq_some_iff.mp hr
    rw [(Text.segments?_eq_some.mp hp).2]
    exact Trie.mem_paths_of_get? (by simp [hg])
  have hnodup : (names.map Text.segments).Nodup := distinct.map fun _ _ => Text.segments_injective
  simpa [classCount] using (hnodup.subperm hsub).length_le

theorem exists_ancestor?_eq_none {ns : Namespace} {name : String}
    (hwalk : ∀ i j c, ns.ancestor? i name = some c → ns.ancestor? j name = some c → i = j) :
    ∃ n, ns.ancestor? n name = none := by
  by_contra hno
  have hsome : ∀ i, ∃ c, ns.ancestor? i name = some c := by
    intro i
    cases hi : ns.ancestor? i name with
    | none => exact absurd ⟨i, hi⟩ hno
    | some c => exact ⟨c, rfl⟩
  choose walk hw using hsome
  have hinj : Function.Injective walk := fun i j he => hwalk i j _ (hw i) (he ▸ hw j)
  have hlen := length_le_of_nodup (List.nodup_range.map hinj) (by
    intro c hc
    obtain ⟨i, -, rfl⟩ := List.mem_map.mp hc
    exact isClass_of_ancestor? (hw i) : ∀ c ∈ (List.range (ns.classCount + 1)).map walk, _)
  rw [List.length_map, List.length_range] at hlen
  omega

/-- The view that is built along a lineage: the class itself first, its last ancestor at the end. -/
inductive Built (ns : Namespace) : List String → ClassRecord → Prop where
  | last {name : String} {r : ClassRecord} (record : ns.record? name = some r)
      (next : ns.next? name = none) : Built ns [name] (View.assemble r (ns.mixinsOf r) none)
  | step {name superClass : String} {rest : List String} {r view : ClassRecord}
      (record : ns.record? name = some r) (next : ns.next? name = some superClass)
      (parent : Built ns (superClass :: rest) view) :
      Built ns (name :: superClass :: rest)
        (View.assemble r (ns.mixinsOf r) (some (superClass, view)))

theorem exists_built_of_ancestor?_eq_none {ns : Namespace} {n : Nat} {name : String}
    {r : ClassRecord} (hr : ns.record? name = some r) (hn : ns.ancestor? n name = none) :
    ∃ rest view, ns.Built (name :: rest) view := by
  induction n generalizing name r with
  | zero => simp [ancestor?, isClass_of_record? hr] at hn
  | succ n ih =>
    cases hs : ns.next? name with
    | none => exact ⟨[], _, .last hr hs⟩
    | some superClass =>
      obtain ⟨-, -, -, hc⟩ := next?_eq_some hs
      obtain ⟨r', hr'⟩ := Option.isSome_iff_exists.mp hc
      rw [ancestor?, hs] at hn
      obtain ⟨rest, view, hb⟩ := ih hr' hn
      exact ⟨_, _, .step hr hs hb⟩

theorem Built.getElem?_eq {ns : Namespace} {name : String} {rest : List String}
    {view : ClassRecord} (h : ns.Built (name :: rest) view) (i : Nat) :
    (name :: rest)[i]? = ns.ancestor? i name := by
  generalize hw : name :: rest = walk at h
  induction h generalizing name rest i with
  | last record next =>
    obtain ⟨rfl, rfl⟩ := List.cons.inj hw
    cases i with
    | zero => simp [ancestor?, isClass_of_record? record]
    | succ i => simp [ancestor?, next]
  | step record next parent ih =>
    obtain ⟨rfl, rfl⟩ := List.cons.inj hw
    cases i with
    | zero => simp [ancestor?, isClass_of_record? record]
    | succ i =>
      rw [List.getElem?_cons_succ, ancestor?, next]
      exact ih i rfl

/-- A class has at most one lineage and at most one view. -/
theorem Built.unique {ns : Namespace} {name : String} {a b : List String} {v w : ClassRecord}
    (ha : ns.Built (name :: a) v) (hb : ns.Built (name :: b) w) : a = b ∧ v = w := by
  induction a generalizing name b v w with
  | nil =>
    cases ha with
    | last record next =>
      cases hb with
      | last record' next' =>
        obtain rfl := Option.some.inj (record.symm.trans record')
        exact ⟨rfl, rfl⟩
      | step record' next' parent' => simp [next] at next'
  | cons s a ih =>
    cases ha with
    | step record next parent =>
      cases hb with
      | last record' next' => simp [next] at next'
      | step record' next' parent' =>
        obtain rfl := Option.some.inj (record.symm.trans record')
        obtain rfl := Option.some.inj (next.symm.trans next')
        obtain ⟨rfl, rfl⟩ := ih parent parent'
        exact ⟨rfl, rfl⟩

/-- What remains of a lineage at one of its classes is the lineage of that class. -/
theorem Built.drop {ns : Namespace} {walk : List String} {v : ClassRecord} (h : ns.Built walk v)
    {i : Nat} {c : String} (hi : walk[i]? = some c) :
    ∃ rest w, ns.Built (c :: rest) w ∧ rest.length + 1 + i = walk.length := by
  induction h generalizing i with
  | @last name r record next =>
    cases i with
    | zero =>
      obtain rfl := Option.some.inj hi
      exact ⟨[], _, .last record next, rfl⟩
    | succ i => simp at hi
  | @step name superClass rest r view record next parent ih =>
    cases i with
    | zero =>
      obtain rfl := Option.some.inj hi
      exact ⟨_, _, .step record next parent, rfl⟩
    | succ i =>
      obtain ⟨rest', w, hb, hl⟩ := ih (by simpa using hi)
      exact ⟨rest', w, hb, by simp only [List.length_cons] at hl ⊢; omega⟩

theorem Built.no_return {ns : Namespace} {name c : String} {rest : List String}
    {v : ClassRecord} (h : ns.Built (name :: rest) v) (hc : c ∈ name :: rest) (k : Nat) :
    ns.ancestor? (k + 1) c ≠ some name := by
  intro hk
  obtain ⟨i, hi⟩ := List.mem_iff_getElem?.mp hc
  obtain ⟨below, w, hb, hl⟩ := h.drop hi
  rw [← hb.getElem?_eq] at hk
  obtain ⟨again, w', hb', hl'⟩ := hb.drop hk
  have he := (h.unique hb').1
  subst he
  simp only [List.length_cons] at hl hl'
  omega

theorem Built.isClass {ns : Namespace} {walk : List String} {v : ClassRecord}
    (h : ns.Built walk v) : ∀ c ∈ walk, ns.isClass c = true := by
  induction h with
  | last record next => simpa using isClass_of_record? record
  | step record next parent ih =>
    intro c hc
    rcases List.mem_cons.mp hc with rfl | hc
    · exact isClass_of_record? record
    · exact ih c hc

theorem Built.nodup {ns : Namespace} {walk : List String} {v : ClassRecord}
    (h : ns.Built walk v) : walk.Nodup := by
  induction h with
  | last record next => simp
  | @step name superClass rest r view record next parent ih =>
    refine List.nodup_cons.mpr ⟨?_, ih⟩
    intro hm
    obtain ⟨i, hi⟩ := List.mem_iff_getElem?.mp hm
    have hself : ns.ancestor? (i + 1) name = some name := by
      rw [ancestor?, next]
      exact (parent.getElem?_eq i).symm.trans hi
    exact (Built.step record next parent).no_return (by simp) i hself

theorem Built.ancestor?_injective {ns : Namespace} {name : String} {rest : List String}
    {v : ClassRecord} (h : ns.Built (name :: rest) v) (i j : Nat) (c : String)
    (hi : ns.ancestor? i name = some c) (hj : ns.ancestor? j name = some c) : i = j := by
  rw [← h.getElem?_eq] at hi hj
  have hlt : i < (name :: rest).length := (List.getElem?_eq_some_iff.mp hi).1
  exact (List.getElem?_inj hlt h.nodup).mp (hi.trans hj.symm)

end Namespace
end ScriptSense
