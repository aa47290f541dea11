import ScriptSense.Proofs.Namespace.Cache
import ScriptSense.Proofs.Namespace.Walks

/-! Cyclic hierarchies. A class has no view exactly if it is not registered or the walk along its
superclasses comes to a class twice. What is reported then is the walk up to that class, and nothing
is remembered: no class on the way into a cycle has a view, so a remembered view never stands in for
a part of the walk. -/
namespace ScriptSense
namespace Namespace

/-- The walk from a class comes to some class twice. -/
def Returns (ns : Namespace) (name : String) : Prop :=
  ∃ i j c, i < j ∧ ns.ancestor? i name = some c ∧ ns.ancestor? j name = some c

/-- The walk from a class up to the first class that it comes to again. -/
structure FirstReturn (ns : Namespace) (name : String) (chain : List String) : Prop where
  walk : ∀ i < chain.length, chain[i]? = ns.ancestor? i name
  distinct : chain.dropLast.Nodup
  again : ∃ last, chain.getLast? = some last ∧ chain.dropLast.count last = 1

variable {ns : Namespace} {name : String} {chain : List String}

/-- A walk is found to be cyclic at the first class that stands among those before it. The rest of
the walk follows the classes that were already on the way. -/
theorem Viewed.exists_walk_of_error {e : View.Cycle} (h : ns.Viewed chain name (.error e))
    (hc : ∀ c ∈ chain, ns.isClass c = true) (distinct : chain.Nodup) :
    ∃ walk, e.chain = chain ++ walk ∧ walk ≠ [] ∧
      (∀ i < walk.length, walk[i]? = ns.ancestor? i name) ∧ e.chain.dropLast.Nodup ∧
      ∃ last ∈ e.chain.dropLast, e.chain.getLast? = some last := by
  generalize hfound : Except.error e = found at h
  induction h with
  | unregistered _ _ => cases hfound
  | topmost _ _ _ => cases hfound
  | derived _ _ _ _ => cases hfound
  | @cyclic chain name hmem =>
    obtain rfl := Except.error.inj hfound
    refine ⟨[name], rfl, by simp, ?_, ?_, name, ?_, ?_⟩
    · intro i hi
      obtain rfl : i = 0 := by simpa using hi
      have hname : ns.isClass name = true := hc name hmem
      simp [ancestor?, hname]
    · simpa using distinct
    · simpa using hmem
    · simp
  | @broken chain name superClass r e' hmem hr hs hp ih =>
    obtain rfl := Except.error.inj hfound
    have hclasses := isClass_append hc (isClass_of_record? hr)
    have hnodup : (chain ++ [name]).Nodup :=
      distinct.append (List.nodup_singleton name) (List.disjoint_singleton.mpr hmem)
    obtain ⟨walk, hchain, hne, hwalk, hrest⟩ := ih hclasses hnodup rfl
    refine ⟨name :: walk, by simp [hchain], by simp, ?_, hrest⟩
    -- the walk goes on with the superclass, since the walk from there begins with a class
    have hsuper : ns.isClass superClass = true := by
      have hpos : 0 < walk.length := List.length_pos_iff.mpr hne
      have hfirst := hwalk 0 hpos
      rw [List.getElem?_eq_getElem hpos] at hfirst
      by_contra hno
      simp [ancestor?, hno] at hfirst
    have hnext : ns.next? name = some superClass := by
      rw [next?_of_record? hr, hs]
      exact Option.filter_eq_some_iff.mpr ⟨rfl, hsuper⟩
    intro i hi
    cases i with
    | zero => simp [ancestor?, isClass_of_record? hr]
    | succ i =>
      rw [List.getElem?_cons_succ, ancestor?, hnext]
      exact hwalk i (by simpa using hi)

theorem firstReturn_of_view {cycle : View.Cycle} (h : ns.view name = .error cycle) :
    ns.FirstReturn name cycle.chain := by
  have hviewed : ns.Viewed [] name (.error cycle) := h ▸ ns.viewed_view name
  obtain ⟨walk, hchain, -, hwalk, hnodup, last, hmem, hlast⟩ :=
    hviewed.exists_walk_of_error (by simp) List.nodup_nil
  rw [List.nil_append] at hchain
  refine ⟨hchain ▸ hwalk, hnodup, last, hlast, ?_⟩
  exact List.count_eq_one_of_mem hnodup hmem

theorem FirstReturn.returns (h : ns.FirstReturn name chain) : ns.Returns name := by
  obtain ⟨last, hlast, hcount⟩ := h.again
  have hmem : last ∈ chain.dropLast := List.count_pos_iff.mp (by omega)
  obtain ⟨i, hi⟩ := List.mem_iff_getElem?.mp hmem
  have hlt : i < chain.length - 1 := by
    have := (List.getElem?_eq_some_iff.mp hi).1
    rwa [List.length_dropLast] at this
  have hfirst : chain[i]? = some last := by
    rw [List.getElem?_dropLast, if_pos hlt] at hi
    exact hi
  rw [List.getLast?_eq_getElem?] at hlast
  refine ⟨i, chain.length - 1, last, hlt, ?_, ?_⟩
  · rw [← h.walk i (by omega)]
    exact hfirst
  · rw [← h.walk (chain.length - 1) (by omega)]
    exact hlast

theorem ancestor?_of_not_isClass (h : ns.isClass name = false) (i : Nat) :
    ns.ancestor? i name = none := by
  cases i with
  | zero => simp [ancestor?, h]
  | succ i =>
    have hr : ns.record? name = none := by simpa [isClass] using h
    simp [ancestor?, next?, hr]

theorem Returns.isClass (h : ns.Returns name) : ns.isClass name = true := by
  by_contra hno
  rw [Bool.not_eq_true] at hno
  obtain ⟨i, j, c, -, hi, -⟩ := h
  rw [ancestor?_of_not_isClass hno] at hi
  cases hi

/-- A view is a cycle, a view that was built, or nothing, as the walk returns, ends, or has no
beginning. -/
theorem view_cases (ns : Namespace) (name : String) :
    (ns.isClass name = false ∧ ns.view name = .ok none) ∨
    (ns.isClass name = true ∧ ¬ ns.Returns name ∧ ∃ v, ns.view name = .ok (some v)) ∨
    (ns.Returns name ∧ ∃ cycle, ns.view name = .error cycle) := by
  cases hv : ns.view name with
  | error cycle => exact Or.inr (Or.inr ⟨(firstReturn_of_view hv).returns, cycle, rfl⟩)
  | ok found =>
    have hf : ns.classCount < ns.classCount + 2 + ([] : List String).length := by simp
    rcases viewAfter_eq_ok (ns.approach_nil name) hf hv with ⟨rfl, hr⟩ | ⟨v, rest, rfl, hb⟩
    · left
      exact ⟨by simp [isClass, hr], rfl⟩
    · right
      left
      refine ⟨hb.isClass name (by simp), ?_, v, rfl⟩
      rintro ⟨i, j, c, hlt, hi, hj⟩
      exact absurd (hb.ancestor?_injective i j c hi hj) (Nat.ne_of_lt hlt)

end Namespace

namespace Database

theorem viewAfter_eq_of_error {db : Database} (h : db.arrival = none) {generation fuel : Nat}
    {chain : List String} {name : String} {e : Interruption}
    (he : (viewAfter generation fuel chain name db).1 = .error e) :
    (viewAfter generation fuel chain name db).2.1 = db := by
  induction fuel generalizing chain name with
  | zero => rfl
  | succ fuel ih =>
    rw [viewAfter_idle h] at he ⊢
    by_cases hc : chain.contains name = true
    · simp only [if_pos hc]
    · simp only [if_neg hc] at he ⊢
      cases hv : db.views.get? name with
      | some view => rfl
      | none =>
        simp only [hv] at he ⊢
        cases hr : db.names.record? name with
        | none => rfl
        | some r =>
          simp only [hr] at he ⊢
          cases hs : View.mergedSuper? db.names.roots r with
          | none => simp [hs] at he
          | some superClass =>
            simp only [hs] at he ⊢
            have hparent := @ih (chain ++ [name]) superClass
            -- only an answer about the superclass that is itself an error is passed on
            rcases hanswer : viewAfter generation fuel (chain ++ [name]) superClass db with
              ⟨parent | parent, later, events⟩
            · rw [hanswer] at he hparent
              exact hparent he
            · rw [hanswer] at he
              cases he

theorem Sound.view_eq_of_error {db : Database} (h : db.Sound) {name : String}
    {cycle : View.Cycle} (hv : db.names.view name = .error cycle) :
    db.view name = (.ok none, db, [cyclic name cycle]) := by
  have hf : db.names.classCount < db.names.classCount + 2 + ([] : List String).length := by simp
  obtain ⟨later, he, -, -⟩ := h.viewAfter_eq db.generation (db.names.approach_nil name) hf
  have hsearch : db.names.viewAfter (db.names.classCount + 2) [] name = .error cycle := hv
  rw [hsearch] at he
  have hsame : later = db := by
    have herror := viewAfter_eq_of_error h.idle (congrArg Prod.fst he)
    rwa [he] at herror
  have hfuel : db.names.classCount + db.arrival.toList.length + 2 = db.names.classCount + 2 := by
    simp [h.idle]
  simp only [view, hfuel, he, hsame]
  rfl

/-- Cycles are found exactly. After any history, asking for a view gives an answer, found by a walk
that ends; the answer is nothing exactly if the class is not registered or the walk from it comes to
a class twice. In that case the only report is the walk up to its first return, and the database, with
all views that it remembers, stays as it was; in all other cases nothing is reported. -/
theorem view_ofHistory_cyclic (roots : List String) (calls : List Call) (name : String) :
    (ofHistory roots calls).names.Viewed [] name ((ofHistory roots calls).names.view name) ∧
    (∃ found, ((ofHistory roots calls).view name).1 = .ok found) ∧
    (((ofHistory roots calls).view name).1 = .ok none ↔
      (ofHistory roots calls).names.isClass name = false ∨
        (ofHistory roots calls).names.Returns name) ∧
    ((ofHistory roots calls).names.Returns name →
      ∃ chain, (ofHistory roots calls).names.FirstReturn name chain ∧
        (ofHistory roots calls).view name =
          (.ok none, ofHistory roots calls, [cyclic name ⟨chain⟩])) ∧
    (¬ (ofHistory roots calls).names.Returns name → ((ofHistory roots calls).view name).2.2 = []) := by
  have hsound := sound_ofHistory roots calls
  generalize ofHistory roots calls = db at hsound ⊢
  obtain ⟨later, hanswer, -⟩ := hsound.view_eq name
  refine ⟨db.names.viewed_view name, ⟨_, congrArg Prod.fst hanswer⟩, ?_⟩
  rcases db.names.view_cases name with ⟨hclass, hv⟩ | ⟨hclass, hno, v, hv⟩ | ⟨hreturns, cycle, hv⟩
  · have hno : ¬ db.names.Returns name := fun hreturns => by
      rw [hreturns.isClass] at hclass
      cases hclass
    rw [hanswer, Namespace.view?, hv]
    exact ⟨⟨fun _ => Or.inl hclass, fun _ => rfl⟩, fun hreturns => absurd hreturns hno, fun _ => rfl⟩
  · rw [hanswer, Namespace.view?, hv]
    refine ⟨⟨?_, ?_⟩, fun hreturns => absurd hreturns hno, fun _ => rfl⟩
    · intro hnone
      cases hnone
    · rintro (hunregistered | hreturns)
      · rw [hclass] at hunregistered
        cases hunregistered
      · exact absurd hreturns hno
  · have hview := hsound.view_eq_of_error hv
    refine ⟨⟨fun _ => Or.inr hreturns, fun _ => ?_⟩, fun _ => ?_, fun hno => absurd hreturns hno⟩
    · rw [hview]
    · exact ⟨cycle.chain, Namespace.firstReturn_of_view hv, hview⟩

-- a way into a cycle of two classes
example : ((ofHistory [] [.ingest (.bare "c" (some "a")), .ingest (.bare "a" (some "b")),
    .ingest (.bare "b" (some "a"))]).view "c").2.2 = [cyclic "c" ⟨["c", "a", "b", "a"]⟩] := by
  cbv

end Database
end ScriptSense
