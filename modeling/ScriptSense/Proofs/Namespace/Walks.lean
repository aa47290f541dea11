import Mathlib.Data.List.Perm.Subperm
import ScriptSense.Analysis.Traced
import ScriptSense.Namespace.Override
import ScriptSense.Proofs.Namespace.Lineage

/-! Walks from class to class end. The view of a class is built along its superclasses, and a method
is followed to those it overrides; neither comes to a class twice, and there are only finitely many
classes. -/
namespace ScriptSense

namespace Namespace

/-- The view of a class whose descendants on the way are `chain`, as the walk along its superclasses
gives it. -/
inductive Viewed (ns : Namespace) :
    List String → String → Except View.Cycle (Option ClassRecord) → Prop
  | cyclic {chain : List String} {name : String} (h : name ∈ chain) :
      Viewed ns chain name (.error ⟨chain ++ [name]⟩)
  | unregistered {chain : List String} {name : String} (h : name ∉ chain)
      (hr : ns.record? name = none) : Viewed ns chain name (.ok none)
  | topmost {chain : List String} {name : String} {r : ClassRecord} (h : name ∉ chain)
      (hr : ns.record? name = some r) (hs : View.mergedSuper? ns.roots r = none) :
      Viewed ns chain name (.ok (some (View.assemble r (ns.mixinsOf r) none)))
  | broken {chain : List String} {name superClass : String} {r : ClassRecord} {e : View.Cycle}
      (h : name ∉ chain) (hr : ns.record? name = some r)
      (hs : View.mergedSuper? ns.roots r = some superClass)
      (hp : Viewed ns (chain ++ [name]) superClass (.error e)) : Viewed ns chain name (.error e)
  | derived {chain : List String} {name superClass : String} {r : ClassRecord}
      {parent : Option ClassRecord} (h : name ∉ chain) (hr : ns.record? name = some r)
      (hs : View.mergedSuper? ns.roots r = some superClass)
      (hp : Viewed ns (chain ++ [name]) superClass (.ok parent)) :
      Viewed ns chain name
        (.ok (some (View.assemble r (ns.mixinsOf r) (parent.map (Prod.mk superClass)))))

theorem viewed_viewAfter {ns : Namespace} {fuel : Nat} {chain : List String} {name : String}
    (distinct : chain.Nodup) (hc : ∀ c ∈ chain, ns.isClass c = true)
    (hf : ns.classCount < fuel + chain.length) :
    ns.Viewed chain name (ns.viewAfter fuel chain name) := by
  induction fuel generalizing chain name with
  | zero =>
    have := length_le_of_nodup distinct hc
    omega
  | succ fuel ih =>
    by_cases hm : name ∈ chain
    · have hv : ns.viewAfter (fuel + 1) chain name = .error ⟨chain ++ [name]⟩ := by
        simp [viewAfter, hm]
      exact hv ▸ .cyclic hm
    · cases hr : ns.record? name with
      | none =>
        have hv : ns.viewAfter (fuel + 1) chain name = .ok none := by simp [viewAfter, hm, hr]
        exact hv ▸ .unregistered hm hr
      | some r =>
        cases hs : View.mergedSuper? ns.roots r with
        | none =>
          have hv : ns.viewAfter (fuel + 1) chain name =
              .ok (some (View.assemble r (ns.mixinsOf r) none)) := by
            simp [viewAfter, hm, hr, hs]
          exact hv ▸ .topmost hm hr hs
        | some superClass =>
          have hnodup : (chain ++ [name]).Nodup :=
            distinct.append (List.nodup_singleton name) (List.disjoint_singleton.mpr hm)
          have hclasses := isClass_append hc (isClass_of_record? hr)
          have hp : ns.Viewed (chain ++ [name]) superClass
              (ns.viewAfter fuel (chain ++ [name]) superClass) := by
            refine ih hnodup hclasses ?_
            simp only [List.length_append, List.length_singleton]
            omega
          cases hv : ns.viewAfter fuel (chain ++ [name]) superClass with
          | error e =>
            have he : ns.viewAfter (fuel + 1) chain name = .error e := by
              simp [viewAfter, hm, hr, hs, hv]
            exact he ▸ .broken hm hr hs (hv ▸ hp)
          | ok parent =>
            have he : ns.viewAfter (fuel + 1) chain name = .ok (some (View.assemble r
                (ns.mixinsOf r) (parent.map (Prod.mk superClass)))) := by
              simp [viewAfter, hm, hr, hs, hv]
            exact he ▸ .derived hm hr hs (hv ▸ hp)

theorem viewed_view (ns : Namespace) (name : String) : ns.Viewed [] name (ns.view name) :=
  viewed_viewAfter List.nodup_nil (by simp) (by simp)

theorem isClass_of_view? {ns : Namespace} {name : String} {view : ClassRecord}
    (h : ns.view? name = some view) : ns.isClass name = true := by
  cases hr : ns.record? name with
  | none => simp [view?, Namespace.view, viewAfter, hr, Except.toOption] at h
  | some r => exact isClass_of_record? hr

end Namespace

namespace Override

/-- A method is followed to those it overrides, and the last one met is `last`. -/
inductive Leads (view : String → Option ClassRecord) (name : String) (enough : Member → Bool) :
    List String → Member → Member → Prop
  | enough {visited : List String} {m : Member} (h : enough m = true) :
      Leads view name enough visited m m
  | first {visited : List String} {m : Member} (h : enough m = false)
      (ho : m.overriddenFrom = none) : Leads view name enough visited m m
  | again {visited : List String} {m : Member} {ancestor : String} (h : enough m = false)
      (ho : m.overriddenFrom = some ancestor) (hv : ancestor ∈ visited) :
      Leads view name enough visited m m
  | lost {visited : List String} {m : Member} {ancestor : String} (h : enough m = false)
      (ho : m.overriddenFrom = some ancestor) (hv : ancestor ∉ visited)
      (hm : (view ancestor).bind (·.member? name) = none) : Leads view name enough visited m m
  | next {visited : List String} {m overridden last : Member} {ancestor : String}
      (h : enough m = false) (ho : m.overriddenFrom = some ancestor) (hv : ancestor ∉ visited)
      (hm : (view ancestor).bind (·.member? name) = some overridden)
      (hl : Leads view name enough (ancestor :: visited) overridden last) :
      Leads view name enough visited m last

theorem leads_follow {ns : Namespace} {view : String → Traced (Option ClassRecord)}
    (registered : ∀ c v, (view c).value = some v → ns.isClass c = true) (name : String)
    (enough : Member → Bool) {fuel : Nat} {visited : List String} {m : Member}
    (distinct : visited.Nodup) (hc : ∀ c ∈ visited, ns.isClass c = true)
    (hf : ns.classCount < fuel + visited.length) :
    Leads (fun c => (view c).value) name enough visited m
      (follow view name enough fuel visited m).value := by
  induction fuel generalizing visited m with
  | zero =>
    have := Namespace.length_le_of_nodup distinct hc
    omega
  | succ fuel ih =>
    rw [follow]
    cases h : enough m with
    | true => exact .enough h
    | false =>
      rw [if_neg (by simp)]
      cases ho : m.overriddenFrom with
      | none => exact .first h ho
      | some ancestor =>
        by_cases hv : ancestor ∈ visited
        · simp only [List.contains_eq_mem, hv, decide_true, if_true]
          exact .again h ho hv
        · simp only [List.contains_eq_mem, hv, decide_false, Bool.false_eq_true, if_false,
            Traced.bind_value]
          cases hm : (view ancestor).value.bind (·.member? name) with
          | none => exact .lost h ho hv hm
          | some overridden =>
            obtain ⟨v, hview, -⟩ := Option.bind_eq_some_iff.mp hm
            have hclasses : ∀ c ∈ ancestor :: visited, ns.isClass c = true := by
              intro c hin
              rcases List.mem_cons.mp hin with rfl | hin
              · exact registered c v hview
              · exact hc c hin
            refine .next h ho hv hm (ih (List.nodup_cons.mpr ⟨hv, distinct⟩) hclasses ?_)
            rw [List.length_cons]
            omega

end Override
end ScriptSense
