import ScriptSense.Proofs.Namespace.Cache

/-! What a merged view holds. Every class has a layer: what it has before its ancestors are asked. A
view has the entries of the layers along the walk from its class, the nearest first, and what comes
from an ancestor names that ancestor. -/
namespace ScriptSense
namespace View

theorem get?_addNew {α : Type} (present more : Assoc α) (key : String) :
    (addNew present more).get? key = (present.get? key).or (more.get? key) := by
  induction more generalizing present with
  | nil => simp [addNew]
  | cons entry rest ih =>
    have hstep : addNew present (entry :: rest) = addNew (present.putNew entry.1 entry.2) rest := rfl
    rw [hstep, ih, Assoc.get?_putNew, Assoc.get?_cons, Option.or_assoc]
    by_cases hk : key = entry.1 <;> simp [hk]

/-- A member as a subclass sees it: it names its origin, or else the superclass it comes from. -/
def inheritMember (superClass : String) (m : Member) : Member :=
  { m with inheritedFrom := origin m.inheritedFrom superClass }

def inheritProperty (superClass : String) (p : Property) : Property :=
  { p with inheritedFrom := origin p.inheritedFrom superClass }

theorem origin_origin {known : Option String} {near far : String} (h : far ≠ "") :
    origin (origin known far) near = origin known far := by
  cases known with
  | none => simp [origin, h]
  | some name =>
    by_cases hn : name = ""
    · simp [origin, hn, h]
    · simp [origin, hn]

/-- The members that mixins bring, the earlier ones before the later ones: of each mixin its own
members, then the accessors of its properties with names that are not taken yet. -/
def mixinMembers (taken : String → Bool) : List (String × ClassRecord) → Assoc Member
  | [] => []
  | (name, mixin) :: rest =>
    tagMixin name (mixin.members ++
      allAccessors (mixin.properties.filter fun entry => !taken entry.1)) ++
    mixinMembers (fun key => taken key || mixin.properties.has key) rest

structure Layer where
  members : String → Option Member
  statics : String → Option Member
  properties : String → Option Property

/-- The accessor of the only instance stands before everything but the class's own declaration. -/
def withInstance (r : ClassRecord) (declared : Assoc Member) (entry : String → Option Member)
    (key : String) : Option Member :=
  if key = "getInstance" ∧ r.isSingleton = true ∧ key ∉ declared.keys then
    some (instanceAccessor r.name)
  else entry key

/-- The layer of a class: under each name the first of its own entry, the accessor of a property of
its own, and what the mixins bring. -/
def layer (r : ClassRecord) (mixins : List (String × ClassRecord)) : Layer where
  members := withInstance r r.members fun key =>
    (r.members ++ allAccessors r.properties ++ mixinMembers r.properties.has mixins).get? key
  statics := withInstance r r.statics fun key => r.statics.get? key
  properties key :=
    (r.properties.get? key).or (mixins.findSome? fun mixin => mixin.2.properties.get? key)

theorem mixinMembers_congr {taken taken' : String → Bool} (h : ∀ key, taken key = taken' key)
    (mixins : List (String × ClassRecord)) : mixinMembers taken mixins = mixinMembers taken' mixins := by
  rw [show taken = taken' from funext h]

/-- Adding mixins one after the other gives the members that they bring, each name from the first
that has it. -/
theorem get?_members_addMixins (parts : Parts) (mixins : List (String × ClassRecord))
    (key : String) : (mixins.foldl (fun acc m => addMixin acc m.1 m.2) parts).members.get? key =
      (parts.members.get? key).or ((mixinMembers parts.properties.has mixins).get? key) := by
  induction mixins generalizing parts with
  | nil => simp [mixinMembers]
  | cons entry rest ih =>
    obtain ⟨name, mixin⟩ := entry
    have htaken : ∀ k, (addMixin parts name mixin).properties.has k =
        (parts.properties.has k || mixin.properties.has k) := by
      intro k
      simp only [addMixin, ← Assoc.isSome_get?, Assoc.get?_append,
        Assoc.get?_filter mixin.properties fun k => !(parts.properties.get? k).isSome]
      cases parts.properties.get? k <;> simp
    rw [List.foldl_cons, ih, mixinMembers_congr htaken]
    simp only [addMixin, get?_addNew, mixinMembers, tagMixin, List.map_append, Assoc.get?_append,
      Option.or_assoc]

theorem get?_properties_addMixins (parts : Parts) (mixins : List (String × ClassRecord))
    (key : String) : (mixins.foldl (fun acc m => addMixin acc m.1 m.2) parts).properties.get? key =
      (parts.properties.get? key).or (mixins.findSome? fun m => m.2.properties.get? key) := by
  induction mixins generalizing parts with
  | nil => simp
  | cons entry rest ih =>
    obtain ⟨name, mixin⟩ := entry
    rw [List.foldl_cons, ih]
    simp only [addMixin, Assoc.get?_append, List.findSome?_cons, ← Assoc.isSome_get?,
      Assoc.get?_filter mixin.properties fun k => !(parts.properties.get? k).isSome]
    cases parts.properties.get? key with
    | some p => simp
    | none => cases mixin.properties.get? key <;> simp

theorem get?_addInstance (r : ClassRecord) (declared members : Assoc Member) (key : String) :
    (addInstance r declared members).get? key =
      withInstance r declared (fun k => members.get? k) key := by
  have hd : declared.has "getInstance" = decide ("getInstance" ∈ declared.keys) := by
    rw [Bool.eq_iff_iff, decide_eq_true_iff, Assoc.mem_keys_iff, Assoc.isSome_get?]
  unfold addInstance withInstance
  by_cases hk : key = "getInstance"
  · subst hk
    by_cases hs : r.isSingleton = true ∧ "getInstance" ∉ declared.keys
    · simp [hd, hs, Assoc.get?_put]
    · have hc : (r.isSingleton && !declared.has "getInstance") = false := by
        rw [hd]
        simpa using hs
      simp [hc, hs]
  · split <;> simp [Assoc.get?_put, hk]

theorem get?_addInstance_addNew (r : ClassRecord) (declared members above : Assoc Member)
    (key : String) : (addInstance r declared (addNew members above)).get? key =
      (withInstance r declared (fun k => members.get? k) key).or (above.get? key) := by
  rw [get?_addInstance]
  unfold withInstance
  split
  · rfl
  · exact get?_addNew members above key

theorem get?_inheritMembers (superClass : String) (members : Assoc Member) (key : String) :
    (inheritMembers superClass members).get? key =
      (members.get? key).map (inheritMember superClass) :=
  Assoc.get?_map (inheritMember superClass) members key

theorem get?_inheritProperties (superClass : String) (properties : Assoc Property) (key : String) :
    (inheritProperties superClass properties).get? key =
      (properties.get? key).map (inheritProperty superClass) :=
  Assoc.get?_map (inheritProperty superClass) properties key

theorem withInstance_congr {entry entry' : String → Option Member}
    (h : ∀ key, entry key = entry' key) (r : ClassRecord) (declared : Assoc Member) (key : String) :
    withInstance r declared entry key = withInstance r declared entry' key := by
  rw [show entry = entry' from funext h]

/-- An entry of an assembled view is the one of the layer, or else the inherited one. -/
theorem get?_assemble_members (r : ClassRecord) (mixins : List (String × ClassRecord))
    (parent : Option (String × ClassRecord)) (key : String) :
    (assemble r mixins parent).members.get? key = ((layer r mixins).members key).or
      (parent.bind fun p => (p.2.members.get? key).map (inheritMember p.1)) := by
  have hown : ∀ k, (mixins.foldl (fun acc m => addMixin acc m.1 m.2) (own r)).members.get? k =
      (r.members ++ allAccessors r.properties ++
        mixinMembers r.properties.has mixins).get? k := by
    intro k
    rw [get?_members_addMixins]
    simp only [own, get?_addNew, Assoc.get?_append]
  have hlayer := withInstance_congr hown r r.members key
  cases parent with
  | none =>
    rw [Option.bind_none, Option.or_none]
    exact (get?_addInstance r r.members _ key).trans hlayer
  | some p =>
    have h := get?_addInstance_addNew r r.members
      (mixins.foldl (fun acc m => addMixin acc m.1 m.2) (own r)).members
      (inheritMembers p.1 p.2.members) key
    rw [hlayer, get?_inheritMembers] at h
    exact h

theorem get?_assemble_statics (r : ClassRecord) (mixins : List (String × ClassRecord))
    (parent : Option (String × ClassRecord)) (key : String) :
    (assemble r mixins parent).statics.get? key = ((layer r mixins).statics key).or
      (parent.bind fun p => (p.2.statics.get? key).map (inheritMember p.1)) := by
  cases parent with
  | none =>
    rw [Option.bind_none, Option.or_none]
    exact get?_addInstance r r.statics r.statics key
  | some p =>
    have h := get?_addInstance_addNew r r.statics r.statics (inheritMembers p.1 p.2.statics) key
    rw [get?_inheritMembers] at h
    exact h

theorem get?_assemble_properties (r : ClassRecord) (mixins : List (String × ClassRecord))
    (parent : Option (String × ClassRecord)) (key : String) :
    (assemble r mixins parent).properties.get? key = ((layer r mixins).properties key).or
      (parent.bind fun p => (p.2.properties.get? key).map (inheritProperty p.1)) := by
  have hown := get?_properties_addMixins (own r) mixins key
  cases parent with
  | none =>
    rw [Option.bind_none, Option.or_none]
    exact hown
  | some p =>
    have h := get?_addNew (mixins.foldl (fun acc m => addMixin acc m.1 m.2) (own r)).properties
      (inheritProperties p.1 p.2.properties) key
    rw [hown, get?_inheritProperties] at h
    exact h

end View

namespace Namespace

def layer? (ns : Namespace) (name : String) : Option View.Layer :=
  (ns.record? name).map fun r => View.layer r (ns.mixinsOf r)

/-- The entries of a view are those of the layers along the walk from its class: every name that some
layer has, and under it the entry of the nearest such layer, as it is if that is the class itself,
else as inherited from the class that has it. -/
structure Merges {α : Type} (ns : Namespace) (name : String)
    (entry : View.Layer → String → Option α) (inherit : String → α → α) (found : Assoc α) :
    Prop where
  mem_keys_iff : ∀ key, key ∈ found.keys ↔ ∃ i c l, ns.ancestor? i name = some c ∧
    ns.layer? c = some l ∧ (entry l key).isSome = true
  get?_nearest : ∀ key i c l e, ns.ancestor? i name = some c → ns.layer? c = some l →
    entry l key = some e →
    (∀ j c' l', j < i → ns.ancestor? j name = some c' → ns.layer? c' = some l' →
      entry l' key = none) →
    found.get? key = some (if i = 0 then e else inherit c e)

theorem ne_empty_of_isClass {ns : Namespace} {name : String} (h : ns.isClass name = true) :
    name ≠ "" := by
  rintro rfl
  have hs : Text.segments? "" = none := by decide
  simp [isClass, record?_eq, hs] at h

theorem ancestor?_zero {ns : Namespace} {name : String} {r : ClassRecord}
    (hr : ns.record? name = some r) : ns.ancestor? 0 name = some name := by
  simp [ancestor?, isClass_of_record? hr]

theorem layer?_of_record? {ns : Namespace} {name : String} {r : ClassRecord}
    (hr : ns.record? name = some r) :
    ns.layer? name = some (View.layer r (ns.mixinsOf r)) := by simp [layer?, hr]

/-- What holds of one level of a view holds of all: an entry comes from the nearest layer. -/
theorem Built.merges {α : Type} {ns : Namespace} {entry : View.Layer → String → Option α}
    {inherit : String → α → α} {part : ClassRecord → Assoc α}
    (hlevel : ∀ r mixins parent key, (part (View.assemble r mixins parent)).get? key =
      (entry (View.layer r mixins) key).or
        (parent.bind fun p => ((part p.2).get? key).map (inherit p.1)))
    (habsorb : ∀ near far e, far ≠ "" → inherit near (inherit far e) = inherit far e)
    {name : String} {rest : List String} {v : ClassRecord} (h : ns.Built (name :: rest) v) :
    ns.Merges name entry inherit (part v) := by
  generalize hw : name :: rest = walk at h
  induction h generalizing name rest with
  | @last c r record next =>
    obtain ⟨rfl, rfl⟩ := List.cons.inj hw
    have hget : ∀ key, (part (View.assemble r (ns.mixinsOf r) none)).get? key =
        entry (View.layer r (ns.mixinsOf r)) key := by
      intro key
      rw [hlevel]
      simp
    have honly : ∀ i c, ns.ancestor? i name = some c → i = 0 ∧ c = name := by
      intro i c hc
      cases i with
      | zero => exact ⟨rfl, Option.some.inj (hc.symm.trans (ancestor?_zero record))⟩
      | succ i => simp [ancestor?, next] at hc
    refine ⟨?_, ?_⟩
    · intro key
      rw [Assoc.mem_keys_iff, hget]
      constructor
      · intro hs
        exact ⟨0, name, _, ancestor?_zero record, layer?_of_record? record, hs⟩
      · rintro ⟨i, c, l, hc, hl, hs⟩
        obtain ⟨rfl, rfl⟩ := honly i c hc
        obtain rfl := Option.some.inj (hl.symm.trans (layer?_of_record? record))
        exact hs
    · intro key i c l e hc hl he hfirst
      obtain ⟨rfl, rfl⟩ := honly i c hc
      obtain rfl := Option.some.inj (hl.symm.trans (layer?_of_record? record))
      rw [hget, he]
      rfl
  | @step c superClass more r view record next parent ih =>
    obtain ⟨rfl, rfl⟩ := List.cons.inj hw
    have hm := ih rfl
    have hget : ∀ key, (part (View.assemble r (ns.mixinsOf r) (some (superClass, view)))).get? key =
        (entry (View.layer r (ns.mixinsOf r)) key).or
          (((part view).get? key).map (inherit superClass)) := by
      intro key
      rw [hlevel]
      rfl
    have hsucc : ∀ i, ns.ancestor? (i + 1) name = ns.ancestor? i superClass := by
      intro i
      rw [ancestor?, next]
      rfl
    refine ⟨?_, ?_⟩
    · intro key
      have hparent := hm.mem_keys_iff key
      rw [Assoc.mem_keys_iff] at hparent ⊢
      rw [hget, Option.isSome_or, Bool.or_eq_true, Option.isSome_map, hparent]
      constructor
      · rintro (hs | ⟨i, c, l, hc, hl, hs⟩)
        · exact ⟨0, name, _, ancestor?_zero record, layer?_of_record? record, hs⟩
        · exact ⟨i + 1, c, l, (hsucc i).trans hc, hl, hs⟩
      · rintro ⟨i, c, l, hc, hl, hs⟩
        cases i with
        | zero =>
          obtain rfl := Option.some.inj (hc.symm.trans (ancestor?_zero record))
          obtain rfl := Option.some.inj (hl.symm.trans (layer?_of_record? record))
          exact Or.inl hs
        | succ i => exact Or.inr ⟨i, c, l, (hsucc i).symm.trans hc, hl, hs⟩
    · intro key i c l e hc hl he hfirst
      rw [hget]
      cases i with
      | zero =>
        obtain rfl := Option.some.inj (hc.symm.trans (ancestor?_zero record))
        obtain rfl := Option.some.inj (hl.symm.trans (layer?_of_record? record))
        rw [he]
        rfl
      | succ i =>
        have hown := hfirst 0 name _ (Nat.succ_pos i) (ancestor?_zero record)
          (layer?_of_record? record)
        have hnear := hm.get?_nearest key i c l e ((hsucc i).symm.trans hc) hl he
          fun j c' l' hj hc' => hfirst (j + 1) c' l' (Nat.succ_lt_succ hj) ((hsucc j).trans hc')
        rw [hown, hnear, Option.none_or, Option.map_some]
        by_cases hi : i = 0
        · subst hi
          have hcs : c = superClass := by
            obtain ⟨-, -, -, hclass⟩ := next?_eq_some next
            simpa [ancestor?, hclass, eq_comm] using (hsucc 0).symm.trans hc
          simp [hcs]
        · have hne : c ≠ "" := ne_empty_of_isClass (isClass_of_ancestor? hc)
          simp [hi, habsorb _ _ _ hne]

theorem Built.record? {ns : Namespace} {name : String} {rest : List String} {v : ClassRecord}
    (h : ns.Built (name :: rest) v) : ∃ r, ns.record? name = some r ∧
      v = { r with members := v.members, statics := v.statics, properties := v.properties } := by
  cases h with
  | last record next => exact ⟨_, record, rfl⟩
  | step record next parent => exact ⟨_, record, rfl⟩

end Namespace

namespace Database

/-- The view of a registered class whose walk along the superclasses repeats no class: members,
statics and properties are merged from the layers along the walk, and all else is as the class
declares it. -/
theorem view_ofHistory_merges (roots : List String) (calls : List Call) (name : String)
    (r : ClassRecord) (hr : (ofHistory roots calls).names.record? name = some r)
    (hwalk : ∀ i j c, (ofHistory roots calls).names.ancestor? i name = some c →
      (ofHistory roots calls).names.ancestor? j name = some c → i = j) :
    ∃ view, ((ofHistory roots calls).view name).1 = .ok (some view) ∧
      (ofHistory roots calls).names.Merges name View.Layer.members View.inheritMember
        view.members ∧
      (ofHistory roots calls).names.Merges name View.Layer.statics View.inheritMember
        view.statics ∧
      (ofHistory roots calls).names.Merges name View.Layer.properties View.inheritProperty
        view.properties ∧
      view = { r with members := view.members, statics := view.statics
                      properties := view.properties } := by
  have hsound := sound_ofHistory roots calls
  obtain ⟨n, hn⟩ := Namespace.exists_ancestor?_eq_none hwalk
  obtain ⟨rest, view, hb⟩ := Namespace.exists_built_of_ancestor?_eq_none hr hn
  have hmember : ∀ near far (m : Member), far ≠ "" →
      View.inheritMember near (View.inheritMember far m) = View.inheritMember far m := by
    intro near far m hf
    simp [View.inheritMember, View.origin_origin hf]
  have hproperty : ∀ near far (p : Property), far ≠ "" →
      View.inheritProperty near (View.inheritProperty far p) = View.inheritProperty far p := by
    intro near far p hf
    simp [View.inheritProperty, View.origin_origin hf]
  refine ⟨view, ?_, hb.merges View.get?_assemble_members hmember,
    hb.merges View.get?_assemble_statics hmember,
    hb.merges View.get?_assemble_properties hproperty, ?_⟩
  · obtain ⟨later, he, -⟩ := hsound.view_eq name
    rw [he, Namespace.view?, hb.view_eq]
    rfl
  · obtain ⟨r', hr', hv⟩ := hb.record?
    obtain rfl := Option.some.inj (hr.symm.trans hr')
    exact hv

def smallFamily : List Call :=
  [.ingest { ClassRecord.bare "app.Leaf" (some "app.Base") with
      mixins := ["app.Aid"], isSingleton := true },
    .view "app.Leaf",
    .ingest { ClassRecord.bare "app.Base" (some "Object") with
      properties := [("label", ⟨none, some "String", none, false, none, none, none⟩)] },
    .ingest { ClassRecord.bare "app.Aid" none with
      properties := [("size", ⟨none, none, none, false, none, none, none⟩)] }]

theorem view_smallFamily_merges :
    (∀ i j c, (ofHistory ["Object"] smallFamily).names.ancestor? i "app.Leaf" = some c →
      (ofHistory ["Object"] smallFamily).names.ancestor? j "app.Leaf" = some c → i = j) ∧
    ∃ view, ((ofHistory ["Object"] smallFamily).view "app.Leaf").1 = .ok (some view) ∧
      (ofHistory ["Object"] smallFamily).names.Merges "app.Leaf" View.Layer.members
        View.inheritMember view.members := by
  have hr : (ofHistory ["Object"] smallFamily).names.record? "app.Leaf" =
      some { ClassRecord.bare "app.Leaf" (some "app.Base") with
        mixins := ["app.Aid"], isSingleton := true } := by decide +kernel
  have hb : (ofHistory ["Object"] smallFamily).names.record? "app.Base" =
      some { ClassRecord.bare "app.Base" (some "Object") with
        properties := [("label", ⟨none, some "String", none, false, none, none, none⟩)] } := by
    decide +kernel
  have hwalk := (Namespace.Built.step hr (by decide +kernel)
    (.last hb (by decide +kernel))).ancestor?_injective
  obtain ⟨view, hv, hm, -⟩ := view_ofHistory_merges ["Object"] smallFamily "app.Leaf" _ hr hwalk
  exact ⟨hwalk, view, hv, hm⟩

end Database
end ScriptSense
