import ScriptSense.Feature.Definition
import ScriptSense.Proofs.Namespace.Layers
import ScriptSense.Proofs.Namespace.Walks

/-! Which class a definition is ascribed to. Everything in a merged view tells where it comes from:
what is inherited names the ancestor that has it, and what a mixin brings names the mixin. Only the
properties of mixins name nobody, so that they pass for properties of the class that lists the
mixin. Main statement: a definition is a place in the record of the class it names, or else the place
of a property that this class takes from a mixin. -/
namespace ScriptSense

namespace ClassRecord

/-- A record as it is declared: nothing in it is said to come from elsewhere. -/
structure Untagged (r : ClassRecord) : Prop where
  members : ∀ e ∈ r.members, e.2.inheritedFrom = none ∧ e.2.mixin = none
  statics : ∀ e ∈ r.statics, e.2.inheritedFrom = none ∧ e.2.mixin = none
  properties : ∀ e ∈ r.properties, e.2.inheritedFrom = none

/-- A record gives a place: of its class, or of something that the class declares. -/
inductive Gives (r : ClassRecord) (place : Span) : Prop
  | itself (h : r.location = some place)
  | member {e : String × Member} (he : e ∈ r.members) (h : e.2.location = some place)
  | static {e : String × Member} (he : e ∈ r.statics) (h : e.2.location = some place)
  | property {e : String × Property} (he : e ∈ r.properties) (h : e.2.location = some place)

end ClassRecord

namespace Completion

@[simp] theorem firstName_nil (otherwise : String) : firstName [] otherwise = otherwise := rfl

@[simp] theorem firstName_none (names : List (Option String)) (otherwise : String) :
    firstName (none :: names) otherwise = firstName names otherwise := rfl

theorem firstName_some {name : String} (h : name ≠ "") (names : List (Option String))
    (otherwise : String) : firstName (some name :: names) otherwise = name := by
  simp [firstName, h]

@[simp] theorem firstName_empty (names : List (Option String)) (otherwise : String) :
    firstName (some "" :: names) otherwise = firstName names otherwise := by
  simp [firstName]

theorem firstName_origin {superClass : String} (h : superClass ≠ "") (known : Option String)
    (name : String) : firstName [View.origin known superClass] name =
      firstName [known] superClass := by
  cases known with
  | none => simp [View.origin, firstName_some h]
  | some other =>
    by_cases ho : other = ""
    · simp [View.origin, ho, firstName_some h]
    · simp [View.origin, ho, firstName_some ho]

theorem firstName_cons (tag : Option String) (names : List (Option String)) (otherwise : String) :
    firstName (tag :: names) otherwise = firstName [tag] (firstName names otherwise) := by
  cases tag with
  | none => simp
  | some name =>
    by_cases hn : name = ""
    · simp [hn]
    · simp [firstName_some hn]

end Completion

open Completion (firstName)

namespace View

theorem location_of_mem_allAccessors {properties : Assoc Property} {key : String} {m : Member}
    (h : (key, m) ∈ allAccessors properties) :
    m.inheritedFrom = none ∧ m.mixin = none ∧ ∃ e ∈ properties, e.2.location = m.location := by
  obtain ⟨e, he, hm⟩ := List.mem_flatMap.mp h
  simp only [accessors, List.mem_cons, Prod.mk.injEq, List.not_mem_nil, or_false] at hm
  rcases hm with ⟨-, rfl⟩ | ⟨-, rfl⟩ | ⟨-, rfl⟩ <;> exact ⟨rfl, rfl, e, he, rfl⟩

/-- What a mixin brings names the mixin, and has its place in the record of the mixin. -/
theorem mixin_of_mem_mixinMembers {taken : String → Bool} {mixins : List (String × ClassRecord)}
    {key : String} {m : Member} (h : (key, m) ∈ mixinMembers taken mixins) :
    ∃ name mixin, (name, mixin) ∈ mixins ∧ m.mixin = some name ∧
      ∀ place, m.location = some place → mixin.Gives place := by
  induction mixins generalizing taken with
  | nil => cases h
  | cons entry rest ih =>
    obtain ⟨name, mixin⟩ := entry
    rcases List.mem_append.mp h with h | h
    · obtain ⟨e, he, hm⟩ := List.mem_map.mp h
      obtain ⟨-, rfl⟩ := Prod.mk.inj hm
      refine ⟨name, mixin, by simp, rfl, ?_⟩
      intro place hplace
      rcases List.mem_append.mp he with he | he
      · exact .member he hplace
      · obtain ⟨-, -, p, hp, hlocation⟩ := location_of_mem_allAccessors he
        exact .property (List.mem_filter.mp hp).1 (hlocation.trans hplace)
    · obtain ⟨other, r, hin, hrest⟩ := ih h
      exact ⟨other, r, List.mem_cons_of_mem _ hin, hrest⟩

end View

namespace Namespace

/-- All records are as they were declared. -/
def Untagged (ns : Namespace) : Prop := ∀ name r, ns.record? name = some r → r.Untagged

/-- The record of a registered class gives a place. -/
def Declares (ns : Namespace) (name : String) (place : Span) : Prop :=
  ∃ r, ns.record? name = some r ∧ r.Gives place

/-- A registered class does not declare a property itself, and the first of its registered mixins that
does gives a place for it. -/
def Borrows (ns : Namespace) (name key : String) (place : Span) : Prop :=
  ∃ r p, ns.record? name = some r ∧ r.properties.get? key = none ∧
    (ns.mixinsOf r).findSome? (fun mixin => mixin.2.properties.get? key) = some p ∧
    p.location = some place

/-- A member that the view of a class shows is ascribed to a class whose record gives its place. -/
def AscribesMember (ns : Namespace) (name : String) (m : Member) : Prop :=
  ∀ place, m.location = some place →
    ns.Declares (firstName [m.mixin, m.inheritedFrom] name) place

/-- A property that the view of a class shows is ascribed to a class whose record gives its place, or
to one that borrows it. -/
def AscribesProperty (ns : Namespace) (name : String) (p : Property) : Prop :=
  ∀ place, p.location = some place → ns.Declares (firstName [p.inheritedFrom] name) place ∨
    ∃ key, ns.Borrows (firstName [p.inheritedFrom] name) key place

theorem mem_mixinsOf {ns : Namespace} {r m : ClassRecord} {mixin : String} :
    (mixin, m) ∈ ns.mixinsOf r ↔ mixin ∈ r.mixins ∧ ns.record? mixin = some m := by
  simp only [mixinsOf, List.mem_filterMap, Option.map_eq_some_iff, Prod.mk.injEq]
  constructor
  · rintro ⟨name, hm, m', hr, rfl, rfl⟩
    exact ⟨hm, hr⟩
  · rintro ⟨hm, hr⟩
    exact ⟨mixin, hm, m, hr, rfl, rfl⟩

/-- What holds of the entries of every layer, and of an entry for the subclasses that inherit it,
holds of all entries of a view. -/
theorem Viewed.forall_entries {α : Type} {ns : Namespace} {entry : View.Layer → String → Option α}
    {inherit : String → α → α} {part : ClassRecord → Assoc α}
    (hlevel : ∀ r mixins parent key, (part (View.assemble r mixins parent)).get? key =
      (entry (View.layer r mixins) key).or
        (parent.bind fun p => ((part p.2).get? key).map (inherit p.1)))
    {good : String → α → Prop}
    (hlayer : ∀ name r key e, ns.record? name = some r →
      entry (View.layer r (ns.mixinsOf r)) key = some e → good name e)
    (hinherit : ∀ name superClass e, superClass ≠ "" → good superClass e →
      good name (inherit superClass e))
    {chain : List String} {name : String} {v : ClassRecord}
    (h : ns.Viewed chain name (.ok (some v))) {key : String} {e : α}
    (he : (part v).get? key = some e) : good name e := by
  generalize hv : Except.ok (some v) = found at h
  induction h generalizing v e with
  | cyclic _ => cases hv
  | unregistered _ _ => cases hv
  | broken _ _ _ _ => cases hv
  | topmost _ hr _ =>
    obtain rfl := Option.some.inj (Except.ok.inj hv)
    rw [hlevel, Option.bind_none, Option.or_none] at he
    exact hlayer _ _ key e hr he
  | @derived chain name superClass r parent _ hr hs _ ih =>
    obtain rfl := Option.some.inj (Except.ok.inj hv)
    have hne : superClass ≠ "" := by
      have := (Option.filter_eq_some_iff.mp hs).2
      simp_all
    rw [hlevel, Option.or_eq_some_iff] at he
    rcases he with he | ⟨-, he⟩
    · exact hlayer _ _ key e hr he
    · -- the entry is inherited, and what is known of it in the superclass carries over
      cases parent with
      | none => simp at he
      | some view =>
        obtain ⟨above, habove, rfl⟩ := Option.map_eq_some_iff.mp he
        exact hinherit name superClass above hne (ih habove rfl)

variable {ns : Namespace} {name key : String} {r : ClassRecord}

theorem Untagged.layer_members (untagged : ns.Untagged) (hr : ns.record? name = some r)
    {m : Member} (hm : (View.layer r (ns.mixinsOf r)).members key = some m) :
    ns.AscribesMember name m := by
  intro place hp
  simp only [View.layer, View.withInstance] at hm
  split at hm
  · obtain rfl := Option.some.inj hm
    cases hp
  · rcases List.mem_append.mp (Assoc.mem_of_get? hm) with hm | hm
    · rcases List.mem_append.mp hm with hm | hm
      · obtain ⟨hinherited, hmixin⟩ := (untagged name r hr).members _ hm
        rw [hinherited, hmixin]
        exact ⟨r, hr, .member hm hp⟩
      · obtain ⟨hinherited, hmixin, e, he, hlocation⟩ := View.location_of_mem_allAccessors hm
        rw [hinherited, hmixin]
        exact ⟨r, hr, .property he (hlocation.trans hp)⟩
    · obtain ⟨mixin, record, hin, htag, hgives⟩ := View.mixin_of_mem_mixinMembers hm
      obtain ⟨-, hmixin⟩ := mem_mixinsOf.mp hin
      have hne : mixin ≠ "" := ne_empty_of_isClass (isClass_of_record? hmixin)
      rw [htag, Completion.firstName_some hne]
      exact ⟨record, hmixin, hgives place hp⟩

theorem Untagged.layer_statics (untagged : ns.Untagged) (hr : ns.record? name = some r)
    {m : Member} (hm : (View.layer r (ns.mixinsOf r)).statics key = some m) :
    ns.AscribesMember name m := by
  intro place hp
  simp only [View.layer, View.withInstance] at hm
  split at hm
  · obtain rfl := Option.some.inj hm
    cases hp
  · have hm := Assoc.mem_of_get? hm
    obtain ⟨hinherited, hmixin⟩ := (untagged name r hr).statics _ hm
    rw [hinherited, hmixin]
    exact ⟨r, hr, .static hm hp⟩

theorem Untagged.inheritedFrom_of_mixin (untagged : ns.Untagged) {p : Property}
    (h : (ns.mixinsOf r).findSome? (fun mixin => mixin.2.properties.get? key) = some p) :
    p.inheritedFrom = none := by
  obtain ⟨⟨mixin, m⟩, hin, hget⟩ := List.exists_of_findSome?_eq_some h
  obtain ⟨-, hmixin⟩ := mem_mixinsOf.mp hin
  exact (untagged mixin m hmixin).properties _ (Assoc.mem_of_get? hget)

theorem Untagged.layer_properties (untagged : ns.Untagged) (hr : ns.record? name = some r)
    {p : Property} (hp : (View.layer r (ns.mixinsOf r)).properties key = some p) :
    ns.AscribesProperty name p := by
  intro place hl
  rcases Option.or_eq_some_iff.mp hp with hown | ⟨hfree, hlent⟩
  · have hm := Assoc.mem_of_get? hown
    rw [(untagged name r hr).properties _ hm]
    exact Or.inl ⟨r, hr, .property hm hl⟩
  · rw [untagged.inheritedFrom_of_mixin hlent]
    exact Or.inr ⟨key, r, p, hr, hfree, hlent, hl⟩

theorem AscribesMember.inherit {superClass : String} {m : Member} (hne : superClass ≠ "")
    (h : ns.AscribesMember superClass m) (name : String) :
    ns.AscribesMember name (View.inheritMember superClass m) := by
  intro place hp
  rw [Completion.firstName_cons, View.inheritMember, Completion.firstName_origin hne,
    ← Completion.firstName_cons]
  exact h place hp

theorem AscribesProperty.inherit {superClass : String} {p : Property} (hne : superClass ≠ "")
    (h : ns.AscribesProperty superClass p) (name : String) :
    ns.AscribesProperty name (View.inheritProperty superClass p) := by
  intro place hp
  rw [View.inheritProperty, Completion.firstName_origin hne]
  exact h place hp

theorem viewed_of_view? {v : ClassRecord} (h : ns.view? name = some v) :
    ns.Viewed [] name (.ok (some v)) := by
  have hviewed := ns.viewed_view name
  rw [view?] at h
  cases hv : ns.view name with
  | error e => simp [hv, Except.toOption] at h
  | ok found =>
    obtain rfl : found = some v := by simpa [hv, Except.toOption] using h
    exact hv ▸ hviewed

variable {v : ClassRecord}

theorem Untagged.view_members (untagged : ns.Untagged) (hv : ns.view? name = some v) {m : Member}
    (hm : v.members.get? key = some m) : ns.AscribesMember name m :=
  (viewed_of_view? hv).forall_entries View.get?_assemble_members
    (fun _ _ _ _ hr => untagged.layer_members hr)
    (fun name _ _ hne h => AscribesMember.inherit hne h name) hm

theorem Untagged.view_statics (untagged : ns.Untagged) (hv : ns.view? name = some v) {m : Member}
    (hm : v.statics.get? key = some m) : ns.AscribesMember name m :=
  (viewed_of_view? hv).forall_entries View.get?_assemble_statics
    (fun _ _ _ _ hr => untagged.layer_statics hr)
    (fun name _ _ hne h => AscribesMember.inherit hne h name) hm

theorem Untagged.view_properties (untagged : ns.Untagged) (hv : ns.view? name = some v)
    {p : Property} (hp : v.properties.get? key = some p) : ns.AscribesProperty name p :=
  (viewed_of_view? hv).forall_entries View.get?_assemble_properties
    (fun _ _ _ _ hr => untagged.layer_properties hr)
    (fun name _ _ hne h => AscribesProperty.inherit hne h name) hp

theorem Viewed.exists_assemble {chain : List String} (h : ns.Viewed chain name (.ok (some v))) :
    ∃ r parent, ns.record? name = some r ∧ v = View.assemble r (ns.mixinsOf r) parent := by
  cases h with
  | topmost _ hr _ => exact ⟨_, _, hr, rfl⟩
  | derived _ hr _ _ => exact ⟨_, _, hr, rfl⟩

theorem record?_of_lookup (h : ns.lookup name = some (.klass r)) : ns.record? name = some r := by
  obtain ⟨t, ht, hentry⟩ := Option.map_eq_some_iff.mp h
  rw [record?, ht, Option.bind_some]
  split at hentry
  · rename_i r' hr'
    obtain rfl : r' = r := by simpa using hentry
    exact hr'
  · cases hentry

end Namespace

/-- What a view says about the place of a member is ascribed rightly, properties of mixins apart. -/
theorem Definition.ascribed_of_ofMember? {ns : Namespace} (untagged : ns.Untagged)
    {view : ClassRecord} {className name : String} (hv : ns.view? className = some view)
    {d : Definition} (h : Definition.ofMember? view className name = some d) :
    ns.Declares d.className d.span ∨ ∃ key, ns.Borrows d.className key d.span := by
  simp only [Definition.ofMember?] at h
  split at h
  · rename_i m span hfound
    obtain rfl := Option.some.inj h
    obtain ⟨found, hmember, hspan⟩ := Option.bind_eq_some_iff.mp hfound
    obtain ⟨place, hplace, hpair⟩ := Option.map_eq_some_iff.mp hspan
    obtain ⟨rfl, rfl⟩ := Prod.mk.inj hpair
    have hascribes : ns.AscribesMember className found := by
      rcases Option.or_eq_some_iff.mp hmember with hm | ⟨-, hm⟩
      · exact untagged.view_members hv hm
      · exact untagged.view_statics hv hm
    exact Or.inl (hascribes place hplace)
  · obtain ⟨p, hp, hspan⟩ := Option.bind_eq_some_iff.mp h
    obtain ⟨place, hplace, rfl⟩ := Option.map_eq_some_iff.mp hspan
    exact untagged.view_properties hv hp place hplace

/-- A borrowed property that no member hides is ascribed to the class that borrows it. -/
theorem Definition.ofMember?_borrowed {ns : Namespace} (untagged : ns.Untagged)
    {view : ClassRecord} {className key : String} (hv : ns.view? className = some view)
    {place : Span} (hb : ns.Borrows className key place)
    (hm : ((view.members.get? key).or (view.statics.get? key)).bind (·.location) = none)
    (ha : Text.propertyOfAccessor? key.toList = none) :
    Definition.ofMember? view className key = some ⟨className, place⟩ := by
  obtain ⟨r, p, hr, hfree, hlent, hplace⟩ := hb
  obtain ⟨r', parent, hr', rfl⟩ := (Namespace.viewed_of_view? hv).exists_assemble
  obtain rfl := Option.some.inj (hr.symm.trans hr')
  have hproperty : (View.assemble r (ns.mixinsOf r) parent).properties.get? key = some p := by
    have hlayer : (View.layer r (ns.mixinsOf r)).properties key = some p := by
      simp only [View.layer, hfree, hlent, Option.none_or]
    rw [View.get?_assemble_properties, hlayer, Option.some_or]
  have hmember : (((View.assemble r (ns.mixinsOf r) parent).members.get? key).or
      ((View.assemble r (ns.mixinsOf r) parent).statics.get? key)).bind
        (fun m => m.location.map (Prod.mk m)) = none := by
    rw [Option.bind_eq_none_iff] at hm ⊢
    intro m hfound
    rw [hm m hfound, Option.map_none]
  simp [Definition.ofMember?, hmember, ha, hproperty, hplace, untagged.inheritedFrom_of_mixin hlent]

namespace Scene

theorem ascribed_of_memberDefinition {scene : Scene} (untagged : scene.names.Untagged)
    {offset : Int} {text : List Char} {d : Definition}
    (h : (scene.memberDefinition offset text).value = some d) :
    scene.names.Declares d.className d.span ∨
      ∃ key, scene.names.Borrows d.className key d.span := by
  simp only [memberDefinition, Traced.bind_value] at h
  split at h
  · simp only [Traced.bind_value] at h
    split at h
    · cases h
    · obtain ⟨view, hview, hd⟩ := Option.bind_eq_some_iff.mp h
      exact Definition.ascribed_of_ofMember? untagged hview hd
  · cases h

/-- At every place from the beginning of the source on there is an answer: nothing, the place of the
class that is named there, or the definition of a member. -/
theorem definition_cases (scene : Scene) {offset : Int} (ho : 0 ≤ offset) :
    ∃ answer, scene.definition offset = .ok answer ∧
      (answer.value = none ∨
        (∃ name r, scene.names.lookup name = some (.klass r) ∧
          answer.value = r.location.map (Definition.mk name)) ∨
        ∃ text, answer = scene.memberDefinition offset text) := by
  have hstop : ∃ stop, Definition.wordEnd scene.source offset = .ok stop := by
    rw [Definition.wordEnd, Definition.ahead, if_pos ho]
    exact ⟨_, rfl⟩
  obtain ⟨stop, hstop⟩ := hstop
  simp only [definition, hstop, bind, Except.bind]
  cases Scan.at? scene.source stop with
  | none => exact ⟨_, rfl, Or.inl rfl⟩
  | some span =>
    dsimp only
    cases hlookup : scene.names.lookup (String.ofList (Scan.dropNew span.text)) with
    | none => exact ⟨_, rfl, Or.inr (Or.inr ⟨_, rfl⟩)⟩
    | some entry =>
      cases entry with
      | package children => exact ⟨_, rfl, Or.inl rfl⟩
      | klass r => exact ⟨_, rfl, Or.inr (Or.inl ⟨_, r, hlookup, rfl⟩)⟩

/-- At every place there is an answer, and a definition that is found is ascribed to a registered
class whose own record gives its place, or else to a registered class that has the property at that
place from one of its mixins. The latter happens to every such property that no member hides. -/
theorem definition_declared_or_borrowed (scene : Scene) (untagged : scene.names.Untagged) :
    (∀ offset : Int, 0 ≤ offset → ∃ answer, scene.definition offset = .ok answer ∧
      ∀ d, answer.value = some d → scene.names.Declares d.className d.span ∨
        ∃ key, scene.names.Borrows d.className key d.span) ∧
    ∀ className view key place, scene.names.view? className = some view →
      scene.names.Borrows className key place →
      ((view.members.get? key).or (view.statics.get? key)).bind (·.location) = none →
      Text.propertyOfAccessor? key.toList = none →
      Definition.ofMember? view className key = some ⟨className, place⟩ := by
  refine ⟨?_, fun _ _ _ _ hv hb hm ha => Definition.ofMember?_borrowed untagged hv hb hm ha⟩
  intro offset ho
  obtain ⟨answer, hanswer, hcases⟩ := scene.definition_cases ho
  refine ⟨answer, hanswer, ?_⟩
  intro d hd
  rcases hcases with hnone | ⟨name, r, hlookup, hvalue⟩ | ⟨text, rfl⟩
  · rw [hnone] at hd
    cases hd
  · rw [hvalue] at hd
    obtain ⟨place, hplace, rfl⟩ := Option.map_eq_some_iff.mp hd
    exact Or.inl ⟨r, Namespace.record?_of_lookup hlookup, .itself hplace⟩
  · exact ascribed_of_memberDefinition untagged hd

/-! A class with a mixin that has a property. -/

def lentPlace : Span := ⟨⟨3, 4, 50⟩, ⟨3, 9, 55⟩⟩

def lent : Property := ⟨none, none, none, false, some lentPlace, none, none⟩

def lender : ClassRecord := { ClassRecord.bare "a.M" none with properties := [("label", lent)] }

def borrower : ClassRecord := { ClassRecord.bare "a.C" none with mixins := ["a.M"] }

def lending : Scene where
  names := (Database.ofHistory ["Object"] [.ingest lender, .ingest borrower]).names
  parser :=
    let owner := .member "a.C" (.identifier "a") "C" false
    .known [("a.C.label", .member "a.C.label" owner "label" false)]
  source := "a.C.label".toList

theorem lending_record? (name : String) : lending.names.record? name =
    if name = "a.C" then some borrower else if name = "a.M" then some lender else none := by
  have hlender : "" ∉ Text.segments lender.name := by decide +kernel
  have hborrower : "" ∉ Text.segments borrower.name := by decide +kernel
  refine (Database.tracks_ofHistory _ _ |>.record? name).trans ?_
  simp only [Registry.ofHistory, Registry.afterAll, List.foldl_cons, List.foldl_nil, Registry.after,
    if_neg hlender, if_neg hborrower]
  change (((∅ : Registry).insert "a.M" lender).insert "a.C" borrower).lookup name = _
  by_cases hc : name = "a.C"
  · rw [if_pos hc, hc]
    exact Finmap.lookup_insert _
  · rw [if_neg hc, Finmap.lookup_insert_of_ne _ hc]
    by_cases hm : name = "a.M"
    · rw [if_pos hm, hm]
      exact Finmap.lookup_insert _
    · rw [if_neg hm, Finmap.lookup_insert_of_ne _ hm, Finmap.lookup_empty]

theorem lending_untagged : lending.names.Untagged := by
  intro name r hr
  rw [lending_record?] at hr
  split at hr
  · obtain rfl := Option.some.inj hr
    exact ⟨by simp [borrower, ClassRecord.bare], by simp [borrower, ClassRecord.bare],
      by simp [borrower, ClassRecord.bare]⟩
  · split at hr
    · obtain rfl := Option.some.inj hr
      exact ⟨by simp [lender, ClassRecord.bare], by simp [lender, ClassRecord.bare],
        by simp [lender, lent]⟩
    · cases hr

theorem lending_borrows : lending.names.Borrows "a.C" "label" lentPlace := by
  refine ⟨borrower, lent, by rw [lending_record?, if_pos rfl], rfl, ?_, rfl⟩
  have hmixins : lending.names.mixinsOf borrower = [("a.M", lender)] := by decide +kernel
  rw [hmixins]
  rfl

theorem definition_lending_declared_or_borrowed : lending.names.Untagged ∧
    (∃ answer, lending.definition 9 = .ok answer ∧
      ∀ d, answer.value = some d → lending.names.Declares d.className d.span ∨
        ∃ key, lending.names.Borrows d.className key d.span) ∧
    lending.names.Borrows "a.C" "label" lentPlace ∧
    ∃ view, lending.names.view? "a.C" = some view ∧
      Definition.ofMember? view "a.C" "label" = some ⟨"a.C", lentPlace⟩ := by
  obtain ⟨hdefinition, hborrowed⟩ := definition_declared_or_borrowed lending lending_untagged
  have hshown : (lending.names.view? "a.C").map (fun view =>
      ((view.members.get? "label").or (view.statics.get? "label")).bind (·.location)) =
        some none := by decide +kernel
  obtain ⟨view, hview, hfree⟩ := Option.map_eq_some_iff.mp hshown
  exact ⟨lending_untagged, hdefinition 9 (by decide), lending_borrows, view, hview,
    hborrowed "a.C" view "label" lentPlace hview lending_borrows hfree (by decide +kernel)⟩

/-- The property of the mixin is ascribed to the class, which gives no place at all. -/
theorem definition_lending_not_declared : lending.names.Untagged ∧
    ∃ answer, lending.definition 9 = .ok answer ∧ answer.value = some ⟨"a.C", lentPlace⟩ ∧
      ¬ lending.names.Declares "a.C" lentPlace := by
  refine ⟨lending_untagged, ?_⟩
  have hanswer : (lending.definition 9).toOption.map (·.value) = some (some ⟨"a.C", lentPlace⟩) := by
    decide +kernel
  cases hd : lending.definition 9 with
  | error e => simp [hd, Except.toOption] at hanswer
  | ok answer =>
    refine ⟨answer, rfl, by simpa [hd, Except.toOption] using hanswer, ?_⟩
    rintro ⟨r, hr, hgives⟩
    rw [lending_record?, if_pos rfl] at hr
    obtain rfl := Option.some.inj hr
    rcases hgives with h | ⟨he, -⟩ | ⟨he, -⟩ | ⟨he, -⟩
    · cases h
    · cases he
    · cases he
    · cases he

end Scene
end ScriptSense
