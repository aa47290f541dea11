import ScriptSense.Proofs.Analysis.Overrides
import ScriptSense.Proofs.Feature.Provenance
import ScriptSense.Proofs.Namespace.Layers

/-! Which member a name stands for when a class has it twice: as a member of its instances and as a
member of the class itself. The type of a member is told by the member of the class itself; a method
is followed, and a definition is found, from the member of the instances. Main statement: under every
name of a view both start from a member, and it is the same one if and only if the nearest layers that
have the name, on either side, do not give different members. -/
namespace ScriptSense

namespace ClassRecord

theorem member?_eq_or (r : ClassRecord) (name : String) :
    r.member? name = (r.statics.get? name).or (r.members.get? name) := by
  rw [member?]
  cases r.statics.get? name <;> rfl

/-- Which side goes first matters only under a name that has different members on the two sides. -/
theorem or_eq_member?_iff (r : ClassRecord) (name : String) :
    (r.members.get? name).or (r.statics.get? name) = r.member? name ↔
      ∀ m s, r.members.get? name = some m → r.statics.get? name = some s → m = s := by
  rw [member?_eq_or]
  cases r.members.get? name with
  | none => simp
  | some m => cases r.statics.get? name <;> simp

theorem exists_of_mem_keys {r : ClassRecord} {name : String}
    (h : name ∈ r.members.keys ∨ name ∈ r.statics.keys) :
    ∃ told started, r.member? name = some told ∧
      (r.members.get? name).or (r.statics.get? name) = some started := by
  rw [Assoc.mem_keys_iff, Assoc.mem_keys_iff] at h
  have htold : (r.member? name).isSome = true := by
    rw [member?_eq_or, Option.isSome_or, Bool.or_eq_true]
    exact h.symm
  have hstarted : ((r.members.get? name).or (r.statics.get? name)).isSome = true := by
    rw [Option.isSome_or, Bool.or_eq_true]
    exact h
  obtain ⟨told, htold⟩ := Option.isSome_iff_exists.mp htold
  obtain ⟨started, hstarted⟩ := Option.isSome_iff_exists.mp hstarted
  exact ⟨told, started, htold, hstarted⟩

end ClassRecord

namespace Namespace

variable {α : Type} {ns : Namespace} {name key : String}

/-- What a class sees under a name in the layers along its walk: the entry of the nearest layer that
has one, `i` steps away. -/
structure Sees (ns : Namespace) (name : String) (entry : View.Layer → String → Option α)
    (inherit : String → α → α) (key : String) (i : Nat) (seen : α) : Prop where
  nearest : ∃ c l e, ns.ancestor? i name = some c ∧ ns.layer? c = some l ∧ entry l key = some e ∧
    seen = if i = 0 then e else inherit c e
  first : ∀ j c l, j < i → ns.ancestor? j name = some c → ns.layer? c = some l → entry l key = none

theorem Merges.get?_eq_some_iff {entry : View.Layer → String → Option α}
    {inherit : String → α → α} {found : Assoc α} (h : ns.Merges name entry inherit found) (e : α) :
    found.get? key = some e ↔ ∃ i, ns.Sees name entry inherit key i e := by
  have hsees : ∀ i seen, ns.Sees name entry inherit key i seen → found.get? key = some seen := by
    rintro i seen ⟨⟨c, l, e, hc, hl, he, rfl⟩, hfirst⟩
    exact h.get?_nearest key i c l e hc hl he hfirst
  constructor
  · intro hget
    have hkey : key ∈ found.keys := by
      rw [Assoc.mem_keys_iff, hget]
      rfl
    have hex : ∃ i c l, ns.ancestor? i name = some c ∧ ns.layer? c = some l ∧
      (entry l key).isSome = true := (h.mem_keys_iff key).mp hkey
    classical
    obtain ⟨c, l, hc, hl, hs⟩ := Nat.find_spec hex
    obtain ⟨near, hnear⟩ := Option.isSome_iff_exists.mp hs
    have hsaw : ns.Sees name entry inherit key (Nat.find hex)
        (if Nat.find hex = 0 then near else inherit c near) := by
      refine ⟨⟨c, l, near, hc, hl, hnear, rfl⟩, ?_⟩
      intro j c' l' hj hc' hl'
      rw [← Option.not_isSome_iff_eq_none]
      exact fun hs' => Nat.find_min hex hj ⟨c', l', hc', hl', hs'⟩
    obtain rfl := Option.some.inj (hget.symm.trans (hsees _ _ hsaw))
    exact ⟨_, hsaw⟩
  · rintro ⟨i, hi⟩
    exact hsees i e hi

theorem inheritMember_inheritMember {near far : String} (h : far ≠ "") (m : Member) :
    View.inheritMember near (View.inheritMember far m) = View.inheritMember far m := by
  simp [View.inheritMember, View.origin_origin h]

theorem exists_built_of_view? {v : ClassRecord} (h : ns.view? name = some v) :
    ∃ rest, ns.Built (name :: rest) v := by
  have hv : ns.view name = .ok (some v) := by
    rw [view?] at h
    cases he : ns.view name with
    | error e => simp [he, Except.toOption] at h
    | ok found =>
      obtain rfl : found = some v := by simpa [he, Except.toOption] using h
      rfl
  rcases viewAfter_eq_ok (approach_nil ns name) (by simp) hv with ⟨hnone, -⟩ | ⟨w, rest, hw, hb⟩
  · cases hnone
  · obtain rfl := Option.some.inj hw
    exact ⟨rest, hb⟩

theorem get?_members_iff {v : ClassRecord} (h : ns.view? name = some v) (m : Member) :
    v.members.get? key = some m ↔
      ∃ i, ns.Sees name View.Layer.members View.inheritMember key i m := by
  obtain ⟨rest, hb⟩ := exists_built_of_view? h
  exact (hb.merges View.get?_assemble_members
    fun _ _ m hne => inheritMember_inheritMember hne m).get?_eq_some_iff m

theorem get?_statics_iff {v : ClassRecord} (h : ns.view? name = some v) (s : Member) :
    v.statics.get? key = some s ↔
      ∃ i, ns.Sees name View.Layer.statics View.inheritMember key i s := by
  obtain ⟨rest, hb⟩ := exists_built_of_view? h
  exact (hb.merges View.get?_assemble_statics
    fun _ _ m hne => inheritMember_inheritMember hne m).get?_eq_some_iff s

/-- Which side goes first matters only where the class sees different members on the two sides. -/
theorem or_eq_member?_iff {v : ClassRecord} (h : ns.view? name = some v) (key : String) :
    (v.members.get? key).or (v.statics.get? key) = v.member? key ↔
      ∀ i j m s, ns.Sees name View.Layer.members View.inheritMember key i m →
        ns.Sees name View.Layer.statics View.inheritMember key j s → m = s := by
  rw [v.or_eq_member?_iff]
  simp only [get?_members_iff h, get?_statics_iff h]
  constructor
  · intro hsame i j m s hm hs
    exact hsame m s ⟨i, hm⟩ ⟨j, hs⟩
  · rintro hsame m s ⟨i, hm⟩ ⟨j, hs⟩
    exact hsame i j m s hm hs

end Namespace

theorem Definition.ofMember?_of_location {view : ClassRecord} {className key : String} {m : Member}
    (h : (view.members.get? key).or (view.statics.get? key) = some m) {span : Span}
    (hm : m.location = some span) : Definition.ofMember? view className key =
      some ⟨Completion.firstName [m.mixin, m.inheritedFrom] className, span⟩ := by
  simp [Definition.ofMember?, h, hm]

theorem Definition.ofMember?_of_no_location {view : ClassRecord} {className key : String}
    {m : Member} (h : (view.members.get? key).or (view.statics.get? key) = some m)
    (hm : m.location = none) : Definition.ofMember? view className key =
      Definition.ofMember? { view with members := [], statics := [] } className key := by
  have hplace : ((view.members.get? key).or (view.statics.get? key)).bind
      (fun m => m.location.map (Prod.mk m)) = none := by simp [h, hm]
  simp only [Definition.ofMember?, hplace]
  rfl

namespace Scene

variable {scene : Scene}

/-- The cursor stands on a member of a class or of an object of that class. -/
def Selects (scene : Scene) (offset : Int) (className key : String) : Prop :=
  ∃ stop span text object optional owner,
    Definition.wordEnd scene.source offset = .ok stop ∧ Scan.at? scene.source stop = some span ∧
    scene.names.lookup (String.ofList (Scan.dropNew span.text)) = none ∧
    (scene.parser (String.ofList (Scan.dropNew span.text))).value =
      some (.member text object key optional) ∧
    (scene.resolveExpr offset object).value = some owner ∧ owner.className? = some className

theorem Selects.definition_eq {offset : Int} {className key : String}
    (h : scene.Selects offset className key) : ∃ answer, scene.definition offset = .ok answer ∧
      answer.value = (scene.names.view? className).bind fun view =>
        Definition.ofMember? view className key := by
  obtain ⟨stop, span, text, object, optional, owner, hstop, hspan, hlookup, hparse, howner,
    hclass⟩ := h
  refine ⟨scene.memberDefinition offset (Scan.dropNew span.text), ?_, ?_⟩
  · simp only [definition, hstop, bind, Except.bind, hspan, hlookup]
    rfl
  · simp [memberDefinition, hparse, howner, hclass, view]

theorem memberType_value {owner : Denotation} {className : String}
    (h : owner.className? = some className) (key : String) : (scene.memberType owner key).value =
      (scene.names.view? className).bind fun view =>
        (view.member? key).bind (documented? className key) := by
  simp [memberType, h, view]

end Scene

namespace Database

/-- What a name of a view stands for, after any history. The type of the member of an owner is told
by one member, and a method is followed, and a definition found, from another; both are there under
every name of the view. They are the same if and only if the members that the class sees under the
name on its two sides, in the nearest layers that have one, do not differ. -/
theorem named_alike_iff (roots : List String) (calls : List Call) (parser : Parser)
    (source : List Char) :
    let names := (ofHistory roots calls).names
    let scene : Scene := ⟨names, parser, source⟩
    ∀ className view key, names.view? className = some view →
      key ∈ view.members.keys ∨ key ∈ view.statics.keys →
      ∃ told started, view.member? key = some told ∧
        Override.start? names.view? className key = some started ∧
        (∀ owner : Denotation, owner.className? = some className →
          (scene.memberType owner key).value = Scene.documented? className key told) ∧
        (∃ later events, (ofHistory roots calls).method className key =
          (.ok (some (scene.overridden key Override.isDocumented started).value), later, events)) ∧
        (∀ offset, scene.Selects offset className key →
          ∃ answer, scene.definition offset = .ok answer ∧
            (∀ place, started.location = some place → answer.value =
              some ⟨Completion.firstName [started.mixin, started.inheritedFrom] className, place⟩) ∧
            (started.location = none → answer.value =
              Definition.ofMember? { view with members := [], statics := [] } className key)) ∧
        (started = told ↔ ∀ i j m s,
          names.Sees className View.Layer.members View.inheritMember key i m →
          names.Sees className View.Layer.statics View.inheritMember key j s → m = s) := by
  intro names scene className view key hview hkey
  have hsound := sound_ofHistory roots calls
  obtain ⟨told, started, htold, hstarted⟩ := ClassRecord.exists_of_mem_keys hkey
  have hstart : Override.start? names.view? className key = some started := by
    rw [Override.start?, hview, Option.bind_some, hstarted]
  refine ⟨told, started, htold, hstart, ?_, ?_, ?_, ?_⟩
  · intro owner howner
    rw [Scene.memberType_value howner, hview, Option.bind_some, htold, Option.bind_some]
  · obtain ⟨later, events, hmethod⟩ := hsound.method_eq_value parser source className key
    rw [Scene.method_value, hstart, Option.map_some] at hmethod
    exact ⟨later, events, hmethod⟩
  · intro offset hselects
    obtain ⟨answer, hanswer, hvalue⟩ := hselects.definition_eq
    rw [hview, Option.bind_some] at hvalue
    refine ⟨answer, hanswer, ?_, ?_⟩
    · intro place hplace
      rw [hvalue, Definition.ofMember?_of_location hstarted hplace]
    · intro hnone
      rw [hvalue, Definition.ofMember?_of_no_location hstarted hnone]
  · have hsame := Namespace.or_eq_member?_iff hview key
    rw [hstarted, htold, Option.some.injEq] at hsame
    exact hsame

/-! A singleton that has one method for its instances and another one of the same name for itself. -/

def methodAt (line : Int) : Member :=
  ⟨some .function, .anywhere, some ⟨⟨line, 4, 0⟩, ⟨line, 8, 4⟩⟩, none, none, none, none⟩

def twofold : ClassRecord :=
  { ClassRecord.bare "a.C" none with
    isSingleton := true, members := [("make", methodAt 3)], statics := [("make", methodAt 9)] }

def makeNamed : Parser :=
  let owner := .member "a.C" (.identifier "a") "C" false
  .known [("a.C.make", .member "a.C.make" owner "make" false)]

def naming (source : String) : Scene where
  names := (ofHistory ["Object"] [.ingest twofold]).names
  parser := makeNamed
  source := source.toList

/-- The accessor of the only instance is on both sides, and is the same. -/
theorem naming_getInstance_alike : ∃ view, (naming "").names.view? "a.C" = some view ∧
    "getInstance" ∈ view.members.keys ∧ ∃ m,
      view.member? "getInstance" = some m ∧
      Override.start? (naming "").names.view? "a.C" "getInstance" = some m ∧
      ∀ i j near near',
        (naming "").names.Sees "a.C" View.Layer.members View.inheritMember "getInstance" i near →
        (naming "").names.Sees "a.C" View.Layer.statics View.inheritMember "getInstance" j near' →
        near = near' := by
  have hshown : ((naming "").names.view? "a.C").map (fun v =>
      (decide ("getInstance" ∈ v.members.keys), v.member? "getInstance")) =
        some (true, some (View.instanceAccessor "a.C")) := by decide +kernel
  obtain ⟨view, hview, hfound⟩ := Option.map_eq_some_iff.mp hshown
  obtain ⟨hkey, hmember⟩ := Prod.mk.inj hfound
  have hkey : "getInstance" ∈ view.members.keys := of_decide_eq_true hkey
  have hstart : Override.start? (naming "").names.view? "a.C" "getInstance" =
      some (View.instanceAccessor "a.C") := by decide +kernel
  obtain ⟨told, started, htold, hstarted, -, -, -, hsame⟩ :=
    named_alike_iff ["Object"] [.ingest twofold] makeNamed [] "a.C" view "getInstance" hview
      (.inl hkey)
  obtain rfl := Option.some.inj (htold.symm.trans hmember)
  obtain rfl := Option.some.inj (hstarted.symm.trans hstart)
  exact ⟨view, hview, hkey, _, htold, hstarted, hsame.mp rfl⟩

/-- Under the name of the two methods, the type is told by the one of the class itself; the other one
is followed, and its place is the definition. -/
theorem naming_make_not_alike : ∃ view, (naming "a.C.make").names.view? "a.C" = some view ∧
    "make" ∈ view.members.keys ∧ view.member? "make" = some (methodAt 9) ∧
    Override.start? (naming "a.C.make").names.view? "a.C" "make" = some (methodAt 3) ∧
    methodAt 3 ≠ methodAt 9 ∧
    ∃ answer, (naming "a.C.make").definition 8 = .ok answer ∧
      answer.value = (methodAt 3).location.map (Definition.mk "a.C") := by
  have hshown : ((naming "a.C.make").names.view? "a.C").map (fun v =>
      (decide ("make" ∈ v.members.keys), v.member? "make")) =
        some (true, some (methodAt 9)) := by decide +kernel
  obtain ⟨view, hview, hfound⟩ := Option.map_eq_some_iff.mp hshown
  obtain ⟨hkey, hmember⟩ := Prod.mk.inj hfound
  have hanswer : ((naming "a.C.make").definition 8).toOption.map (·.value) =
      some ((methodAt 3).location.map (Definition.mk "a.C")) := by decide +kernel
  obtain ⟨answer, hdefinition, hvalue⟩ := Option.map_eq_some_iff.mp hanswer
  refine ⟨view, hview, of_decide_eq_true hkey, hmember, by decide +kernel, by decide +kernel,
    answer, ?_, hvalue⟩
  cases hd : (naming "a.C.make").definition 8 with
  | error e => simp [hd, Except.toOption] at hdefinition
  | ok found =>
    rw [hd] at hdefinition
    rw [Option.some.inj hdefinition]

end Database
end ScriptSense
