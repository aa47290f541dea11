import ScriptSense.Proofs.Analysis.Nesting
import ScriptSense.Proofs.Namespace.Cache

/-! Methods and the methods they override. From a method a walk leads to the method that it
overrides, from there to the next one, and so on. Links may lead nowhere, or back to a class where
the walk has been, and then the walk has no end. Following a method stops where it comes to a class
again. Main statement: that happens after no more steps than there are classes, and nothing is
missed by it, since from there on the walk repeats what has been seen. -/
namespace ScriptSense

namespace Traced

variable {α β : Type}

@[simp] theorem pure_steps (a : α) : (pure a : Traced α).steps = [] := rfl

@[simp] theorem bind_steps (a : Traced α) (f : α → Traced β) :
    (a >>= f).steps = a.steps ++ (f a.value).steps := rfl

end Traced

namespace Override

section Walk

variable (view : String → Option ClassRecord) (name : String)

/-- The method that a method overrides: the one of the same name in the view of the class that it
refers to. -/
def overridden? (m : Member) : Option Member :=
  m.overriddenFrom.bind fun ancestor => (view ancestor).bind (·.member? name)

/-- The method that the walk from a method comes to after some steps. -/
def nth? : Nat → Member → Option Member
  | 0, m => some m
  | i + 1, m => (overridden? view name m).bind (nth? i)

/-- A method that may be found from `start`: it stands on the walk, and if some method of the walk is
good, it is the first that is. -/
structure Finds (good : Member → Prop) (start found : Member) : Prop where
  onWalk : ∃ i, nth? view name i start = some found
  first : ∀ i m, nth? view name i start = some m → good m →
    (∀ j m', j < i → nth? view name j start = some m' → ¬ good m') → found = m

end Walk

variable {view : String → Option ClassRecord} {name : String} {enough : Member → Bool}

@[simp] theorem nth?_zero (m : Member) : nth? view name 0 m = some m := rfl

theorem nth?_succ {m overridden : Member} (h : overridden? view name m = some overridden)
    (i : Nat) : nth? view name (i + 1) m = nth? view name i overridden := by
  rw [nth?, h, Option.bind_some]

theorem nth?_add {m m' : Member} {i : Nat} (h : nth? view name i m = some m') (j : Nat) :
    nth? view name (i + j) m = nth? view name j m' := by
  induction i generalizing m with
  | zero => rw [Nat.zero_add, Option.some.inj h]
  | succ i ih =>
    obtain ⟨overridden, ho, hi⟩ := Option.bind_eq_some_iff.mp h
    rw [Nat.add_right_comm, nth?_succ ho]
    exact ih hi

theorem eq_of_nth?_of_last {m m' : Member} (h : overridden? view name m = none) {i : Nat}
    (hi : nth? view name i m = some m') : m' = m := by
  cases i with
  | zero => exact (Option.some.inj hi).symm
  | succ i => simp [nth?, h] at hi

theorem finds_self {good : Member → Prop} {m : Member}
    (h : ∀ i m', nth? view name i m = some m' → ¬ good m') : Finds view name good m m where
  onWalk := ⟨0, rfl⟩
  first i m' hi hgood _ := absurd hgood (h i m' hi)

/-- The classes that were visited lead to the method one stands at, past methods that were not
enough. -/
def Passed (view : String → Option ClassRecord) (name : String) (enough : Member → Bool)
    (visited : List String) (m : Member) : Prop :=
  ∀ c ∈ visited, ∃ start i, (view c).bind (·.member? name) = some start ∧
    nth? view name i start = some m ∧
    ∀ j m', j < i → nth? view name j start = some m' → enough m' = false

theorem Passed.next {visited : List String} {m overridden : Member} {ancestor : String}
    (h : Passed view name enough visited m) (hm : enough m = false)
    (ho : m.overriddenFrom = some ancestor)
    (hv : (view ancestor).bind (·.member? name) = some overridden) :
    Passed view name enough (ancestor :: visited) overridden := by
  have hstep : overridden? view name m = some overridden := by
    rw [overridden?, ho]
    exact hv
  intro c hc
  rcases List.mem_cons.mp hc with rfl | hc
  · exact ⟨overridden, 0, hv, rfl, fun j m' hj => absurd hj (Nat.not_lt_zero j)⟩
  · obtain ⟨start, i, hstart, hi, hbefore⟩ := h c hc
    refine ⟨start, i + 1, hstart, ?_, ?_⟩
    · rw [nth?_add hi 1, nth?_succ hstep, nth?_zero]
    · intro j m' hj hm'
      by_cases he : j = i
      · subst he
        obtain rfl := Option.some.inj (hi.symm.trans hm')
        exact hm
      · exact hbefore j m' (by omega) hm'

/-- A walk that comes to a visited class again goes round among methods that were not enough. -/
theorem Passed.not_enough {visited : List String} {m : Member} {ancestor : String}
    (h : Passed view name enough visited m) (hm : enough m = false)
    (ho : m.overriddenFrom = some ancestor) (hv : ancestor ∈ visited) (n : Nat) (m' : Member)
    (hn : nth? view name n m = some m') : enough m' = false := by
  obtain ⟨start, i, hstart, hi, hbefore⟩ := h ancestor hv
  have hstep : overridden? view name m = some start := by
    rw [overridden?, ho]
    exact hstart
  induction n using Nat.strongRecOn with
  | _ n ih =>
    cases n with
    | zero =>
      obtain rfl := Option.some.inj hn
      exact hm
    | succ n =>
      rw [nth?_succ hstep] at hn
      by_cases hlt : n < i
      · exact hbefore n m' hlt hn
      · -- one turn is over, and the rest of the walk is shorter
        obtain ⟨k, rfl⟩ := Nat.exists_eq_add_of_le (Nat.le_of_not_lt hlt)
        rw [nth?_add hi k] at hn
        exact ih k (by omega) hn

theorem Leads.finds {visited : List String} {m last : Member}
    (h : Leads view name enough visited m last) (hp : Passed view name enough visited m) :
    Finds view name (enough · = true) m last := by
  induction h with
  | @enough visited m h =>
    refine ⟨⟨0, rfl⟩, ?_⟩
    intro i m' hi hgood hbefore
    cases i with
    | zero => exact Option.some.inj hi
    | succ i => exact absurd h (hbefore 0 m (Nat.succ_pos i) rfl)
  | @first visited m h ho =>
    refine finds_self ?_
    intro i m' hi
    rw [eq_of_nth?_of_last (by rw [overridden?, ho, Option.bind_none]) hi, h]
    exact Bool.false_ne_true
  | @again visited m ancestor h ho hv =>
    refine finds_self ?_
    intro i m' hi
    rw [hp.not_enough h ho hv i m' hi]
    exact Bool.false_ne_true
  | @lost visited m ancestor h ho hv hm =>
    refine finds_self ?_
    intro i m' hi
    rw [eq_of_nth?_of_last (by rw [overridden?, ho, Option.bind_some, hm]) hi, h]
    exact Bool.false_ne_true
  | @next visited m overridden last ancestor h ho hv hm hl ih =>
    have hstep : overridden? view name m = some overridden := by
      rw [overridden?, ho, Option.bind_some, hm]
    obtain ⟨⟨k, hk⟩, hfirst⟩ := ih (hp.next h ho hm)
    refine ⟨⟨k + 1, by rw [nth?_succ hstep, hk]⟩, ?_⟩
    intro i m' hi hgood hbefore
    cases i with
    | zero =>
      obtain rfl := Option.some.inj hi
      rw [h] at hgood
      cases hgood
    | succ i =>
      rw [nth?_succ hstep] at hi
      refine hfirst i m' hi hgood ?_
      intro j m'' hj hm''
      exact hbefore (j + 1) m'' (by omega) (by rw [nth?_succ hstep, hm''])

/-- Following a method leads to one method only. -/
theorem Leads.unique {visited : List String} {m last last' : Member}
    (h : Leads view name enough visited m last) (h' : Leads view name enough visited m last') :
    last = last' := by
  induction h with
  | enough h => cases h' <;> simp_all
  | first h ho => cases h' <;> simp_all
  | again h ho hv => cases h' <;> simp_all
  | lost h ho hv hm =>
    cases h' with
    | next h' ho' hv' hm' hl' =>
      obtain rfl := Option.some.inj (ho.symm.trans ho')
      rw [hm] at hm'
      cases hm'
    | _ => simp_all
  | next h ho hv hm hl ih =>
    cases h' with
    | lost h' ho' hv' hm' =>
      obtain rfl := Option.some.inj (ho.symm.trans ho')
      rw [hm] at hm'
      cases hm'
    | next h' ho' hv' hm' hl' =>
      obtain rfl := Option.some.inj (ho.symm.trans ho')
      obtain rfl := Option.some.inj (hm.symm.trans hm')
      exact ih hl'
    | _ => simp_all

theorem Finds.good_iff {good : Member → Prop} {start found : Member}
    (h : Finds view name good start found) :
    good found ↔ ∃ i m, nth? view name i start = some m ∧ good m := by
  constructor
  · intro hgood
    obtain ⟨i, hi⟩ := h.onWalk
    exact ⟨i, found, hi, hgood⟩
  · rintro ⟨i, hi⟩
    classical
    have hex : ∃ i, ∃ m, nth? view name i start = some m ∧ good m := ⟨i, hi⟩
    obtain ⟨m, hm, hgood⟩ := Nat.find_spec hex
    have hfound : found = m := by
      refine h.first _ m hm hgood ?_
      intro j m' hj hm' hgood'
      exact Nat.find_min hex hj ⟨m', hm', hgood'⟩
    exact hfound ▸ hgood

theorem length_steps_follow {ns : Namespace} {view : String → Traced (Option ClassRecord)}
    (registered : ∀ c v, (view c).value = some v → ns.isClass c = true)
    (single : ∀ c, (view c).steps.length = 1) (name : String) (enough : Member → Bool)
    (fuel : Nat) {visited : List String} {m : Member} (distinct : visited.Nodup)
    (hc : ∀ c ∈ visited, ns.isClass c = true) :
    (follow view name enough fuel visited m).steps.length + visited.length ≤ ns.classCount + 1 := by
  induction fuel generalizing visited m with
  | zero =>
    have hle := Namespace.length_le_of_nodup distinct hc
    rw [follow, Traced.pure_steps, List.length_nil]
    omega
  | succ fuel ih =>
    have hle := Namespace.length_le_of_nodup distinct hc
    have hstay : (pure m : Traced Member).steps.length + visited.length ≤ ns.classCount + 1 := by
      rw [Traced.pure_steps, List.length_nil]
      omega
    rw [follow]
    by_cases h : enough m = true
    · rw [if_pos h]
      exact hstay
    · rw [if_neg h]
      cases ho : m.overriddenFrom with
      | none => exact hstay
      | some ancestor =>
        dsimp only
        by_cases hv : visited.contains ancestor = true
        · rw [if_pos hv]
          exact hstay
        · rw [if_neg hv, Traced.bind_steps, List.length_append, single]
          cases hm : (view ancestor).value.bind (·.member? name) with
          | none =>
            dsimp only
            rw [Traced.pure_steps, List.length_nil]
            omega
          | some overridden =>
            obtain ⟨v, hview, -⟩ := Option.bind_eq_some_iff.mp hm
            have hclasses : ∀ c ∈ ancestor :: visited, ns.isClass c = true := by
              intro c hin
              rcases List.mem_cons.mp hin with rfl | hin
              · exact registered c v hview
              · exact hc c hin
            have hnew : (ancestor :: visited).Nodup :=
              List.nodup_cons.mpr ⟨by simpa using hv, distinct⟩
            have hrest := ih (m := overridden) hnew hclasses
            rw [List.length_cons] at hrest
            dsimp only
            omega

/-- The method that a class has under a name, before any that it overrides: one of its instances
goes before one of the class itself. -/
def start? (view : String → Option ClassRecord) (className name : String) : Option Member :=
  (view className).bind fun v => (v.members.get? name).or (v.statics.get? name)

theorem isDocumented_iff (m : Member) :
    isDocumented m = true ↔ ∃ d, m.doc = some d ∧ d.params ≠ [] := by
  cases hd : m.doc <;> simp [isDocumented, hd]

end Override

namespace Scene

/-- Documentation gives a type to a parameter: the first entry of that name has one. -/
def DocumentsType (name : String) (m : Member) (type : String) : Prop :=
  ∃ d before p after, m.doc = some d ∧ d.params = before ++ p :: after ∧
    (∀ q ∈ before, q.name ≠ name) ∧ p.name = name ∧ p.type = some type ∧ type ≠ ""

theorem parameterType?_eq_some_iff (name : String) (m : Member) (type : String) :
    parameterType? name m = some type ↔ DocumentsType name m type := by
  simp only [parameterType?, Doc.param?, Option.bind_eq_some_iff, List.find?_eq_some_iff_append,
    Option.filter_eq_some_iff, DocumentsType]
  constructor
  · rintro ⟨p, ⟨d, hd, hp, before, after, hparams, hbefore⟩, ht, hne⟩
    refine ⟨d, before, p, after, hd, hparams, ?_, by simpa using hp, ht, by simpa using hne⟩
    simpa using hbefore
  · rintro ⟨d, before, p, after, hd, hparams, hbefore, hp, ht, hne⟩
    refine ⟨p, ⟨d, hd, by simpa using hp, before, after, hparams, ?_⟩, ht, by simpa using hne⟩
    simpa using hbefore

variable {scene : Scene}

theorem isClass_of_view {c : String} {v : ClassRecord} (h : (scene.view c).value = some v) :
    scene.names.isClass c = true := Namespace.isClass_of_view? h

theorem finds_overridden (name : String) (enough : Member → Bool) (m : Member) :
    Override.Finds scene.names.view? name (enough · = true) m
      (scene.overridden name enough m).value :=
  (leads_overridden name enough m).finds fun _ hc => absurd hc List.not_mem_nil

theorem length_steps_overridden (name : String) (enough : Member → Bool) (m : Member) :
    (scene.overridden name enough m).steps.length ≤ scene.names.classCount + 1 :=
  Override.length_steps_follow (fun _ _ => isClass_of_view) (fun _ => rfl) name enough _
    List.nodup_nil (by simp)

theorem method_value (className name : String) : (scene.method className name).value =
    (Override.start? scene.names.view? className name).map fun m =>
      (scene.overridden name Override.isDocumented m).value := by
  simp only [method, Override.method, Override.start?, view, Traced.bind_value]
  cases scene.names.view? className with
  | none => rfl
  | some v =>
    dsimp only [Option.bind_some]
    cases (v.members.get? name).or (v.statics.get? name) <;> rfl

theorem length_steps_method (className name : String) :
    (scene.method className name).steps.length ≤ scene.names.classCount + 2 := by
  rw [method, Override.method, Traced.bind_steps, List.length_append]
  cases (scene.view className).value with
  | none => simp [view]
  | some v =>
    dsimp only
    cases (v.members.get? name).or (v.statics.get? name) with
    | none => simp [view]
    | some m =>
      have hle := scene.length_steps_overridden name Override.isDocumented m
      simp only [overridden] at hle
      simp only [view, Traced.bind_steps, Traced.pure_steps, List.append_nil,
        List.length_singleton] at hle ⊢
      omega

/-- The method around a place in the class that the source defines. -/
def around? (scene : Scene) (offset : Int) : Option (String × Member) :=
  scene.header?.bind fun header =>
    (scene.names.view? (String.ofList header.name)).bind (enclosing? · offset)

theorem parameter_of_around? {offset : Int} (name : String) (h : scene.around? offset = none) :
    (scene.parameter offset name).value = none := by
  rw [around?] at h
  rw [parameter]
  cases hh : scene.header? with
  | none => rfl
  | some header =>
    rw [hh, Option.bind_some] at h
    simp only [view, Traced.bind_value, h]
    rfl

theorem parameter_eq {offset : Int} {method : String} {m : Member} (name : String)
    (h : scene.around? offset = some (method, m)) :
    (scene.parameter offset name).value =
      (parameterType? name (scene.overridden method (fun m => (parameterType? name m).isSome)
        m).value).map fun type => .object (String.ofList (TypeText.stripGenerics type.toList)) := by
  obtain ⟨header, hh, hm⟩ := Option.bind_eq_some_iff.mp h
  rw [parameter, hh]
  simp only [view, Traced.bind_value, hm]
  rfl

/-- A parameter of the method around a place has the type that the first method of the walk
documents. -/
theorem parameter_of_walk {offset : Int} {method : String} {m : Member} (name : String)
    (h : scene.around? offset = some (method, m)) :
    (∀ i m' type, Override.nth? scene.names.view? method i m = some m' →
      DocumentsType name m' type →
      (∀ j earlier other, j < i → Override.nth? scene.names.view? method j m = some earlier →
        ¬ DocumentsType name earlier other) →
      (scene.parameter offset name).value =
        some (.object (String.ofList (TypeText.stripGenerics type.toList)))) ∧
    ((scene.parameter offset name).value = none ↔
      ∀ i m' type, Override.nth? scene.names.view? method i m = some m' →
        ¬ DocumentsType name m' type) := by
  have hfinds := scene.finds_overridden method (fun m => (parameterType? name m).isSome) m
  rw [parameter_eq name h]
  generalize (scene.overridden method (fun m => (parameterType? name m).isSome) m).value = last
    at hfinds ⊢
  constructor
  · intro i m' type hi ht hbefore
    have htype := (parameterType?_eq_some_iff name m' type).mpr ht
    have hlast : last = m' := by
      refine hfinds.first i m' hi (by rw [htype]; rfl) ?_
      intro j earlier hj hearlier hgood
      obtain ⟨other, hother⟩ := Option.isSome_iff_exists.mp hgood
      exact hbefore j earlier other hj hearlier ((parameterType?_eq_some_iff _ _ _).mp hother)
    rw [hlast, htype]
    rfl
  · rw [Option.map_eq_none_iff, ← Option.not_isSome_iff_eq_none, hfinds.good_iff]
    constructor
    · intro hno i m' type hi ht
      exact hno ⟨i, m', hi, Option.isSome_iff_exists.mpr
        ⟨type, (parameterType?_eq_some_iff _ _ _).mpr ht⟩⟩
    · rintro hno ⟨i, m', hi, hgood⟩
      obtain ⟨type, ht⟩ := Option.isSome_iff_exists.mp hgood
      exact hno i m' type hi ((parameterType?_eq_some_iff _ _ _).mp ht)

theorem length_steps_parameter (offset : Int) (name : String) :
    (scene.parameter offset name).steps.length ≤ scene.names.classCount + 2 := by
  rw [parameter]
  cases scene.header? with
  | none => simp
  | some header =>
    dsimp only
    rw [Traced.bind_steps, List.length_append]
    cases (scene.view (String.ofList header.name)).value.bind (enclosing? · offset) with
    | none => simp [view]
    | some found =>
      obtain ⟨method, m⟩ := found
      have hle := scene.length_steps_overridden method (fun m => (parameterType? name m).isSome) m
      simp only [view, Traced.bind_steps, Traced.pure_steps, List.append_nil,
        List.length_singleton]
      omega

end Scene

namespace Database

theorem run_bind {α β : Type} {work : Work α} {rest : α → Work β} {s s' : Database × List Event}
    {a : α} (h : work.run.run s = (.ok a, s')) :
    (work >>= rest).run.run s = (rest a).run.run s' := by
  change (ExceptT.bindCont rest (work.run.run s).1).run (work.run.run s).2 = _
  rw [h]
  rfl

theorem Sound.run_viewWork {db : Database} (h : db.Sound) (name : String) (events : List Event) :
    ∃ later more, (viewWork name).run.run (db, events) =
      (.ok (db.names.view? name), later, more) ∧ later.Sound ∧ later.names = db.names := by
  obtain ⟨later, he, hsound⟩ := h.view_eq name
  have hnames := (view_frame h.idle name).1
  rw [he] at hnames
  refine ⟨later, events ++ reports name (db.names.view name), ?_, hsound, hnames⟩
  have hget : (get : Work (Database × List Event)).run.run (db, events) =
      (.ok (db, events), (db, events)) := rfl
  rw [viewWork, run_bind hget]
  simp only [he]
  rfl

theorem Sound.run_follow {db : Database} (h : db.Sound) {ns : Namespace} (hns : db.names = ns)
    (name : String) (enough : Member → Bool) (fuel : Nat) (visited : List String) (m : Member)
    (events : List Event) :
    ∃ later more, (Override.follow viewWork name enough fuel visited m).run.run (db, events) =
      (.ok (Override.follow (fun c => (⟨ns.view? c, [.viewed c]⟩ : Traced _)) name enough fuel
        visited m).value, later, more) := by
  induction fuel generalizing db visited m events with
  | zero => exact ⟨db, events, rfl⟩
  | succ fuel ih =>
    rw [Override.follow, Override.follow]
    by_cases he : enough m = true
    · rw [if_pos he, if_pos he]
      exact ⟨db, events, rfl⟩
    · rw [if_neg he, if_neg he]
      cases m.overriddenFrom with
      | none => exact ⟨db, events, rfl⟩
      | some ancestor =>
        dsimp only
        by_cases hv : visited.contains ancestor = true
        · rw [if_pos hv, if_pos hv]
          exact ⟨db, events, rfl⟩
        · rw [if_neg hv, if_neg hv]
          obtain ⟨later, more, hrun, hsound, hnames⟩ := h.run_viewWork ancestor events
          rw [run_bind hrun, Traced.bind_value, hns]
          dsimp only
          cases (ns.view? ancestor).bind (·.member? name) with
          | none => exact ⟨later, more, rfl⟩
          | some overridden => exact ih hsound (hnames.trans hns) _ _ _

/-- The method that a database finds is the one that a method leads to that its class has. -/
theorem Sound.method_eq {db : Database} (h : db.Sound) (className name : String) :
    ∃ later events, db.method className name =
      (.ok ((Override.start? db.names.view? className name).map fun m =>
        (Override.follow (fun c => (⟨db.names.view? c, [.viewed c]⟩ : Traced _)) name
          Override.isDocumented (db.names.classCount + 3) [] m).value), later, events) := by
  obtain ⟨db', events, hrun, hsound, hnames⟩ := h.run_viewWork className []
  have hmethod : (Override.method viewWork (db.names.classCount + 3) className name).run.run
      (db, []) = _ := run_bind hrun
  simp only [method, Override.start?, hmethod]
  cases hview : db.names.view? className with
  | none => exact ⟨db', events, rfl⟩
  | some v =>
    dsimp only [Option.bind_some]
    cases hstart : (v.members.get? name).or (v.statics.get? name) with
    | none => exact ⟨db', events, rfl⟩
    | some m =>
      obtain ⟨later, more, hfollow⟩ := hsound.run_follow hnames name Override.isDocumented
        (db.names.classCount + 3) [] m events
      dsimp only
      rw [run_bind hfollow]
      exact ⟨later, more, rfl⟩

theorem Sound.method_eq_value {db : Database} (h : db.Sound) (parser : Parser) (source : List Char)
    (className name : String) : ∃ later events, db.method className name =
      (.ok ((⟨db.names, parser, source⟩ : Scene).method className name).value, later, events) := by
  obtain ⟨later, events, hmethod⟩ := h.method_eq className name
  refine ⟨later, events, ?_⟩
  rw [hmethod, Scene.method_value]
  cases Override.start? db.names.view? className name with
  | none => rfl
  | some m =>
    have registered : ∀ c v, ((⟨db.names, parser, source⟩ : Scene).view c).value = some v →
        db.names.isClass c = true := fun _ _ => Namespace.isClass_of_view?
    have hleads : Override.Leads db.names.view? name Override.isDocumented [] m
        (Override.follow (⟨db.names, parser, source⟩ : Scene).view name Override.isDocumented
          (db.names.classCount + 3) [] m).value :=
      Override.leads_follow registered name Override.isDocumented List.nodup_nil (by simp) (by simp)
    have hsame := hleads.unique
      ((⟨db.names, parser, source⟩ : Scene).leads_overridden name Override.isDocumented m)
    rw [Option.map_some, Option.map_some, ← hsame]
    rfl

/-- Methods are followed to an end, and to the right one. After any history, whatever the methods
refer to: the method that is found under a name in a class is the first with documented parameters on
the walk from the method that the class has; if no method of the walk has any, it is one of them; and
there is none only if the class has none. The type of a parameter of the method around a place is
that of the first method on the walk from there whose documentation gives it one, and is unknown only
if none does. In both cases the views of no more classes are asked for than there are, and two. -/
theorem overrides_followed (roots : List String) (calls : List Call) (parser : Parser)
    (source : List Char) :
    let names := (ofHistory roots calls).names
    let scene : Scene := ⟨names, parser, source⟩
    (∀ className name, ∃ found later events,
      (ofHistory roots calls).method className name = (.ok found, later, events) ∧
      (scene.method className name).value = found ∧
      (scene.method className name).steps.length ≤ names.classCount + 2 ∧
      (found = none ↔ Override.start? names.view? className name = none) ∧
      ∀ start, Override.start? names.view? className name = some start → ∃ m, found = some m ∧
        Override.Leads names.view? name Override.isDocumented [] start m ∧
        Override.Finds names.view? name (fun m => ∃ d, m.doc = some d ∧ d.params ≠ []) start m) ∧
    ∀ (offset : Int) (name : String),
      (scene.parameter offset name).steps.length ≤ names.classCount + 2 ∧
      (scene.around? offset = none → (scene.parameter offset name).value = none) ∧
      ∀ method start, scene.around? offset = some (method, start) →
        (∀ i m type, Override.nth? names.view? method i start = some m →
          Scene.DocumentsType name m type →
          (∀ j earlier other, j < i → Override.nth? names.view? method j start = some earlier →
            ¬ Scene.DocumentsType name earlier other) →
          (scene.parameter offset name).value =
            some (.object (String.ofList (TypeText.stripGenerics type.toList)))) ∧
        ((scene.parameter offset name).value = none ↔
          ∀ i m type, Override.nth? names.view? method i start = some m →
            ¬ Scene.DocumentsType name m type) := by
  intro names scene
  refine ⟨?_, fun offset name => ⟨scene.length_steps_parameter offset name,
    scene.parameter_of_around? name, fun method start => scene.parameter_of_walk name⟩⟩
  intro className name
  obtain ⟨later, events, hmethod⟩ :=
    (sound_ofHistory roots calls).method_eq_value parser source className name
  refine ⟨_, later, events, hmethod, rfl, scene.length_steps_method className name, ?_, ?_⟩
  · rw [Scene.method_value, Option.map_eq_none_iff]
  · intro start hstart
    refine ⟨_, by rw [Scene.method_value, hstart]; rfl, scene.leads_overridden name _ start, ?_⟩
    have hfinds := scene.finds_overridden name Override.isDocumented start
    simpa only [Override.isDocumented_iff] using hfinds

/-! A method that comes to two classes that refer to each other; the second of them documents it. -/

def runOf (ancestor : String) (params : List ParamDoc) : Member :=
  { Member.function none { Doc.empty with params } with overriddenFrom := some ancestor }

def withRun (className : String) (m : Member) : Call :=
  .ingest { ClassRecord.bare className none with members := [("run", m)] }

def roundabout : List Call :=
  [withRun "a.A" (runOf "a.B" []), withRun "a.B" (runOf "a.C" []),
    withRun "a.C" (runOf "a.B" [⟨"speed", some "Number", none⟩])]

theorem roundabout_followed : ∃ later events,
    (ofHistory ["Object"] roundabout).method "a.A" "run" =
      (.ok (some (runOf "a.B" [⟨"speed", some "Number", none⟩])), later, events) := by
  obtain ⟨hmethods, -⟩ := overrides_followed ["Object"] roundabout .script []
  obtain ⟨found, later, events, hmethod, -, -, -, hstart⟩ := hmethods "a.A" "run"
  have hsecond : Override.nth? (ofHistory ["Object"] roundabout).names.view? "run" 1
      (runOf "a.B" []) = some (runOf "a.C" []) := by decide +kernel
  have hthird : Override.nth? (ofHistory ["Object"] roundabout).names.view? "run" 2
      (runOf "a.B" []) = some (runOf "a.B" [⟨"speed", some "Number", none⟩]) := by decide +kernel
  obtain ⟨m, rfl, -, hfinds⟩ := hstart (runOf "a.B" []) (by decide +kernel)
  have hm := hfinds.first 2 _ hthird ⟨_, rfl, by simp⟩ (by
    rintro j m' hj hm' ⟨d, hd, hparams⟩
    interval_cases j
    · obtain rfl := Option.some.inj hm'
      obtain rfl := Option.some.inj hd
      exact hparams rfl
    · obtain rfl := Option.some.inj (hsecond.symm.trans hm')
      obtain rfl := Option.some.inj hd
      exact hparams rfl)
  exact ⟨later, events, hm ▸ hmethod⟩

end Database
end ScriptSense
