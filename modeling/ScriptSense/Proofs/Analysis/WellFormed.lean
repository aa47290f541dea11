import ScriptSense.Proofs.Analysis.Overrides
import ScriptSense.Proofs.Feature.Precedence
import ScriptSense.Proofs.Text.Decoration

/-! What inference may answer. A package is a path that is no class, a class is registered, a method is
a documented function of the view of a class, and an object is of some class. Only the last is not
always so: a parameter may be documented with nothing but decoration, and is then taken for an object
of a class without a name. Main statement: the questions that are answered so are those that lead to
such a parameter, through assignments and chained settings, and every other answer is well-formed. -/
namespace ScriptSense

namespace Occurrence

theorem exists_of_firstFrom? {α : Type} {pattern : Pattern α} {previous : Option Char}
    {position : Nat} {text : List Char} {o : Occurrence α}
    (h : firstFrom? pattern previous position text = some o) :
    ∃ before rest n, pattern before rest = some (n, o.captured) := by
  induction text generalizing previous position with
  | nil =>
    obtain ⟨⟨n, a⟩, hp, rfl⟩ := Option.map_eq_some_iff.mp h
    exact ⟨_, _, n, hp⟩
  | cons c cs ih =>
    rw [firstFrom?] at h
    split at h
    · rename_i n a hp
      obtain rfl := Option.some.inj h
      exact ⟨_, _, n, hp⟩
    · exact ih h

end Occurrence

namespace ClassHeader

open Text

theorem ne_nil_of_chain? {text name rest : List Char} (h : chain? text = some (name, rest)) :
    name ≠ [] := by
  cases text with
  | nil => cases h
  | cons c cs =>
    rw [chain?] at h
    split at h
    · obtain ⟨rfl, -⟩ := Prod.mk.inj (Option.some.inj h)
      exact List.cons_ne_nil _ _
    · cases h

theorem ne_nil_of_quotedChain? {text name rest : List Char}
    (h : quotedChain? text = some (name, rest)) : name ≠ [] := by
  cases text with
  | nil => cases h
  | cons quote inner =>
    rw [quotedChain?] at h
    split at h
    · obtain ⟨⟨found, after⟩, hchain, h⟩ := Option.bind_eq_some_iff.mp h
      obtain ⟨after, -, h⟩ := Option.bind_eq_some_iff.mp h
      obtain ⟨rfl, -⟩ := Prod.mk.inj (Option.some.inj h)
      exact ne_nil_of_chain? hchain
    · cases h

theorem ne_nil_of_opening {previous : Option Char} {rest name : List Char} {n : Nat}
    (h : opening previous rest = some (n, name)) : name ≠ [] := by
  obtain ⟨_, -, h⟩ := Option.bind_eq_some_iff.mp h
  obtain ⟨_, -, h⟩ := Option.bind_eq_some_iff.mp h
  obtain ⟨_, -, h⟩ := Option.bind_eq_some_iff.mp h
  obtain ⟨⟨found, after⟩, hchain, h⟩ := Option.bind_eq_some_iff.mp h
  obtain ⟨_, -, h⟩ := Option.bind_eq_some_iff.mp h
  obtain ⟨_, -, h⟩ := Option.bind_eq_some_iff.mp h
  obtain ⟨-, rfl⟩ := Prod.mk.inj (Option.some.inj h)
  exact ne_nil_of_quotedChain? hchain

theorem ne_nil_of_extension {previous : Option Char} {rest name : List Char} {n : Nat}
    (h : extension previous rest = some (n, name)) : name ≠ [] := by
  rw [extension] at h
  split at h
  · cases h
  · obtain ⟨_, -, h⟩ := Option.bind_eq_some_iff.mp h
    obtain ⟨_, -, h⟩ := Option.bind_eq_some_iff.mp h
    obtain ⟨⟨found, after⟩, hchain, h⟩ := Option.bind_eq_some_iff.mp h
    obtain ⟨-, rfl⟩ := Prod.mk.inj (Option.some.inj h)
    exact ne_nil_of_chain? hchain

theorem ne_nil_of_find? {source : List Char} {header : ClassHeader} (h : find? source = some header) :
    header.name ≠ [] ∧ ∀ superClass, header.superClass = some superClass → superClass ≠ [] := by
  obtain ⟨found, hfound, rfl⟩ := Option.map_eq_some_iff.mp h
  obtain ⟨_, _, _, hopening⟩ := Occurrence.exists_of_firstFrom? hfound
  refine ⟨ne_nil_of_opening hopening, ?_⟩
  intro superClass hs
  obtain ⟨parent, hparent, rfl⟩ := Option.map_eq_some_iff.mp hs
  obtain ⟨_, _, _, hextension⟩ := Occurrence.exists_of_firstFrom? hparent
  exact ne_nil_of_extension hextension

end ClassHeader

theorem Override.Finds.exists_first {view : String → Option ClassRecord} {name : String}
    {good : Member → Prop} {start found : Member} (h : Override.Finds view name good start found)
    (hgood : good found) : ∃ i, Override.nth? view name i start = some found ∧
      ∀ j m, j < i → Override.nth? view name j start = some m → ¬ good m := by
  classical
  obtain ⟨i, hi⟩ := h.onWalk
  have hex : ∃ i, ∃ m, Override.nth? view name i start = some m ∧ good m := ⟨i, found, hi, hgood⟩
  have hbefore : ∀ j m, j < Nat.find hex → Override.nth? view name j start = some m → ¬ good m :=
    fun j m hj hm hg => Nat.find_min hex hj ⟨m, hm, hg⟩
  obtain ⟨m, hm, hg⟩ := Nat.find_spec hex
  obtain rfl := h.first _ m hm hg hbefore
  exact ⟨Nat.find hex, hm, hbefore⟩

/-- A denotation that the classes bear out. -/
inductive Denotation.WellFormed (ns : Namespace) : Denotation → Prop
  | package {name : String} (path : ns.containsPath name = true) (free : ns.isClass name = false) :
      WellFormed ns (.package name)
  | klass {name : String} (registered : ns.isClass name = true) : WellFormed ns (.klass name)
  | object {className : String} (named : className ≠ "") : WellFormed ns (.object className)
  | method {className name returns : String} {view : ClassRecord} {m : Member}
      (hview : ns.view? className = some view) (hmember : view.member? name = some m)
      (documented : m.doc.isSome = true) (function : m.isFunction = true) (named : returns ≠ "") :
      WellFormed ns (.method (className ++ "." ++ name) returns)

theorem Denotation.result?_eq_some_iff {d result : Denotation} : d.result? = some result ↔
    ∃ name returns, d = .method name returns ∧ result = .object returns := by
  cases d with
  | method name returns => simp [result?, eq_comm]
  | _ => simp [result?]

namespace Scene

open Text TypeText

variable {scene : Scene}

/-- A parameter of the method around a place whose documented type is nothing but decoration. Its type
is the first that the documentation gives along the methods that are overridden. -/
def HollowParameter (scene : Scene) (offset : Int) (name : String) : Prop :=
  ∃ method start i m type, scene.around? offset = some (method, start) ∧
    Override.nth? scene.names.view? method i start = some m ∧ DocumentsType name m type ∧
    (∀ j earlier other, j < i → Override.nth? scene.names.view? method j start = some earlier →
      ¬ DocumentsType name earlier other) ∧
    IsHollow type.toList

/-- A question that leads to a parameter without a type: as it stands, as what is assigned to a name,
or as what is set, which is what a setting gives again. -/
inductive Hollow (scene : Scene) : Call → Prop
  | parsed {offset : Int} {text : List Char} {e : Expr}
      (h : (scene.parser (String.ofList (trim text))).value = some e)
      (hollow : Hollow scene (.node offset e)) : Hollow scene (.text offset text)
  | parameter {offset : Int} {name : String}
      (hit : scene.namespaceHit? (.identifier name) = none)
      (unknown : ∀ found, Assignment.nearest? name.toList scene.source offset = some found →
        (scene.resolve found.start found.captured).value = none)
      (h : scene.HollowParameter offset name) : Hollow scene (.node offset (.identifier name))
  | assigned {offset : Int} {name : String} {found : Occurrence (List Char)}
      (hit : scene.namespaceHit? (.identifier name) = none)
      (h : Assignment.nearest? name.toList scene.source offset = some found)
      (hollow : Hollow scene (.text found.start found.captured)) :
      Hollow scene (.node offset (.identifier name))
  | setting {offset : Int} {whole text : String} {object : Expr} {given : List String}
      {chained : Bool} (hollow : Hollow scene (.node offset object)) :
      Hollow scene (.node offset (.call whole (.member text object "set" false) given chained))

/-! The rules one by one. -/

theorem wellFormed_of_named? {name : String} {d : Denotation} (h : scene.named? name = some d) :
    d.WellFormed scene.names := by
  rw [named?] at h
  split at h
  · cases h
  · obtain ⟨entry, hlookup, rfl⟩ := Option.map_eq_some_iff.mp h
    obtain ⟨t, ht, hentry⟩ := Option.map_eq_some_iff.mp hlookup
    cases hv : t.value? with
    | none =>
      rw [hv] at hentry
      subst hentry
      refine .package ?_ ?_
      · rw [Namespace.containsPath, ht]
        rfl
      · rw [Namespace.isClass, Namespace.record?, ht, Option.bind_some, hv]
        rfl
    | some r =>
      rw [hv] at hentry
      subst hentry
      refine .klass ?_
      rw [Namespace.isClass, Namespace.record?, ht, Option.bind_some, hv]
      rfl

theorem wellFormed_of_namespaceHit? {e : Expr} {d : Denotation}
    (h : scene.namespaceHit? e = some d) : d.WellFormed scene.names := by
  rcases Option.or_eq_some_iff.mp h with h | ⟨-, h⟩
  · exact wellFormed_of_named? h
  · obtain ⟨name, -, h⟩ := Option.bind_eq_some_iff.mp h
    exact wellFormed_of_named? h

theorem wellFormed_of_memberType {owner d : Denotation} {name : String}
    (h : (scene.memberType owner name).value = some d) : d.WellFormed scene.names := by
  cases hc : owner.className? with
  | none =>
    rw [memberType, hc] at h
    cases h
  | some className =>
    rw [memberType_value hc] at h
    obtain ⟨view, hview, h⟩ := Option.bind_eq_some_iff.mp h
    obtain ⟨m, hm, h⟩ := Option.bind_eq_some_iff.mp h
    obtain ⟨doc, hdoc, h⟩ := Option.bind_eq_some_iff.mp h
    split at h
    · obtain ⟨type, htype, rfl⟩ := Option.map_eq_some_iff.mp h
      have hne := (Option.filter_eq_some_iff.mp htype).2
      exact .object (by simpa using hne)
    · split at h
      · rename_i hfunction
        obtain ⟨returns, hreturns, rfl⟩ := Option.map_eq_some_iff.mp h
        have hne := (Option.filter_eq_some_iff.mp hreturns).2
        exact .method hview hm (by rw [hdoc]; rfl) hfunction (by simpa using hne)
      · cases h

theorem wellFormed_of_result? {function d : Denotation} (hf : function.WellFormed scene.names)
    (h : function.result? = some d) : d.WellFormed scene.names := by
  obtain ⟨name, returns, rfl, rfl⟩ := Denotation.result?_eq_some_iff.mp h
  cases hf with
  | method hview hmember documented function named => exact .object named

/-- A parameter is an object of a class, unless its documented type is nothing but decoration. -/
theorem parameter_cases {offset : Int} {name : String} {d : Denotation}
    (h : (scene.parameter offset name).value = some d) :
    d.WellFormed scene.names ∨ d = .object "" ∧ scene.HollowParameter offset name := by
  cases ha : scene.around? offset with
  | none =>
    rw [parameter_of_around? name ha] at h
    cases h
  | some found =>
    obtain ⟨method, start⟩ := found
    have hfinds := scene.finds_overridden method (fun m => (parameterType? name m).isSome) start
    rw [parameter_eq name ha] at h
    obtain ⟨type, htype, rfl⟩ := Option.map_eq_some_iff.mp h
    by_cases hnil : stripGenerics type.toList = []
    · obtain ⟨i, hi, hbefore⟩ := hfinds.exists_first (by rw [htype]; rfl)
      refine Or.inr ⟨by rw [hnil], method, start, i, _, type, ha, hi,
        (parameterType?_eq_some_iff _ _ _).mp htype, ?_, (stripGenerics_eq_nil_iff _).mp hnil⟩
      intro j earlier other hj hearlier hother
      refine hbefore j earlier hj hearlier ?_
      rw [(parameterType?_eq_some_iff _ _ _).mpr hother]
      rfl
    · exact Or.inl (.object (by simpa using hnil))

theorem HollowParameter.parameter_eq {offset : Int} {name : String}
    (h : scene.HollowParameter offset name) :
    (scene.parameter offset name).value = some (.object "") := by
  obtain ⟨method, start, i, m, type, ha, hi, htype, hbefore, hhollow⟩ := h
  rw [(scene.parameter_of_walk name ha).1 i m type hi htype hbefore,
    (stripGenerics_eq_nil_iff _).mpr hhollow]

/-! Every question. -/

theorem Hollow.answer_eq {call : Call} (h : scene.Hollow call) :
    (scene.answer call).value = some (.object "") := by
  induction h with
  | parsed h _ ih =>
    rw [answer_eq_step]
    simp only [step, Traced.bind_value, h, ih]
    rfl
  | @parameter offset name hit unknown h =>
    rw [answer_eq_step]
    simp only [step, hit]
    cases hf : Assignment.nearest? name.toList scene.source offset with
    | none => exact h.parameter_eq
    | some found =>
      have hnone : (scene.answer (.text found.start found.captured)).value = none := unknown found hf
      simp only [Traced.bind_value, hnone]
      exact h.parameter_eq
  | assigned hit h _ ih =>
    rw [answer_eq_step]
    simp only [step, hit, h, Traced.bind_value, ih]
    rfl
  | setting _ ih =>
    rw [answer_eq_step]
    simp only [step, Traced.bind_value, ih]
    rfl

/-- An answer that is given: it is well-formed, or the question leads to a parameter without a type. -/
def Allows (scene : Scene) (call : Call) (d : Denotation) : Prop :=
  d.WellFormed scene.names ∨ d = .object "" ∧ scene.Hollow call

theorem Allows.imp {call outer : Call} {d : Denotation} (h : scene.Allows call d)
    (lead : scene.Hollow call → scene.Hollow outer) : scene.Allows outer d :=
  Or.imp_right (And.imp_right lead) h

variable {offset : Int} {d : Denotation}

theorem allows_text {text : List Char} (h : (scene.answer (.text offset text)).value = some d)
    (inner : ∀ e, (scene.parser (String.ofList (trim text))).value = some e →
      ∀ d, (scene.answer (.node offset e)).value = some d → scene.Allows (.node offset e) d) :
    scene.Allows (.text offset text) d := by
  rw [answer_eq_step] at h
  simp only [step, Traced.bind_value] at h
  cases he : (scene.parser (String.ofList (trim text))).value with
  | none =>
    rw [he] at h
    cases h
  | some e =>
    simp only [he, Traced.bind_value] at h
    cases ha : (scene.answer (.node offset e)).value with
    | none =>
      rw [ha] at h
      cases h
    | some answered =>
      rw [ha] at h
      obtain rfl := Option.some.inj h
      exact (inner e he _ ha).imp (.parsed he)

theorem allows_identifier {name : String}
    (h : (scene.answer (.node offset (.identifier name))).value = some d)
    (inner : ∀ found, scene.namespaceHit? (.identifier name) = none →
      Assignment.nearest? name.toList scene.source offset = some found →
      ∀ d, (scene.answer (.text found.start found.captured)).value = some d →
        scene.Allows (.text found.start found.captured) d) :
    scene.Allows (.node offset (.identifier name)) d := by
  rw [answer_eq_step] at h
  simp only [step] at h
  cases hit : scene.namespaceHit? (.identifier name) with
  | some known =>
    rw [hit] at h
    obtain rfl := Option.some.inj h
    exact Or.inl (wellFormed_of_namespaceHit? hit)
  | none =>
    simp only [hit] at h
    have hparameter : (∀ found, Assignment.nearest? name.toList scene.source offset = some found →
          (scene.resolve found.start found.captured).value = none) →
        (scene.parameter offset name).value = some d →
        scene.Allows (.node offset (.identifier name)) d := by
      intro unknown hp
      refine (parameter_cases hp).imp_right ?_
      exact fun hollow => ⟨hollow.1, .parameter hit unknown hollow.2⟩
    cases hf : Assignment.nearest? name.toList scene.source offset with
    | none =>
      rw [hf] at h
      exact hparameter (by simp [hf]) h
    | some found =>
      simp only [hf, Traced.bind_value] at h
      cases ha : (scene.answer (.text found.start found.captured)).value with
      | some assigned =>
        rw [ha] at h
        obtain rfl := Option.some.inj h
        exact (inner found hit hf _ ha).imp (.assigned hit hf)
      | none =>
        rw [ha] at h
        refine hparameter ?_ h
        intro other hother
        obtain rfl := Option.some.inj (hf.symm.trans hother)
        exact ha

theorem allows_member {text property : String} {object : Expr} {optional : Bool}
    (h : (scene.answer (.node offset (.member text object property optional))).value = some d) :
    scene.Allows (.node offset (.member text object property optional)) d := by
  rw [answer_eq_step] at h
  simp only [step] at h
  cases hit : scene.namespaceHit? (.member text object property optional) with
  | some known =>
    rw [hit] at h
    obtain rfl := Option.some.inj h
    exact Or.inl (wellFormed_of_namespaceHit? hit)
  | none =>
    simp only [hit, Traced.bind_value] at h
    cases ha : (scene.answer (.node offset object)).value with
    | none =>
      rw [ha] at h
      cases h
    | some owner =>
      rw [ha] at h
      exact Or.inl (wellFormed_of_memberType h)

/-- A call of a member gives what the member returns, or what it was called on if that is set. -/
theorem allows_call_member {whole text property : String} {object : Expr} {optional chained : Bool}
    {given : List String}
    (h : (scene.answer (.node offset
      (.call whole (.member text object property optional) given chained))).value = some d)
    (inner : ∀ d, (scene.answer (.node offset object)).value = some d →
      scene.Allows (.node offset object) d) :
    scene.Allows (.node offset (.call whole (.member text object property optional) given chained))
      d := by
  rw [answer_eq_step] at h
  simp only [step, Traced.bind_value] at h
  cases ha : (scene.answer (.node offset object)).value with
  | none =>
    rw [ha] at h
    cases h
  | some owner =>
    rw [ha] at h
    dsimp only at h
    split at h
    · rename_i hset
      obtain rfl := Option.some.inj h
      simp only [Bool.and_eq_true, beq_iff_eq, Bool.not_eq_true'] at hset
      obtain ⟨⟨rfl, rfl⟩, -⟩ := hset
      exact (inner _ ha).imp .setting
    · obtain ⟨function, hfunction, hresult⟩ := Option.bind_eq_some_iff.mp h
      exact Or.inl (wellFormed_of_result? (wellFormed_of_memberType hfunction) hresult)

/-- A call of anything else gives what it returns, and an object returns nothing. -/
theorem allows_call {whole : String} {callee : Expr} {chained : Bool} {given : List String}
    (hc : ∀ text object property optional, callee ≠ .member text object property optional)
    (h : (scene.answer (.node offset (.call whole callee given chained))).value = some d)
    (inner : ∀ d, (scene.answer (.node offset callee)).value = some d →
      scene.Allows (.node offset callee) d) :
    scene.Allows (.node offset (.call whole callee given chained)) d := by
  have hstep : scene.step scene.answer (.node offset (.call whole callee given chained)) =
      (do return (← scene.answer (.node offset callee)).bind (·.result?)) := by
    cases callee with
    | member text object property optional => exact absurd rfl (hc text object property optional)
    | _ => rfl
  rw [answer_eq_step, hstep] at h
  obtain ⟨function, hfunction, hresult⟩ := Option.bind_eq_some_iff.mp h
  rcases inner function hfunction with hwell | ⟨rfl, -⟩
  · exact Or.inl (wellFormed_of_result? hwell hresult)
  · cases hresult

/-- The questions that a question leads to have allowed answers, and its own is made of them or of
what the classes have. -/
theorem allows_of_answer (call : Call) (d : Denotation) (h : (scene.answer call).value = some d) :
    scene.Allows call d := by
  induction call using (wellFounded_asks scene).induction generalizing d with
  | _ call ih =>
    cases call with
    | text offset text => exact allows_text h fun e he => ih _ (.parsed he)
    | node offset e =>
      cases e with
      | super =>
        obtain ⟨superClass, hs, rfl⟩ := Option.map_eq_some_iff.mp h
        obtain ⟨header, hheader, hsuper⟩ := Option.bind_eq_some_iff.mp hs
        have hne := (ClassHeader.ne_nil_of_find? hheader).2 superClass hsuper
        exact Or.inl (.object (by simpa using hne))
      | this =>
        obtain ⟨header, hheader, rfl⟩ := Option.map_eq_some_iff.mp h
        have hne := (ClassHeader.ne_nil_of_find? hheader).1
        exact Or.inl (.object (by simpa using hne))
      | construct text className given =>
        rw [answer_eq_step] at h
        simp only [step, Traced.pure_value] at h
        split at h
        · rename_i hclass
          obtain rfl := Option.some.inj h
          exact Or.inl (.object (Namespace.ne_empty_of_isClass hclass))
        · cases h
      | identifier name => exact allows_identifier h fun found hit hf => ih _ (.assigned hit hf)
      | member text object property optional => exact allows_member h
      | call whole callee given chained =>
        cases callee with
        | member text object property optional => exact allows_call_member h (ih _ .owner)
        | _ => exact allows_call (by simp) h (ih _ (.callee (by simp)))

/-- What inference answers, to every question and for all classes, parsers and sources. An answer is
well-formed, or else it is an object of a class without a name; and that is the answer exactly to the
questions that lead to a parameter whose documented type is nothing but decoration. What a call of the
answer gives is an object of a class, and only a method gives anything. -/
theorem resolve_wellFormed_or_hollow (scene : Scene) (offset : Int) (text : List Char) :
    (∀ d, (scene.resolve offset text).value = some d →
      (d.WellFormed scene.names ∨ d = .object "") ∧
      ∀ result, d.result? = some result → ∃ name returns, d = .method name returns ∧
        result = .object returns ∧ returns ≠ "") ∧
    ((scene.resolve offset text).value = some (.object "") ↔ scene.Hollow (.text offset text)) := by
  have hallows : ∀ d, (scene.resolve offset text).value = some d →
      scene.Allows (.text offset text) d := allows_of_answer (.text offset text)
  refine ⟨?_, ?_, Hollow.answer_eq⟩
  · intro d hd
    refine ⟨(hallows d hd).imp_right And.left, ?_⟩
    intro result hresult
    obtain ⟨name, returns, rfl, rfl⟩ := Denotation.result?_eq_some_iff.mp hresult
    rcases hallows _ hd with hwell | ⟨hobject, -⟩
    · cases hwell with
      | method hview hmember documented function named => exact ⟨_, _, rfl, rfl, named⟩
    · cases hobject
  · intro h
    rcases hallows _ h with hwell | ⟨-, hollow⟩
    · cases hwell with
      | object named => exact absurd rfl named
    · exact hollow

/-! A method with a parameter that is documented with decoration only. -/

def decorated : Scene where
  names :=
    let doc : Doc := { Doc.empty with params := [⟨"x", some "<T>", none⟩] }
    let m := Member.function (some ⟨⟨1, 0, 0⟩, ⟨1, 99, 99⟩⟩) doc
    (Database.ofHistory ["Object"]
      [.ingest { ClassRecord.bare "a.C" none with members := [("m", m)] }]).names
  parser := .known [("x", .identifier "x")]
  source := "qx.Class.define(\"a.C\", \x7b".toList

theorem resolve_decorated : (decorated.resolve 23 ['x']).value = some (.object "") := by
  decide +kernel

/-- The parameter is taken for an object of a class without a name. -/
theorem resolve_decorated_not_wellFormed :
    ∃ d, (decorated.resolve 23 ['x']).value = some d ∧ ¬ d.WellFormed decorated.names := by
  refine ⟨_, resolve_decorated, ?_⟩
  intro hwell
  cases hwell with
  | object named => exact named rfl

end Scene
end ScriptSense
