import Mathlib.Data.List.Chain
import Mathlib.Order.WellFounded
import ScriptSense.Analysis.Resolve
import ScriptSense.Proofs.Namespace.Walks
import ScriptSense.Proofs.Source.Assignment

/-! Inference comes to an end. A text is read and handed on as an expression, an expression is
handed on to its parts, and a name to the text assigned to it, which may be anything; but the
assignment begins before the place it was looked up at, with fewer semicolons before it. -/
namespace ScriptSense

theorem Traced.bind_congr {α β : Type} {a : Traced α} {f g : α → Traced β}
    (h : f a.value = g a.value) : a >>= f = a >>= g := by
  change (⟨_, _⟩ : Traced β) = ⟨_, _⟩
  rw [h]

namespace Scene

open Text

/-- A question that inference asks itself: what a text or an expression denotes at a place. -/
inductive Call where
  | text (offset : Int) (text : List Char)
  | node (offset : Int) (e : Expr)

namespace Call

def offset : Call → Int
  | text offset _ => offset
  | node offset _ => offset

def isText : Call → Bool
  | text .. => true
  | node .. => false

end Call

/-- The questions that a question leads to directly. -/
inductive Asks (scene : Scene) : Call → Call → Prop
  | parsed {offset : Int} {text : List Char} {e : Expr}
      (h : (scene.parser (String.ofList (trim text))).value = some e) :
      Asks scene (.text offset text) (.node offset e)
  | object {offset : Int} {text property : String} {object : Expr} {optional : Bool}
      (h : scene.namespaceHit? (.member text object property optional) = none) :
      Asks scene (.node offset (.member text object property optional)) (.node offset object)
  | owner {offset : Int} {text whole property : String} {object : Expr} {given : List String}
      {optional chained : Bool} :
      Asks scene (.node offset (.call whole (.member text object property optional) given chained))
        (.node offset object)
  | callee {offset : Int} {whole : String} {callee : Expr} {given : List String} {chained : Bool}
      (h : ∀ text object property optional, callee ≠ .member text object property optional) :
      Asks scene (.node offset (.call whole callee given chained)) (.node offset callee)
  | assigned {offset : Int} {name : String} {found : Occurrence (List Char)}
      (hit : scene.namespaceHit? (.identifier name) = none)
      (h : Assignment.nearest? name.toList scene.source offset = some found) :
      Asks scene (.node offset (.identifier name)) (.text found.start found.captured)

/-- Answers a question from the answers to the questions it leads to. -/
def step (scene : Scene) (answer : Call → Traced (Option Denotation)) :
    Call → Traced (Option Denotation)
  | .text offset text => do
    match ← scene.parser (String.ofList (trim text)) with
    | none => return none
    | some e =>
      match ← answer (.node offset e) with
      | some d => return some d
      | none =>
        Traced.report (unresolved text offset)
        return none
  | .node _ .super =>
    pure ((scene.header?.bind (·.superClass)).map fun name => .object (String.ofList name))
  | .node _ .this => pure (scene.header?.map fun header => .object (String.ofList header.name))
  | .node offset (.identifier name) =>
    match scene.namespaceHit? (.identifier name) with
    | some hit => pure (some hit)
    | none =>
      match Assignment.nearest? name.toList scene.source offset with
      | none => scene.parameter offset name
      | some found => do
        match ← answer (.text found.start found.captured) with
        | some d => return some d
        | none => scene.parameter offset name
  | .node offset (.member text object property optional) =>
    match scene.namespaceHit? (.member text object property optional) with
    | some hit => pure (some hit)
    | none => do
      match ← answer (.node offset object) with
      | none => return none
      | some owner => scene.memberType owner property
  | .node offset (.call _ (.member _ object property optional) _ _) => do
    match ← answer (.node offset object) with
    | none => return none
    | some owner =>
      if property == "set" && !optional && owner.isObject then return some owner
      else return (← scene.memberType owner property).bind (·.result?)
  | .node offset (.call _ callee _ _) => do
    return (← answer (.node offset callee)).bind (·.result?)
  | .node _ (.construct _ className _) =>
    let name := String.ofList (trim className.toList)
    pure (if scene.names.isClass name then some (.object name) else none)

def answer (scene : Scene) : Call → Traced (Option Denotation)
  | .text offset text => scene.resolve offset text
  | .node offset e => scene.resolveExpr offset e

/-! One question after another. -/

variable {scene : Scene}

theorem Asks.earlier {call inner : Call} (h : scene.Asks call inner) (ht : inner.isText = true) :
    inner.offset < call.offset ∧
      hopsBefore scene.source inner.offset < hopsBefore scene.source call.offset := by
  cases h with
  | assigned hit h => exact ⟨Assignment.start_lt_of_nearest? h, Assignment.count_lt_of_nearest? h⟩
  | _ => exact absurd ht (by simp [Call.isText])

theorem Asks.offset_eq {call inner : Call} (h : scene.Asks call inner)
    (ht : inner.isText = false) : inner.offset = call.offset := by
  cases h with
  | assigned hit h => exact absurd ht (by simp [Call.isText])
  | _ => rfl

/-- Along nested questions there are no more assignments than semicolons before the first place, and
the places of the assignments go strictly backward. -/
theorem assignments_of_isChain {call : Call} {calls : List Call}
    (h : List.IsChain scene.Asks (call :: calls)) :
    (calls.filter Call.isText).length ≤ hopsBefore scene.source call.offset ∧
      (call.offset :: (calls.filter Call.isText).map Call.offset).Pairwise (· > ·) := by
  induction calls generalizing call with
  | nil => simp
  | cons inner calls ih =>
    obtain ⟨hasks, hchain⟩ := List.isChain_cons_cons.mp h
    obtain ⟨hlength, hoffsets⟩ := ih hchain
    cases ht : inner.isText with
    | true =>
      obtain ⟨hoffset, hhops⟩ := hasks.earlier ht
      rw [List.filter_cons_of_pos ht, List.length_cons, List.map_cons]
      refine ⟨by omega, List.pairwise_cons.mpr ⟨?_, hoffsets⟩⟩
      intro later hlater
      rcases List.mem_cons.mp hlater with rfl | hlater
      · exact hoffset
      · exact ((List.pairwise_cons.mp hoffsets).1 later hlater).trans hoffset
    | false =>
      have hnot : ¬ inner.isText = true := by simp [ht]
      rw [List.filter_cons_of_neg hnot, ← hasks.offset_eq ht]
      exact ⟨hlength, hoffsets⟩

/-- There is no endless chain of questions: the semicolons before the place get fewer, or a text is
handed on as an expression, or an expression to a part of it. -/
theorem wellFounded_asks (scene : Scene) : WellFounded fun inner call => scene.Asks call inner := by
  let rank : Call → Nat × Nat × Nat := fun call =>
    match call with
    | .text offset _ => (hopsBefore scene.source offset, 1, 0)
    | .node offset e => (hopsBefore scene.source offset, 0, sizeOf e)
  have hwf : WellFounded (InvImage (Prod.Lex (· < ·) (Prod.Lex (· < ·) (· < ·))) rank) :=
    InvImage.wf rank (Nat.lt_wfRel.wf.prod_lex (Nat.lt_wfRel.wf.prod_lex Nat.lt_wfRel.wf))
  refine Subrelation.wf ?_ hwf
  intro inner call h
  cases h with
  | parsed h => exact .right _ (.left _ _ (by decide))
  | object h => exact .right _ (.right _ (by simp; omega))
  | owner => exact .right _ (.right _ (by simp; omega))
  | callee h => exact .right _ (.right _ (by simp; omega))
  | assigned hit h => exact .left _ _ (Assignment.count_lt_of_nearest? h)

theorem step_congr {answer other : Call → Traced (Option Denotation)} {call : Call}
    (same : ∀ inner, scene.Asks call inner → answer inner = other inner) :
    scene.step answer call = scene.step other call := by
  cases call with
  | text offset text =>
    refine Traced.bind_congr ?_
    cases he : (scene.parser (String.ofList (trim text))).value with
    | none => rfl
    | some e => simp only [same _ (.parsed he)]
  | node offset e =>
    cases e with
    | this => rfl
    | super => rfl
    | construct text className given => rfl
    | identifier name =>
      simp only [step]
      cases hit : scene.namespaceHit? (.identifier name) with
      | some hit => rfl
      | none =>
        cases hf : Assignment.nearest? name.toList scene.source offset with
        | none => rfl
        | some found => simp only [same _ (.assigned hit hf)]
    | member text object property optional =>
      simp only [step]
      cases hit : scene.namespaceHit? (.member text object property optional) with
      | some hit => rfl
      | none => simp only [same _ (.object hit)]
    | call text callee given chained =>
      cases callee with
      | member text object property optional => simp only [step, same _ .owner]
      | _ => simp only [step, same _ (.callee (by simp))]

/-! The number of assignments that may be followed does not matter. -/

theorem typeOf_eq_step (assigned : Int → List Char → Traced (Option Denotation)) (offset : Int)
    (e : Expr) : scene.typeOf assigned offset e = scene.step (fun call =>
      match call with
      | .text start text => assigned start text
      | .node offset e => scene.typeOf assigned offset e) (.node offset e) := by
  cases e with
  | call text callee given chained => cases callee <;> rfl
  | _ => rfl

theorem typeOf_congr {assigned other : Int → List Char → Traced (Option Denotation)} {offset : Int}
    (same : ∀ name found, Assignment.nearest? name scene.source offset = some found →
      assigned found.start found.captured = other found.start found.captured) (e : Expr) :
    scene.typeOf assigned offset e = scene.typeOf other offset e := by
  rw [typeOf_eq_step, typeOf_eq_step other]
  refine step_congr ?_
  intro inner hasks
  cases hasks with
  | @object _ _ _ object _ hit => exact typeOf_congr same object
  | @owner _ _ _ _ object => exact typeOf_congr same object
  | @callee _ _ callee _ _ h => exact typeOf_congr same callee
  | assigned hit hf => exact same _ _ hf
termination_by sizeOf e

theorem resolveWithin_eq {hops more : Nat} {offset : Int}
    (h : hopsBefore scene.source offset < hops) (h' : hopsBefore scene.source offset < more)
    (text : List Char) :
    scene.resolveWithin hops offset text = scene.resolveWithin more offset text := by
  induction hops generalizing more offset text with
  | zero => exact absurd h (by omega)
  | succ hops ih =>
    obtain ⟨more, rfl⟩ : ∃ n, more = n + 1 := ⟨more - 1, by omega⟩
    have hsame : ∀ e, scene.typeOf (scene.resolveWithin hops) offset e =
        scene.typeOf (scene.resolveWithin more) offset e := by
      refine typeOf_congr ?_
      intro name found hfound
      have hfewer := Assignment.count_lt_of_nearest? hfound
      exact ih (by simp only [hopsBefore] at h ⊢; omega) (by simp only [hopsBefore] at h' ⊢; omega)
        found.captured
    simp only [resolveWithin, hsame]

theorem resolveExpr_eq (offset : Int) (e : Expr) :
    scene.resolveExpr offset e = scene.typeOf scene.resolve offset e := by
  refine typeOf_congr ?_ e
  intro name found hfound
  exact resolveWithin_eq (Assignment.count_lt_of_nearest? hfound) (Nat.lt_succ_self _)
    found.captured

theorem answer_eq_step (call : Call) : scene.answer call = scene.step scene.answer call := by
  cases call with
  | text offset text => 
    rw [answer, resolve, resolveWithin, step]
    rfl
  | node offset e =>
    rw [answer, resolveExpr_eq, typeOf_eq_step]
    refine step_congr ?_
    intro inner _
    cases inner with
    | text start text => rfl
    | node offset e => exact (resolveExpr_eq offset e).symm

theorem eq_answer {answer : Call → Traced (Option Denotation)}
    (h : ∀ call, answer call = scene.step answer call) : answer = scene.answer := by
  funext call
  induction call using (wellFounded_asks scene).induction with
  | _ call ih => rw [h call, step_congr ih, ← answer_eq_step]

theorem leads_overridden (name : String) (enough : Member → Bool) (m : Member) :
    Override.Leads scene.names.view? name enough [] m (scene.overridden name enough m).value := by
  have registered : ∀ c v, (scene.view c).value = some v → scene.names.isClass c = true :=
    fun _ _ h => Namespace.isClass_of_view? h
  have hfuel : scene.names.classCount < scene.names.classCount + 2 + ([] : List String).length := by
    simp
  exact Override.leads_follow registered name enough List.nodup_nil (by simp) hfuel

/-- Inference ends. Its answers are the only ones that follow from each other step by step, no chain
of questions is endless, and each step rests on the questions it leads to. Along every chain of
questions there are at most as many assignments as semicolons before the first place, each at an
earlier place than the one before. The walks for the views of classes and to overridden methods end
as well. -/
theorem resolve_ends (scene : Scene) :
    (∀ answer : Call → Traced (Option Denotation),
      (∀ call, answer call = scene.step answer call) ↔ answer = scene.answer) ∧
    (WellFounded fun inner call => scene.Asks call inner) ∧
    (∀ (answer other : Call → Traced (Option Denotation)) (call : Call),
      (∀ inner, scene.Asks call inner → answer inner = other inner) →
        scene.step answer call = scene.step other call) ∧
    (∀ (call : Call) (calls : List Call), List.IsChain scene.Asks (call :: calls) →
      (calls.filter Call.isText).length ≤ (scene.source.take call.offset.toNat).count ';' ∧
      (call.offset :: (calls.filter Call.isText).map Call.offset).Pairwise (· > ·)) ∧
    (∀ name, scene.names.Viewed [] name (scene.names.view name)) ∧
    ∀ (name : String) (enough : Member → Bool) (m : Member),
      Override.Leads scene.names.view? name enough [] m (scene.overridden name enough m).value := by
  refine ⟨?_, wellFounded_asks scene, fun _ _ _ => step_congr, fun _ _ => assignments_of_isChain,
    Namespace.viewed_view scene.names, leads_overridden⟩
  intro answer
  constructor
  · exact eq_answer
  · rintro rfl
    exact answer_eq_step

-- two assignments that refer to each other, where every text is read as a name
example : ((⟨.empty [], fun text => pure (some (.identifier text)),
    "a = b; b = a; ".toList⟩ : Scene).resolve 14 "a".toList).value.isNone = true := by
  decide +kernel

end Scene
end ScriptSense
