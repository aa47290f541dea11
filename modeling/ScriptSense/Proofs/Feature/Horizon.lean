import ScriptSense.Feature.Completion
import ScriptSense.Feature.Signature
import ScriptSense.Project.Basic
import ScriptSense.Proofs.Analysis.Nesting
import ScriptSense.Proofs.Namespace.History
import ScriptSense.Proofs.Source.Matcher

/-! What stands behind the cursor. Completions and signatures are found by looking backward, so two
sources that agree up to the cursor have the same ones as long as they define the same class: the
definition of the class is the only thing that is looked for in the whole source. -/
namespace ScriptSense

namespace Backward

theorem length_congr {s t : List Char} {n : Nat} (h : s.take n = t.take n) :
    min n s.length = min n t.length := by
  have hl := congrArg List.length h
  rwa [List.length_take, List.length_take] at hl

end Backward

namespace Matcher

variable {find : Nat → List Char → Option (List Char)} {position window dot : Int}

theorem inWindow_of_neg (hzero : ∀ behind, find 0 behind = none) (source : List Char)
    (hw : window < 0) : inWindow source position window find = none := by
  simp only [inWindow]
  split
  · rename_i hle
    have hempty : min position.toNat source.length -
        min (position - window).toNat source.length = 0 := by omega
    rw [hempty, hzero, Option.map_none]
  · rfl

theorem inWindow_congr (hzero : ∀ behind, find 0 behind = none) {s t : List Char}
    (h : s.take position.toNat = t.take position.toNat) :
    inWindow s position window find = inWindow t position window find := by
  by_cases hw : 0 ≤ window
  · have hlast := Backward.length_congr h
    have hfirst : min (position - window).toNat s.length =
        min (position - window).toNat t.length := by omega
    have hbefore : Backward.before s (min position.toNat t.length) =
        Backward.before t (min position.toNat t.length) :=
      Backward.before_congr h (Nat.min_le_left _ _)
    simp only [inWindow, hlast, hfirst, hbefore]
  · rw [inWindow_of_neg hzero s (by omega), inWindow_of_neg hzero t (by omega)]

theorem lt_of_inWindow {source : List Char}
    (hshrink : ∀ n behind rest, find n behind = some rest → rest.length < behind.length)
    (h : inWindow source position window find = some dot) : dot < position := by
  simp only [inWindow] at h
  split at h
  · obtain ⟨rest, hrest, rfl⟩ := Option.map_eq_some_iff.mp h
    have hlt := hshrink _ _ _ hrest
    rw [Backward.before_length] at hlt
    omega
  · cases h

end Matcher

theorem Scan.at?_congr {s t : List Char} {place position : Int}
    (h : s.take place.toNat = t.take place.toNat) (hp : position ≤ place) :
    Scan.at? s position = Scan.at? t position := by
  have hle : position.toNat ≤ place.toNat := Int.toNat_le_toNat hp
  have hlength := Backward.length_congr h
  have hrange : (0 < position ∧ position ≤ s.length) ↔ (0 < position ∧ position ≤ t.length) := by
    omega
  simp only [Scan.at?, hrange, Backward.before_congr h hle, Backward.take_congr h hle]

namespace OpenCall

theorem bracket_lt_of_walk {depth commas : Nat} {behind : List Char} {call : OpenCall}
    (h : walk depth commas behind = some call) : call.bracket < behind.length := by
  induction behind generalizing depth commas with
  | nil => cases h
  | cons c behind ih =>
    have hstep : ∀ {d k : Nat}, walk d k behind = some call →
        call.bracket < (c :: behind).length := fun hw => Nat.lt_succ_of_lt (ih hw)
    simp only [walk] at h
    split at h
    · exact hstep h
    · split at h
      · split at h
        · exact hstep h
        · split at h
          · cases h
            exact Nat.lt_succ_self _
          · exact hstep h
      · split at h
        · exact hstep h
        · split at h
          · cases h
          · exact hstep h

theorem bracket_lt {source : List Char} {cursor : Int} {call : OpenCall}
    (h : find? source cursor = some call) : (call.bracket : Int) < cursor := by
  have hlt := bracket_lt_of_walk h
  rw [Backward.before_length] at hlt
  omega

end OpenCall

namespace Scene

/-- Two scenes with the same classes and the same way to read expressions, whose sources agree up to
a place and define the same class. -/
structure SameUpTo (place : Int) (a b : Scene) : Prop where
  names : a.names = b.names
  parser : a.parser = b.parser
  header : a.header? = b.header?
  source : a.source.take place.toNat = b.source.take place.toNat

namespace SameUpTo

variable {a b : Scene} {place : Int}

theorem view (h : SameUpTo place a b) : a.view = b.view := by
  funext name
  simp only [Scene.view, h.names]

theorem record (h : SameUpTo place a b) : a.record = b.record := by
  funext name
  simp only [Scene.record, h.names]

theorem overridden (h : SameUpTo place a b) : a.overridden = b.overridden := by
  funext name enough m
  simp only [Scene.overridden, h.view, h.names]

theorem method (h : SameUpTo place a b) : a.method = b.method := by
  funext className name
  simp only [Scene.method, h.view, h.names]

theorem memberType (h : SameUpTo place a b) : a.memberType = b.memberType := by
  funext owner name
  simp only [Scene.memberType, h.view]

theorem namespaceHit? (h : SameUpTo place a b) : a.namespaceHit? = b.namespaceHit? := by
  funext e
  have hnamed : a.named? = b.named? := by
    funext name
    simp only [named?, h.names]
  simp only [Scene.namespaceHit?, hnamed]

theorem parameter (h : SameUpTo place a b) : a.parameter = b.parameter := by
  funext offset name
  simp only [Scene.parameter, h.header, h.view, h.overridden]

theorem selectable (h : SameUpTo place a b) : a.selectable = b.selectable := by
  funext d
  simp only [Scene.selectable, h.names, h.view]

theorem nearest? (h : SameUpTo place a b) {offset : Int} (ho : offset ≤ place) (name : List Char) :
    Assignment.nearest? name a.source offset = Assignment.nearest? name b.source offset := by
  have hle : offset.toNat ≤ place.toNat := Int.toNat_le_toNat ho
  simp only [Assignment.nearest?, Occurrence.lastBefore?, Occurrence.upTo,
    Backward.take_congr h.source hle]

/-- A question at a place up to which the sources agree is answered alike from the same answers. -/
theorem step (h : SameUpTo place a b) (answer : Call → Traced (Option Denotation)) {call : Call}
    (hc : call.offset ≤ place) : a.step answer call = b.step answer call := by
  cases call with
  | text offset text => simp only [Scene.step, h.parser]
  | node offset e =>
    have ho : offset ≤ place := hc
    cases e with
    | this => simp only [Scene.step, h.header]
    | super => simp only [Scene.step, h.header]
    | construct text className given => simp only [Scene.step, h.names]
    | identifier name =>
      simp only [Scene.step, h.namespaceHit?, h.nearest? ho, h.parameter]
    | member text object property optional =>
      simp only [Scene.step, h.namespaceHit?, h.memberType]
    | call text callee given chained =>
      cases callee <;> simp only [Scene.step, h.memberType]

/-- Inference never looks beyond the place it is asked about: all the questions that a question
leads to are about that place or an earlier one. -/
theorem answer (h : SameUpTo place a b) (call : Call) (hc : call.offset ≤ place) :
    a.answer call = b.answer call := by
  induction call using (wellFounded_asks a).induction with
  | _ call ih =>
    have hinner : ∀ inner, a.Asks call inner → a.answer inner = b.answer inner := by
      intro inner hasks
      refine ih inner hasks ?_
      cases ht : inner.isText with
      | true => exact (hasks.earlier ht).1.le.trans hc
      | false => exact (hasks.offset_eq ht).le.trans hc
    calc
      a.answer call = a.step a.answer call := answer_eq_step call
      _ = a.step b.answer call := step_congr hinner
      _ = b.step b.answer call := h.step b.answer hc
      _ = b.answer call := (answer_eq_step call).symm

theorem resolve (h : SameUpTo place a b) {offset : Int} (ho : offset ≤ place) (text : List Char) :
    a.resolve offset text = b.resolve offset text := h.answer (.text offset text) ho

theorem resolveExpr (h : SameUpTo place a b) {offset : Int} (ho : offset ≤ place) (e : Expr) :
    a.resolveExpr offset e = b.resolveExpr offset e := h.answer (.node offset e) ho

theorem complete (h : SameUpTo place a b) (window : Int) :
    a.complete window place = b.complete window place := by
  have hwindow : Matcher.inWindow a.source place window Backward.receiverTail? =
      Matcher.inWindow b.source place window Backward.receiverTail? :=
    Matcher.inWindow_congr Backward.receiverTail?_zero h.source
  simp only [Scene.complete, hwindow]
  cases hdot : Matcher.inWindow b.source place window Backward.receiverTail? with
  | none => simp only [h.names]
  | some dot =>
    have hle : dot ≤ place :=
      (Matcher.lt_of_inWindow (fun _ _ _ => Backward.receiverTail?_length) hdot).le
    simp only [Scan.at?_congr h.source hle, h.resolve hle, h.selectable]

theorem called (h : SameUpTo place a b) (site : List Char) :
    a.called place site = b.called place site := by
  simp only [Scene.called, Scene.calledMethod, h.record, h.parser, h.resolveExpr le_rfl, h.method]

theorem signature (h : SameUpTo place a b) : a.signature place = b.signature place := by
  have hopen : OpenCall.find? a.source place = OpenCall.find? b.source place := by
    rw [OpenCall.find?, OpenCall.find?, Backward.before_congr h.source le_rfl]
  simp only [Scene.signature, hopen]
  cases hcall : OpenCall.find? b.source place with
  | none => rfl
  | some call =>
    have hle : (call.bracket : Int) ≤ place := (OpenCall.bracket_lt hcall).le
    simp only [Scan.at?_congr h.source hle, h.called]

end SameUpTo
end Scene

namespace Project

/-- Completions and signatures do not depend on what stands behind the cursor, the definition of the
class apart: the answers are the same, and so is the project afterwards with all that it reports. -/
theorem answers_eq_of_same_before (p : Project) (offset : Int) (s t : List Char)
    (same : s.take offset.toNat = t.take offset.toNat)
    (header : ClassHeader.find? s = ClassHeader.find? t) :
    p.follow ((p.scene s).complete p.settings.analysis.window offset) =
        p.follow ((p.scene t).complete p.settings.analysis.window offset) ∧
      p.follow ((p.scene s).signature offset) = p.follow ((p.scene t).signature offset) := by
  have h : Scene.SameUpTo offset (p.scene s) (p.scene t) := ⟨rfl, rfl, header, same⟩
  rw [h.complete, h.signature]
  exact ⟨rfl, rfl⟩

def caller : ClassRecord :=
  let doc : Doc := { Doc.empty with params := [⟨"x", some "Number", none⟩, ⟨"y", none, none⟩] }
  { ClassRecord.bare "a.B" (some "c.D") with members := [("go", Member.function none doc)] }

def calling : Project :=
  let parser : Parser := .known [("this", .this), ("this.go", .member "this.go" .this "go" false)]
  { fresh ⟨1, ["app"]⟩ .default parser .empty with
    database := .ofHistory ["Object"] [.ingest caller] }

def callBegun : List Char :=
  "qx.Class.define('a.B', \x7bextend: c.D, f: () => this.go(1, this.".toList

def callDone : List Char := callBegun ++ "n) \x7d); b = a.C.".toList

theorem answers_callBegun : callBegun.take 62 = callDone.take 62 ∧
    ClassHeader.find? callBegun = ClassHeader.find? callDone ∧
    calling.follow ((calling.scene callBegun).complete calling.settings.analysis.window 62) =
      calling.follow ((calling.scene callDone).complete calling.settings.analysis.window 62) ∧
    calling.follow ((calling.scene callBegun).signature 62) =
      calling.follow ((calling.scene callDone).signature 62) ∧
    ((calling.scene callBegun).complete calling.settings.analysis.window 62).value =
      some [⟨"go", .method, some "a.B", none⟩] ∧
    ((calling.scene callBegun).signature 62).value.map (·.label) =
      some "go(x: Number, y: any)" := by
  have hsame : callBegun.take (62 : Int).toNat = callDone.take (62 : Int).toNat := by decide +kernel
  have hheader : ClassHeader.find? callBegun = ClassHeader.find? callDone := by decide +kernel
  obtain ⟨hcomplete, hsignature⟩ :=
    answers_eq_of_same_before calling 62 callBegun callDone hsame hheader
  exact ⟨hsame, hheader, hcomplete, hsignature, by decide +kernel, by decide +kernel⟩

end Project
end ScriptSense
