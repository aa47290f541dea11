import Mathlib
import ScriptSense.Feature.Completion
import ScriptSense.Proofs.Namespace.History
import ScriptSense.Proofs.Script.Agreement

/-! What is offered after a package and a dot. The package is searched backward from the dot, read,
and looked up among the classes. Where it begins the text or stands after a blank, its children are
offered; only after the keyword `new` nothing is, as the keyword is taken along and what is then
read is the construction of a class that does not exist. -/
namespace ScriptSense

namespace Text

theorem trim_of_ends {t : List Char} (hfirst : ∀ c, t.head? = some c → isBlank c = false)
    (hlast : ∀ c, t.getLast? = some c → isBlank c = false) : trim t = t := by
  have hdrop : ∀ u : List Char, (∀ c, u.head? = some c → isBlank c = false) →
      u.dropWhile isBlank = u := by
    intro u hu
    cases u with
    | nil => rfl
    | cons c cs => simp [hu c rfl]
  rw [trim, hdrop t hfirst, hdrop t.reverse, List.reverse_reverse]
  intro c hc
  rw [List.head?_reverse] at hc
  exact hlast c hc

end Text

namespace Script
namespace Phrase

open Backward

def path (first : String) (rest : List String) : Phrase :=
  rest.foldl (fun object name => member object name false) (identifier first)

theorem path_concat (first : String) (rest : List String) (name : String) :
    path first (rest ++ [name]) = member (path first rest) name false := by
  rw [path, List.foldl_append]
  rfl

theorem print_path_concat (first : String) (rest : List String) (name : String) :
    (path first (rest ++ [name])).print = (path first rest).print ++ "." ++ name := by
  rw [path_concat]
  rfl

variable {first : String} {rest : List String}

theorem isDotted_path : (path first rest).isDotted = true := by
  induction rest using List.reverseRecOn with
  | nil => rfl
  | append_singleton rest name ih => simp [path_concat, isDotted, ih]

theorem startsNew_path : (path first rest).startsNew = false := by
  induction rest using List.reverseRecOn with
  | nil => rfl
  | append_singleton rest name ih => rw [path_concat, startsNew, ih]

theorem isWellFormed_path (hf : isValueName first = true)
    (hr : ∀ s ∈ rest, Text.isIdentifier s.toList = true) :
    (path first rest).isWellFormed = true := by
  induction rest using List.reverseRecOn with
  | nil => exact hf
  | append_singleton rest name ih =>
    have hrest := ih fun s hs => hr s (by simp [hs])
    have hname := isPropertyName_of_isIdentifier (hr name (by simp))
    simp [path_concat, isWellFormed, hrest, hname]

theorem isPlain_path (hr : ∀ s ∈ rest, Text.isIdentifier s.toList = true) :
    (path first rest).isPlain = true := by
  induction rest using List.reverseRecOn with
  | nil => rfl
  | append_singleton rest name ih =>
    have hrest := ih fun s hs => hr s (by simp [hs])
    have hdollar : '$' ∉ name.toList := by
      intro hmem
      have := isNameChar_of_mem_names (i := name.toList) (hr name (by simp)) hmem
      exact absurd this (by decide)
    simp [path_concat, isPlain, hrest, hdollar]

theorem print_path {name : String} (h : Text.segments name = first :: rest) :
    (path first rest).print = name := by
  have hdot : ∀ s ∈ first :: rest, '.' ∉ s.toList := by
    intro s hs
    rw [← h] at hs
    exact Text.dot_notMem_of_mem_segments hs
  suffices hsegments : ∀ more, (∀ s ∈ more, '.' ∉ s.toList) →
      Text.segments (path first more).print = first :: more by
    apply Text.segments_injective
    rw [h]
    exact hsegments rest fun s hs => hdot s (List.mem_cons_of_mem first hs)
  intro more hmore
  induction more using List.reverseRecOn with
  | nil =>
    change Text.segments first = [first]
    simp [Text.segments, Text.splitAt_of_notMem (hdot first (by simp))]
  | append_singleton more name ih =>
    rw [print_path_concat, Text.segments_below _ (hmore name (by simp)),
      ih fun s hs => hmore s (by simp [hs])]
    rfl

theorem tree_path (first : String) (rest : List String) :
    (path first rest).tree = .dotted (first :: rest) := by
  induction rest using List.reverseRecOn with
  | nil => rfl
  | append_singleton rest name ih =>
    rw [path_concat, tree, ih, ← List.cons_append, Node.dotted_concat (by simp)]

theorem print_path_eq_intercalate (first : String) (rest : List String) :
    (path first rest).print = ".".intercalate (first :: rest) := by
  rw [← text_tree, tree_path, Node.text_dotted]

theorem isPart_or_dot_of_mem_path (hf : isValueName first = true)
    (hr : ∀ s ∈ rest, Text.isIdentifier s.toList = true) {c : Char}
    (hc : c ∈ (path first rest).print.toList) : isPart c = true ∨ c = '.' := by
  induction rest using List.reverseRecOn with
  | nil => exact Or.inl (isPart_of_mem (isPropertyName_of_isValueName hf) hc)
  | append_singleton rest name ih =>
    have hname := isPropertyName_of_isIdentifier (hr name (by simp))
    simp only [print_path_concat, String.toList_append, List.mem_append] at hc
    rcases hc with (hc | hc) | hc
    · exact ih (fun s hs => hr s (by simp [hs])) hc
    · exact Or.inr (by simpa using hc)
    · exact Or.inl (isPart_of_mem hname hc)

theorem trim_append_path (hf : isValueName first = true)
    (hr : ∀ s ∈ rest, Text.isIdentifier s.toList = true) {front : List Char}
    (hfront : ∀ c, front.head? = some c → Text.isBlank c = false) :
    Text.trim (front ++ (path first rest).print.toList) =
      front ++ (path first rest).print.toList := by
  have hpart : ∀ c ∈ (path first rest).print.toList, Text.isBlank c = false := by
    intro c hc
    rcases isPart_or_dot_of_mem_path hf hr hc with h | rfl
    · exact isBlank_of_isPart h
    · decide
  have hne := print_ne_nil (isWellFormed_path hf hr)
  apply Text.trim_of_ends
  · intro c hc
    cases front with
    | nil => exact hpart c (List.mem_of_head? hc)
    | cons d ds => exact hfront c hc
  · intro c hc
    rw [List.getLast?_append_of_ne_nil _ hne] at hc
    exact hpart c (List.mem_of_getLast? hc)

theorem trim_path (hf : isValueName first = true)
    (hr : ∀ s ∈ rest, Text.isIdentifier s.toList = true) :
    Text.trim (path first rest).print.toList = (path first rest).print.toList := by
  simpa using @trim_append_path first rest hf hr [] (by simp)

theorem expression?_path (hf : isValueName first = true)
    (hr : ∀ s ∈ rest, Text.isIdentifier s.toList = true) {left : List Char}
    (hedge : Scan.Edge left.reverse) :
    Scan.expression? (left ++ (path first rest).print.toList).reverse =
      some ((newKeyword? left.reverse).getD left.reverse) := by
  obtain ⟨t, ht, hprint⟩ := exists_chain (path first rest) (isWellFormed_path hf hr)
    (isPlain_path hr)
  rw [startsNew_path] at hprint
  rw [List.reverse_append, hprint]
  exact Scan.expression?_of_chain ht hedge

end Phrase
end Script

namespace Scan

open Backward

theorem edge_of_blank {rest : List Char}
    (h : ∀ c, rest.head? = some c → Text.isBlank c = true) : Edge rest := by
  cases rest with
  | nil => exact ⟨by simp, rfl⟩
  | cons c cs =>
    have hpart : Script.Phrase.isPart c = false := Script.Phrase.not_isPart_of_isBlank (h c rfl)
    have hname : Text.isNameChar c = false := by
      rw [Script.Phrase.isPart, Bool.or_eq_false_iff] at hpart
      exact hpart.1
    refine ⟨by simp [hname], ?_⟩
    rw [memberMark?_eq_none]
    have hdot : c ≠ '.' := by
      rintro rfl
      exact absurd (h _ rfl) (by decide)
    simp [Ne.symm hdot]

theorem newKeyword?_eq_none_of {left : List Char}
    (h : ∀ start, ¬ NewAt left start left.length) : newKeyword? left.reverse = none := by
  have hbefore : before left left.length = left.reverse := by rw [before, List.take_length]
  cases hk : newKeyword? left.reverse with
  | none => rfl
  | some rest =>
    rw [← hbefore] at hk
    exact absurd ((newKeyword?_before le_rfl).mp hk).1 (h rest.length)

theorem newKeyword?_of_newAt {left : List Char} {start : Nat}
    (h : NewAt left start left.length) :
    newKeyword? left.reverse = some (before left start) := by
  have hbefore : before left left.length = left.reverse := by rw [before, List.take_length]
  have hlength : (before left start).length = start := by
    rw [before_length]
    exact Nat.min_eq_left h.lt.le
  rw [← hbefore]
  exact (newKeyword?_before le_rfl).mpr ⟨hlength.symm ▸ h, by rw [hlength]⟩

theorem at?_of_expression? {t rest : List Char} (ht : t ≠ [])
    (h : expression? t.reverse = some rest) (more : List Char) :
    at? (t ++ more) t.length = some ⟨rest.length, t.length, t.drop rest.length⟩ := by
  have hpos := List.length_pos_iff.mpr ht
  have hrange : 0 < (t.length : Int) ∧ (t.length : Int) ≤ (t ++ more).length := by
    rw [List.length_append]
    omega
  rw [at?, if_pos hrange, Int.toNat_natCast, before, List.take_left, h]
  rfl

end Scan

theorem Matcher.inWindow_dot {t : List Char} (h : Backward.Solid t.reverse) {window : Int}
    (hw : 1 ≤ window) : inWindow (t ++ ['.']) (t ++ ['.']).length window Backward.receiverTail? =
      some (t.length : Int) := by
  obtain ⟨c, more, hc, hdot, hmark⟩ := h
  have hlast : min ((t ++ ['.']).length : Int).toNat (t ++ ['.']).length = t.length + 1 := by
    simp
  have hfirst : min ((t ++ ['.']).length - window).toNat (t ++ ['.']).length ≤ t.length := by
    simp only [List.length_append, List.length_singleton]
    omega
  have hbefore : Backward.before (t ++ ['.']) (t.length + 1) = '.' :: c :: more := by
    have hlength : t.length + 1 = (t ++ ['.']).length := by simp
    rw [Backward.before, hlength, List.take_length, List.reverse_append, hc]
    rfl
  have htail : ∀ n, 1 ≤ n → Backward.receiverTail? n ('.' :: c :: more) = some (c :: more) := by
    intro n hn
    have hskip : Backward.skipBlanks ('.' :: c :: more) = '.' :: c :: more := by
      simp [Backward.skipBlanks, show Text.isBlank '.' = false by decide]
    simp [Backward.receiverTail?, show Text.isNameChar '.' = false by decide, hskip, hn, hdot,
      hmark]
  simp only [inWindow, hlast]
  rw [if_pos (by omega), hbefore, htail _ (by omega), ← hc]
  simp

namespace Scene

/-- What is offered at the end of a text. -/
def completeAtEnd (names : Namespace) (parser : Parser) (window : Int) (source : List Char) :
    Option (List Completion) :=
  ((Scene.mk names parser source).complete window source.length).value

/-- What is offered after a dot, from what stands before it as it is read. -/
def offered (scene : Scene) (offset : Int) (receiver : Option Expr) : Option (List Completion) :=
  receiver.bind fun e => (scene.resolveExpr offset e).value.bind fun d => (scene.selectable d).value

theorem resolve_value (scene : Scene) (offset : Int) (text : List Char) :
    (scene.resolve offset text).value =
      (scene.parser (String.ofList (Text.trim text))).value.bind fun e =>
        (scene.resolveExpr offset e).value := by
  rw [resolve, resolveWithin, Traced.bind_value]
  cases (scene.parser (String.ofList (Text.trim text))).value with
  | none => rfl
  | some e =>
    rw [Option.bind_some, resolveExpr, Traced.bind_value]
    cases (typeOf scene (scene.resolveWithin (hopsBefore scene.source offset)) offset e).value <;> rfl

/-- A name of the namespace stands for itself wherever it is read as a dotted name. -/
theorem resolveExpr_of_named {scene : Scene} {e : Expr} {hit : Denotation} {name : String}
    (hdotted : e.dottedName? = some name) (htext : e.text = name) (h : scene.named? name = some hit)
    (offset : Int) : (scene.resolveExpr offset e).value = some hit := by
  have hhit : scene.namespaceHit? e = some hit := by rw [namespaceHit?, htext, h, Option.some_or]
  rw [resolveExpr]
  cases e with
  | identifier name =>
    rw [typeOf, hhit]
    rfl
  | member text object property optional =>
    rw [typeOf, hhit]
    rfl
  | this | super | call | construct => cases hdotted

theorem completeAtEnd_of_scan (names : Namespace) (parser : Parser) {window : Int} (hw : 1 ≤ window)
    {t rest : List Char} (ht : Backward.Solid t.reverse)
    (hscan : Scan.expression? t.reverse = some rest) :
    completeAtEnd names parser window (t ++ ['.']) =
      offered ⟨names, parser, t ++ ['.']⟩ t.length
        (parser (String.ofList (Text.trim (t.drop rest.length)))).value := by
  have hne : t ≠ [] := by
    rintro rfl
    obtain ⟨c, more, hc, -⟩ := ht
    cases hc
  generalize hs : Scene.mk names parser (t ++ ['.']) = scene
  have hsource : scene.source = t ++ ['.'] := by rw [← hs]
  have hparser : scene.parser = parser := by rw [← hs]
  rw [completeAtEnd, hs, complete, hsource, Matcher.inWindow_dot ht hw]
  dsimp only
  rw [Scan.at?_of_expression? hne hscan]
  simp only [Traced.bind_value, resolve_value, hparser, offered]
  cases (parser (String.ofList (Text.trim (t.drop rest.length)))).value with
  | none => rfl
  | some e =>
    simp only [Option.bind_some]
    cases (scene.resolveExpr t.length e).value <;> rfl

end Scene

/-- Whether a name is read as a dotted name of that text. -/
def Parser.ReadsName (parser : Parser) (name : String) : Prop :=
  ∃ e, (parser name).value = some e ∧ e.text = name ∧ e.dottedName? = some name

namespace Parser

open Script

theorem ofReader_value {reader : SyntaxReader} {text : String} {e : Option Expr}
    (h : parseWith reader text.toList = .ok e) : (ofReader reader text).value = e := by
  rw [ofReader, h]
  rfl

variable {reader : SyntaxReader} {first : String} {rest : List String}

theorem readsName_path (hf : Phrase.isValueName first = true)
    (hr : ∀ s ∈ rest, Text.isIdentifier s.toList = true)
    (h : reader.Obeys (Phrase.path first rest).print.toList) :
    (ofReader reader).ReadsName (Phrase.path first rest).print := by
  refine ⟨(Phrase.path first rest).node,
    ofReader_value (Phrase.parseWith_print (Phrase.isWellFormed_path hf hr) h),
    Phrase.text_node _, ?_⟩
  rw [Phrase.dottedName?_node, Phrase.isDotted_path, if_pos rfl]

theorem ofReader_new_path (hf : Phrase.isValueName first = true)
    (hr : ∀ s ∈ rest, Text.isIdentifier s.toList = true) {blanks : String} (hb : blanks ≠ "")
    (hgap : Node.IsGap blanks)
    (h : reader.Obeys ("new" ++ blanks ++ (Phrase.path first rest).print).toList) :
    (ofReader reader ("new" ++ blanks ++ (Phrase.path first rest).print)).value =
      some (.construct ("new" ++ blanks ++ (Phrase.path first rest).print)
        (Phrase.path first rest).print []) := by
  rw [Phrase.print_path_eq_intercalate] at h ⊢
  refine ofReader_value (parseWith_new (by simp) ?_ ?_ hb hgap h)
  · intro s hs
    obtain rfl : first = s := Option.some.inj hs
    exact Node.isName_of_isValueName hf
  · intro s hs
    rcases List.mem_cons.mp hs with rfl | hs
    · exact Phrase.isPropertyName_of_isValueName hf
    · exact Phrase.isPropertyName_of_isIdentifier (hr s hs)

end Parser

namespace Namespace

/-- A package whose name can be written as an expression. -/
structure WrittenPackage (names : Namespace) (package : String) : Prop where
  known : names.containsPath package = true
  notClass : names.isClass package = false
  identifiers : ∀ s ∈ Text.segments package, Text.isIdentifier s.toList = true
  first : ∀ s, (Text.segments package).head? = some s → Script.Phrase.isValueName s = true

namespace WrittenPackage

variable {names : Namespace} {package : String}

theorem exists_lookup (h : WrittenPackage names package) :
    ∃ children, names.lookup package = some (.package children) := by
  obtain ⟨t, ht⟩ := Option.isSome_iff_exists.mp h.known
  have hrecord : names.record? package = none := by
    have hclass := h.notClass
    rw [isClass, Option.isSome_eq_false_iff, Option.isNone_iff_eq_none] at hclass
    exact hclass
  exact ⟨childrenOf t, lookup_of_find? ht hrecord⟩

theorem exists_path (h : WrittenPackage names package) :
    ∃ first rest, Script.Phrase.isValueName first = true ∧
      (∀ s ∈ rest, Text.isIdentifier s.toList = true) ∧
      (Script.Phrase.path first rest).print = package := by
  cases hs : Text.segments package with
  | nil => exact absurd hs (Text.segments_ne_nil package)
  | cons first rest =>
    refine ⟨first, rest, h.first first (by rw [hs]; rfl), ?_, Script.Phrase.print_path hs⟩
    intro s hmem
    exact h.identifiers s (by rw [hs]; exact List.mem_cons_of_mem first hmem)

end WrittenPackage
end Namespace

namespace Scene

open Script

section

variable {names : Namespace} {window : Int} {first : String} {rest : List String}
  {left : List Char}

theorem solid_path (hf : Phrase.isValueName first = true)
    (hr : ∀ s ∈ rest, Text.isIdentifier s.toList = true) (left : List Char) :
    Backward.Solid (left ++ (Phrase.path first rest).print.toList).reverse := by
  rw [List.reverse_append]
  exact (Phrase.solid_print _ (Phrase.isWellFormed_path hf hr)).append _

theorem completeAtEnd_path (hw : 1 ≤ window) (hf : Phrase.isValueName first = true)
    (hr : ∀ s ∈ rest, Text.isIdentifier s.toList = true) (hedge : Scan.Edge left.reverse)
    (hnew : ∀ start, ¬ Scan.NewAt left start left.length) {children : List (String × Bool)}
    (hlookup : names.lookup (Phrase.path first rest).print = some (.package children))
    {parser : Parser} (hread : parser.ReadsName (Phrase.path first rest).print) :
    completeAtEnd names parser window (left ++ (Phrase.path first rest).print.toList ++ ['.']) =
      some (Completion.ofPackage (Phrase.path first rest).print children) := by
  have hwell := Phrase.isWellFormed_path hf hr
  have hscan := Phrase.expression?_path hf hr hedge
  rw [Scan.newKeyword?_eq_none_of hnew, Option.getD_none] at hscan
  obtain ⟨e, hvalue, htext, hdotted⟩ := hread
  generalize hsource : left ++ (Phrase.path first rest).print.toList ++ ['.'] = source
  have hnamed : (Scene.mk names parser source).named? (Phrase.path first rest).print =
      some (.package (Phrase.path first rest).print) := by
    have hne : (Phrase.path first rest).print ≠ "" := by
      intro he
      exact Phrase.print_ne_nil hwell (by rw [he]; rfl)
    simp [named?, hne, hlookup]
  rw [← hsource, completeAtEnd_of_scan names parser hw (solid_path hf hr left) hscan,
    List.length_reverse, List.drop_left, Phrase.trim_path hf hr, String.ofList_toList, hvalue,
    hsource, offered, Option.bind_some, resolveExpr_of_named hdotted htext hnamed]
  simp only [Option.bind_some, selectable, hlookup, Traced.pure_value]

theorem completeAtEnd_new_path (hw : 1 ≤ window) (hf : Phrase.isValueName first = true)
    (hr : ∀ s ∈ rest, Text.isIdentifier s.toList = true) (hedge : Scan.Edge left.reverse)
    {start : Nat} (hnew : Scan.NewAt left start left.length) (parser : Parser) :
    completeAtEnd names parser window (left ++ (Phrase.path first rest).print.toList ++ ['.']) =
      offered ⟨names, parser, left ++ (Phrase.path first rest).print.toList ++ ['.']⟩
        (left ++ (Phrase.path first rest).print.toList).length
        (parser (String.ofList (left.drop start ++ (Phrase.path first rest).print.toList))).value := by
  have hscan := Phrase.expression?_path hf hr hedge
  rw [Scan.newKeyword?_of_newAt hnew, Option.getD_some] at hscan
  obtain ⟨blanks, -, -, hslice⟩ := hnew.word
  rw [Scan.slice, List.take_length] at hslice
  have hword : ∀ c, (['n', 'e', 'w'] ++ blanks).head? = some c → Text.isBlank c = false := by
    intro c hc
    obtain rfl : 'n' = c := Option.some.inj hc
    decide
  have hlength : (Backward.before left start).length = start := by
    rw [Backward.before_length]
    exact Nat.min_eq_left hnew.lt.le
  rw [completeAtEnd_of_scan names parser hw (solid_path hf hr left) hscan, hlength,
    List.drop_append_of_le_length hnew.lt.le, hslice, Phrase.trim_append_path hf hr hword]

theorem offered_construct {scene : Scene} {package text : String} {given : List String}
    (htrim : Text.trim package.toList = package.toList) (h : scene.names.isClass package = false)
    (offset : Int) : scene.offered offset (some (.construct text package given)) = none := by
  rw [offered, Option.bind_some, resolveExpr, typeOf, htrim, String.ofList_toList]
  simp [h]

end

/-- After a package and a dot its children are offered, each by its name and in order, whatever text
ends in a blank before the package; but where that text ends in the keyword `new`, the keyword is
read along with the package, and nothing is offered where that is a construction or nothing at all.
-/
theorem completeAtEnd_package (names : Namespace) (parser : Parser) (window : Int)
    (package : String) (left : List Char) (hw : 1 ≤ window) (hp : names.WrittenPackage package)
    (hread : parser.ReadsName package)
    (hleft : ∀ c, left.getLast? = some c → Text.isBlank c = true) :
    ∃ children, names.lookup package = some (.package children) ∧
      ((∀ start, ¬ Scan.NewAt left start left.length) →
        completeAtEnd names parser window (left ++ package.toList ++ ['.']) =
          some (children.map fun child => {
            label := child.1
            kind := if child.2 then .klass else .package
            detail := some (package ++ "." ++ child.1)
            documentation := none })) ∧
      ∀ start, Scan.NewAt left start left.length →
        let receiver := (parser (String.ofList (left.drop start ++ package.toList))).value
        completeAtEnd names parser window (left ++ package.toList ++ ['.']) =
          offered ⟨names, parser, left ++ package.toList ++ ['.']⟩ (left ++ package.toList).length
            receiver ∧
        ((∀ e, receiver = some e → ∃ text given, e = .construct text package given) →
          completeAtEnd names parser window (left ++ package.toList ++ ['.']) = none) := by
  obtain ⟨children, hlookup⟩ := hp.exists_lookup
  obtain ⟨first, rest, hf, hr, rfl⟩ := hp.exists_path
  have hedge : Scan.Edge left.reverse := by
    apply Scan.edge_of_blank
    intro c hc
    rw [List.head?_reverse] at hc
    exact hleft c hc
  refine ⟨children, hlookup, ?_, ?_⟩
  · intro hnew
    exact completeAtEnd_path hw hf hr hedge hnew hlookup hread
  · intro start hnew receiver
    have hoffered := @completeAtEnd_new_path names window first rest left hw hf hr hedge start hnew
      parser
    refine ⟨hoffered, ?_⟩
    intro hconstruct
    rw [hoffered]
    change offered _ _ receiver = none
    cases hreceiver : receiver with
    | none => rfl
    | some e =>
      obtain ⟨text, given, rfl⟩ := hconstruct e hreceiver
      exact offered_construct (Phrase.trim_path hf hr) hp.notClass _

def widgets : Namespace :=
  (Database.ofHistory ["Object"]
    [.ingest (.bare "ui.Form" none), .ingest (.bare "ui.list.Row" none)]).names

theorem widgets_package : widgets.WrittenPackage "ui" where
  known := by decide +kernel
  notClass := by decide +kernel
  identifiers := by decide +kernel
  first := by decide +kernel

def aware (name : String) : SyntaxReader :=
  .knowing [.leaf "identifier" name, .bareConstruction " " (.leaf "identifier" name)]

theorem aware_reads {name : String} (h : Phrase.isValueName name = true) :
    (Parser.ofReader (aware name)).ReadsName name ∧
    (Parser.ofReader (aware name) ("new" ++ " " ++ name)).value =
      some (.construct ("new" ++ " " ++ name) name []) := by
  have hall : ∀ n ∈ [Node.leaf "identifier" name,
      .bareConstruction " " (.leaf "identifier" name)], n.IsExpression .whole := by
    simp only [List.mem_cons, List.not_mem_nil, or_false, forall_eq_or_imp, forall_eq]
    exact ⟨.identifier (Node.isName_of_isValueName h),
      .bareConstruction (.identifier (Node.isName_of_isValueName h)) Node.isGap_blank (by decide)⟩
  have hname : (aware name).Obeys name.toList :=
    SyntaxReader.obeys_knowing (n := .leaf "identifier" name) hall (by simp)
  have hnew : (aware name).Obeys ("new" ++ " " ++ name).toList :=
    SyntaxReader.obeys_knowing (n := .bareConstruction " " (.leaf "identifier" name)) hall (by simp)
  exact ⟨@Parser.readsName_path _ name [] h (by simp) hname,
    @Parser.ofReader_new_path _ name [] h (by simp) " " (by decide) Node.isGap_blank hnew⟩

theorem completeAtEnd_widgets : widgets.WrittenPackage "ui" ∧
    (Parser.ofReader (aware "ui")).ReadsName "ui" ∧
    completeAtEnd widgets (.ofReader (aware "ui")) 512 "x = renew ui.".toList =
      some [⟨"Form", .klass, some "ui.Form", none⟩, ⟨"list", .package, some "ui.list", none⟩] ∧
    completeAtEnd widgets (.ofReader (aware "ui")) 512 "x = new ui.".toList = none := by
  have hlookup : widgets.lookup "ui" = some (.package [("Form", true), ("list", false)]) := by
    cbv
  have hblank : Text.isBlank ' ' = true := by decide
  have hname : Text.isNameChar ' ' = false := by decide
  have hother : ∀ start, ¬ Scan.NewAt "x = renew ".toList start "x = renew ".toList.length := by
    intro start hat
    have hnone : Backward.newKeyword? "x = renew ".toList.reverse = none := by decide
    exact absurd (hnone.symm.trans (Scan.newKeyword?_of_newAt hat)) (by simp)
  have hnew : Scan.NewAt "x = new ".toList 4 "x = new ".toList.length :=
    ⟨⟨[' '], by decide, by simp [hblank], by decide⟩, by simp [hname]⟩
  obtain ⟨hread, hconstruct⟩ := @aware_reads "ui" (by decide)
  obtain ⟨children, hchildren, hoffered, -⟩ := completeAtEnd_package widgets _ 512 "ui"
    "x = renew ".toList (by decide) widgets_package hread (by simp [hblank])
  obtain ⟨-, -, -, hafter⟩ := completeAtEnd_package widgets _ 512 "ui"
    "x = new ".toList (by decide) widgets_package hread (by simp [hblank])
  obtain rfl : [("Form", true), ("list", false)] = children := by
    simpa using hlookup.symm.trans hchildren
  refine ⟨widgets_package, hread, hoffered hother, (hafter 4 hnew).2 ?_⟩
  intro e he
  exact ⟨_, [], Option.some.inj (he.symm.trans hconstruct)⟩

/-- After `new`, the class of a package is not offered. -/
theorem completeAtEnd_new_not_offered :
    let names := (Database.ofHistory ["Object"] [.ingest (.bare "a.C" none)]).names
    let parser := Parser.ofReader (aware "a")
    names.WrittenPackage "a" ∧ parser.ReadsName "a" ∧
      names.lookup "a" = some (.package [("C", true)]) ∧
      completeAtEnd names parser 512 ("new ".toList ++ "a".toList ++ ['.']) ≠
        some [⟨"C", .klass, some "a.C", none⟩] := by
  intro names parser
  obtain ⟨hread, hconstruct⟩ := @aware_reads "a" (by decide)
  have hclass : names.isClass "a" = false := by decide +kernel
  have hblank : Text.isBlank ' ' = true := by decide
  have hnew : Scan.NewAt "new ".toList 0 "new ".toList.length :=
    ⟨⟨[' '], by decide, by simp [hblank], by decide⟩, by simp⟩
  have hedge : Scan.Edge "new ".toList.reverse := Scan.edge_of_blank (by simp [hblank])
  have hnone : completeAtEnd names parser 512 ("new ".toList ++ "a".toList ++ ['.']) = none := by
    have hoffered := @completeAtEnd_new_path names 512 "a" [] "new ".toList (by decide) (by decide)
      (by simp) hedge 0 hnew parser
    exact hoffered.trans (hconstruct ▸ offered_construct (by decide) hclass _)
  refine ⟨⟨by decide +kernel, hclass, by decide +kernel, by decide +kernel⟩, hread, by cbv, ?_⟩
  rw [hnone]
  simp

end Scene
end ScriptSense
