import Mathlib.Data.List.Induction
import ScriptSense.Proofs.Script.SyntaxTree

/-! What the syntax trees of addressable expressions denote, and the tree of a plain text. -/
namespace ScriptSense
namespace Script
namespace Node

theorem lower_identifier {n : Node} (hk : n.kind = "identifier") :
    n.lower = some (.identifier n.text) := by
  simp [lower, hk]

theorem lower_this {n : Node} (hk : n.kind = "this") : n.lower = some .this := by
  simp [lower, hk]

theorem lower_super {n : Node} (hk : n.kind = "super") : n.lower = some .super := by
  simp [lower, hk]

theorem lower_member {n object property : Node} (hk : n.kind = "member_expression")
    (ho : n.child? "object" = some object) (hp : n.child? "property" = some property) :
    n.lower = object.lower.map fun e => .member n.text e property.text n.isOptional := by
  rw [lower, hk]
  split
  case h_5 => split <;> simp_all
  all_goals simp_all

theorem lower_call {n callee : Node} (hk : n.kind = "call_expression")
    (hc : n.child? "function" = some callee) :
    n.lower = callee.lower.map fun e => .call n.text e n.arguments n.isOptional := by
  rw [lower, hk]
  split
  case h_6 => split <;> simp_all
  all_goals simp_all

theorem lower_new {n name : Node} (hk : n.kind = "new_expression")
    (hn : n.child? "constructor" = some name) :
    n.lower = some (.construct n.text name.text n.arguments) := by
  simp [lower, hk, hn]

theorem lower_filling (n : Node) (field : String) : (n.filling field).lower = n.lower := by
  rw [lower, lower]
  rfl

theorem IsExpression.isNamed {l : Level} {n : Node} (h : IsExpression l n) :
    n.isNamed = true ∧ n.kind ≠ "comment" ∧ n.kind ≠ "optional_chain" := by
  induction h with
  | operand _ ih => exact ih
  | identifier | this | super => simp [leaf]
  | access => simp [Node.access]
  | application => simp [Node.application]
  | construction => simp [Node.construction]
  | bareConstruction => simp [Node.bareConstruction]

theorem lower_access {object : Node} (h : object.kind ≠ "optional_chain") (before : String)
    (optional : Bool) (after property : String) :
    (object.access before optional after property).lower = object.lower.map fun e =>
      .member (object.access before optional after property).text e property optional := by
  have hoptional : (object.access before optional after property).isOptional = optional := by
    cases optional <;> simp [access, isOptional, filling, leaf, mark, optionalMark, h]
  have hobject : (object.access before optional after property).child? "object" =
      some (object.filling "object") := rfl
  have hproperty : (object.access before optional after property).child? "property" =
      some ((leaf "property_identifier" property).filling "property") := by
    cases optional <;> rfl
  rw [lower_member rfl hobject hproperty, lower_filling, hoptional]
  rfl

theorem arguments_eq {n : Node} {es : List Node} {g : Given} (h : Listed es g)
    (hes : ∀ e ∈ es, e.isNamed = true ∧ e.kind ≠ "comment")
    (hn : n.child? "arguments" = some g.node) : n.arguments = es.map (·.text) := by
  have hparts : (g.parts.filter (·.isNamed)).filter isSolid = es := by
    clear hn
    induction h with
    | none => rfl
    | last e => simp [hes e (by simp), isSolid]
    | @more _ _ e _ _ _ _ _ _ ih =>
      have he := hes e List.mem_cons_self
      have hsolid : e.isSolid = true := by simp [isSolid, he.2]
      have hmark : (mark ",").isNamed = false := rfl
      have hmore := ih fun e he => hes e (List.mem_cons_of_mem _ he)
      simp [he.1, hsolid, hmark, hmore]
  have hnode : g.node.namedChildren = g.parts.filter (·.isNamed) := by
    simp [namedChildren, Given.node, mark]
  have hkind : g.node.kind = "arguments" := rfl
  simp [arguments, hn, hkind, hnode, hparts]

theorem lower_application {callee : Node} (h : callee.kind ≠ "optional_chain") (before : String)
    (optional : Bool) (after : String) {es : List Node} {g : Given} (hg : Listed es g)
    (hes : ∀ e ∈ es, e.isNamed = true ∧ e.kind ≠ "comment") :
    (callee.application before optional after g).lower = callee.lower.map fun e =>
      .call (callee.application before optional after g).text e (es.map (·.text)) optional := by
  have hoptional : (callee.application before optional after g).isOptional = optional := by
    cases optional <;> simp [application, isOptional, filling, Given.node, optionalMark, h]
  have hcallee : (callee.application before optional after g).child? "function" =
      some (callee.filling "function") := rfl
  have harguments : (callee.application before optional after g).child? "arguments" =
      some g.node := by cases optional <;> rfl
  rw [lower_call rfl hcallee, lower_filling, hoptional, arguments_eq hg hes harguments]

theorem lower_construction (before : String) (constructor : Node) (after : String)
    {es : List Node} {g : Given} (hg : Listed es g)
    (hes : ∀ e ∈ es, e.isNamed = true ∧ e.kind ≠ "comment") :
    (construction before constructor after g).lower =
      some (.construct (construction before constructor after g).text constructor.text
        (es.map (·.text))) := by
  have hconstructor : (construction before constructor after g).child? "constructor" =
      some (constructor.filling "constructor") := rfl
  have harguments : (construction before constructor after g).child? "arguments" =
      some g.node := rfl
  rw [lower_new rfl hconstructor, arguments_eq hg hes harguments]
  rfl

theorem lower_bareConstruction (before : String) (constructor : Node) :
    (bareConstruction before constructor).lower =
      some (.construct (bareConstruction before constructor).text constructor.text []) := by
  have hconstructor : (bareConstruction before constructor).child? "constructor" =
      some (constructor.filling "constructor") := rfl
  rw [lower_new rfl hconstructor]
  rfl

/-- Nodes as they are listed in a plain text, the first one after `before`. -/
def Given.plain (before : String) : List Node → Given
  | [] => ⟨[], ""⟩
  | [e] => ⟨[e], before ++ e.text⟩
  | e :: f :: es =>
    let g := plain " " (f :: es)
    ⟨e :: mark "," :: g.parts, before ++ e.text ++ "," ++ g.text⟩

theorem isGap_empty : IsGap "" := by simp [IsGap]

theorem isGap_blank : IsGap " " := by
  have : isSpace ' ' = true := by decide
  simp [IsGap, this]

theorem listed_plain {before : String} (hb : IsGap before) (es : List Node) :
    Listed es (Given.plain before es) := by
  match es with
  | [] => exact .none isGap_empty
  | [e] => simpa [Given.plain] using Listed.last e hb isGap_empty
  | e :: f :: es =>
    simpa [Given.plain] using Listed.more (e := e) hb isGap_empty (listed_plain isGap_blank (f :: es))

theorem text_plain (before : String) (e : Node) (es : List Node) :
    (Given.plain before (e :: es)).text = before ++ ", ".intercalate ((e :: es).map (·.text)) := by
  match es with
  | [] => simp [Given.plain]
  | f :: es =>
    have ih := text_plain " " f es
    simp only [List.map_cons] at ih
    simp only [Given.plain, ih, List.map_cons, String.intercalate_cons_cons, String.append_assoc]
    congr 2

theorem text_plain_empty (es : List Node) :
    (Given.plain "" es).text = ", ".intercalate (es.map (·.text)) := by
  cases es with
  | nil => rfl
  | cons e es => rw [text_plain, String.empty_append]

def dotted : List String → Node
  | [] => leaf "identifier" ""
  | first :: rest =>
    rest.foldl (fun object name => object.access "" false "" name) (leaf "identifier" first)

theorem dotted_concat {path : List String} (h : path ≠ []) (name : String) :
    dotted (path ++ [name]) = (dotted path).access "" false "" name := by
  obtain ⟨first, rest, rfl⟩ := List.exists_cons_of_ne_nil h
  rw [List.cons_append, dotted, List.foldl_append]
  rfl

theorem text_access (object : Node) (optional : Bool) (property : String) :
    (object.access "" optional "" property).text =
      object.text ++ Phrase.memberMark optional ++ property := by
  simp [access, String.append_assoc]

theorem text_foldl_access (object : Node) (path : List String) :
    (path.foldl (fun object name => object.access "" false "" name) object).text =
      ".".intercalate (object.text :: path) := by
  induction path generalizing object with
  | nil => rw [List.foldl_nil, String.intercalate_singleton]
  | cons name path ih =>
    rw [List.foldl_cons, ih, text_access]
    cases path with
    | nil => simp [Phrase.memberMark, String.intercalate_cons_cons]
    | cons next path => simp [Phrase.memberMark, String.intercalate_cons_cons, String.append_assoc]

theorem text_dotted (path : List String) : (dotted path).text = ".".intercalate path := by
  cases path with
  | nil => rfl
  | cons first rest => exact text_foldl_access (leaf "identifier" first) rest

theorem isName_of_isValueName {word : String} (h : Phrase.isValueName word = true) :
    isName word = true := by
  have hproperty := Phrase.isPropertyName_of_isValueName h
  simp only [Phrase.isValueName, Bool.and_eq_true, Bool.not_eq_true', bne_iff_ne, ne_eq,
    List.contains_eq_mem, decide_eq_false_iff_not] at h
  obtain ⟨⟨⟨-, hreserved⟩, hcontext⟩, hundefined⟩ := h
  simp only [Phrase.contextualWords, List.mem_cons, List.not_mem_nil, not_or] at hcontext
  simp [isName, special, hproperty, hreserved, hcontext, hundefined]

theorem isExpression_dotted {path : List String} (hne : path ≠ [])
    (hfirst : ∀ s, path.head? = some s → isName s = true)
    (h : ∀ s ∈ path, Phrase.isPropertyName s = true) : IsExpression .constructor (dotted path) := by
  induction path using List.reverseRecOn with
  | nil => exact absurd rfl hne
  | append_singleton path name ih =>
    cases path with
    | nil => exact .identifier (hfirst name rfl)
    | cons first rest =>
      rw [dotted_concat (by simp)]
      have hpath := ih (by simp) (by simpa using hfirst) fun s hs => h s (List.mem_append_left _ hs)
      exact .access false (by decide) hpath isGap_empty isGap_empty (h name (by simp))

end Node

namespace Phrase

open Node

mutual

def tree : Phrase → Node
  | identifier name => leaf "identifier" name
  | this => leaf "this" "this"
  | super => leaf "super" "super"
  | member object property optional => object.tree.access "" optional "" property
  | call callee arguments optional =>
    callee.tree.application "" optional "" (.plain "" (treeAll arguments))
  | construct path arguments =>
    construction " " (dotted path) "" (.plain "" (treeAll arguments))

def treeAll : List Phrase → List Node
  | [] => []
  | e :: es => e.tree :: treeAll es

end

mutual

theorem text_tree (e : Phrase) : e.tree.text = e.print := by
  match e with
  | identifier name => rfl
  | this => rfl
  | super => rfl
  | member object property optional =>
    rw [tree, text_access, text_tree object, print]
  | call callee arguments optional =>
    simp [tree, application, Given.node, text_plain_empty, text_tree callee,
      map_text_treeAll arguments, print, bracketed, String.append_assoc]
  | construct path arguments =>
    simp [tree, construction, Given.node, text_plain_empty, text_dotted,
      map_text_treeAll arguments, print, bracketed, String.append_assoc]

theorem map_text_treeAll (es : List Phrase) : (treeAll es).map (·.text) = printAll es := by
  match es with
  | [] => rfl
  | e :: es => rw [treeAll, List.map_cons, text_tree e, map_text_treeAll es, printAll]

end

mutual

theorem isExpression_tree (e : Phrase) (he : e.isWellFormed = true) :
    IsExpression .operand e.tree := by
  match e with
  | identifier name => exact .identifier (isName_of_isValueName he)
  | this => exact .this
  | super => exact .super
  | member object property optional =>
    simp only [isWellFormed, Bool.and_eq_true] at he
    exact .access optional (by decide) (isExpression_tree object he.1.1) isGap_empty isGap_empty
      he.1.2
  | call callee arguments optional =>
    simp only [isWellFormed, Bool.and_eq_true] at he
    exact .application optional (isExpression_tree callee he.1.1) isGap_empty isGap_empty
      (fun _ => rfl) (isExpression_of_mem_treeAll arguments he.2) (listed_plain isGap_empty _)
  | construct path arguments =>
    simp only [isWellFormed, Bool.and_eq_true, Bool.not_eq_true', List.isEmpty_eq_false_iff,
      List.all_eq_true] at he
    obtain ⟨⟨hne, hpath⟩, hgiven⟩ := he
    have hdotted : IsExpression .constructor (dotted path) :=
      isExpression_dotted hne
        (fun s hs => isName_of_isValueName (hpath s (List.mem_of_head? hs)))
        fun s hs => isPropertyName_of_isValueName (hpath s hs)
    exact .construction hdotted isGap_blank (by decide) isGap_empty
      (isExpression_of_mem_treeAll arguments hgiven) (listed_plain isGap_empty _)

theorem isExpression_of_mem_treeAll (es : List Phrase) (hes : allWellFormed es = true) :
    ∀ n ∈ treeAll es, IsExpression .whole n := by
  match es with
  | [] => simp [treeAll]
  | e :: es =>
    simp only [allWellFormed, Bool.and_eq_true] at hes
    intro n hn
    rcases List.mem_cons.mp hn with rfl | hn
    · exact .operand (isExpression_tree e hes.1)
    · exact isExpression_of_mem_treeAll es hes.2 n hn

end

/-- The tree of a plain text denotes the expression that was written. -/
theorem lower_tree (e : Phrase) (he : e.isWellFormed = true) : e.tree.lower = some e.node := by
  have htext := text_tree e
  match e with
  | identifier name => exact lower_identifier rfl
  | this => exact lower_this rfl
  | super => exact lower_super rfl
  | member object property optional =>
    simp only [isWellFormed, Bool.and_eq_true] at he
    rw [tree] at htext ⊢
    rw [lower_access (isExpression_tree object he.1.1).isNamed.2.2, lower_tree object he.1.1, htext]
    rfl
  | call callee arguments optional =>
    simp only [isWellFormed, Bool.and_eq_true] at he
    rw [tree] at htext ⊢
    rw [lower_application (isExpression_tree callee he.1.1).isNamed.2.2 "" optional ""
      (listed_plain isGap_empty _)
      fun n hn => (isExpression_of_mem_treeAll arguments he.2 n hn).isNamed.imp_right And.left,
      lower_tree callee he.1.1, htext, map_text_treeAll, printAll_eq_map]
    rfl
  | construct path arguments =>
    simp only [isWellFormed, Bool.and_eq_true] at he
    rw [tree] at htext ⊢
    rw [lower_construction " " (dotted path) "" (listed_plain isGap_empty _)
      fun n hn => (isExpression_of_mem_treeAll arguments he.2 n hn).isNamed.imp_right And.left,
      htext, map_text_treeAll, printAll_eq_map, text_dotted]
    rfl

end Phrase

/-- What is known of a reader: a text that is an expression by the grammar is read as one of its
trees. -/
def SyntaxReader.Obeys (reader : SyntaxReader) (text : List Char) : Prop :=
  ∀ e, Node.IsExpression .whole e → e.text.toList = text →
    ∃ f, Node.IsExpression .whole f ∧ f.text.toList = text ∧ reader text = some (Node.script f)

/-- Reads the texts of some trees, and nothing else. -/
def SyntaxReader.knowing (known : List Node) : SyntaxReader := fun text =>
  (known.find? (·.text.toList == text)).map Node.script

theorem SyntaxReader.obeys_knowing {known : List Node}
    (h : ∀ n ∈ known, n.IsExpression .whole) {n : Node} (hn : n ∈ known) :
    (SyntaxReader.knowing known).Obeys n.text.toList := by
  intro e _ _
  obtain ⟨m, hm⟩ : ∃ m, known.find? (·.text.toList == n.text.toList) = some m :=
    Option.isSome_iff_exists.mp (List.find?_isSome.mpr ⟨n, hn, by simp⟩)
  exact ⟨m, h m (List.mem_of_find?_eq_some hm), by simpa using List.find?_some hm,
    by rw [SyntaxReader.knowing, hm, Option.map_some]⟩

theorem parseWith_of_lower {reader : SyntaxReader} {n : Node} (hn : n.IsExpression .whole)
    (h : reader.Obeys n.text.toList) {e : Expr} (he : n.lower = some e) :
    parseWith reader n.text.toList = .ok (some e) := by
  obtain ⟨m, hm, htext, hread⟩ := h n hn rfl
  obtain rfl : m = n := hm.eq_of_text_eq hn (String.toList_inj.mp htext)
  have hblank : Text.isBlankText m.text.toList = false := by
    obtain ⟨c, hc, hpart⟩ := hn.head? []
    have hmem : c ∈ m.text.toList := List.mem_of_head? (by simpa using hc)
    rw [Text.isBlankText, List.all_eq_false]
    exact ⟨c, hmem, by simp [Phrase.isBlank_of_isPart hpart]⟩
  have hstatements : (Node.script m).namedChildren.filter Node.isSolid =
      [⟨"expression_statement", true, none, m.text, [m]⟩] := rfl
  have hvalue : Node.namedChildren ⟨"expression_statement", true, none, m.text, [m]⟩ = [m] := by
    simp [Node.namedChildren, hn.isNamed.1]
  simp [parseWith, hblank, hread, meaning, hstatements, hvalue, he]

theorem Phrase.parseWith_print {reader : SyntaxReader} {e : Phrase} (he : e.isWellFormed = true)
    (h : reader.Obeys e.print.toList) : parseWith reader e.print.toList = .ok (some e.node) := by
  rw [← text_tree] at h ⊢
  exact parseWith_of_lower (.operand (isExpression_tree e he)) h (lower_tree e he)

theorem parseWith_new {reader : SyntaxReader} {path : List String} (hne : path ≠ [])
    (hfirst : ∀ s, path.head? = some s → Node.isName s = true)
    (hpath : ∀ s ∈ path, Phrase.isPropertyName s = true) {blanks : String} (hb : blanks ≠ "")
    (hgap : Node.IsGap blanks) (h : reader.Obeys ("new" ++ blanks ++ ".".intercalate path).toList) :
    parseWith reader ("new" ++ blanks ++ ".".intercalate path).toList =
      .ok (some (.construct ("new" ++ blanks ++ ".".intercalate path) (".".intercalate path) [])) := by
  have htext : (Node.bareConstruction blanks (Node.dotted path)).text =
      "new" ++ blanks ++ ".".intercalate path := by rw [Node.bareConstruction, Node.text_dotted]
  rw [← htext] at h ⊢
  rw [parseWith_of_lower (.bareConstruction (Node.isExpression_dotted hne hfirst hpath) hgap hb) h
    (Node.lower_bareConstruction blanks (Node.dotted path)), Node.text_dotted]

end Script
end ScriptSense
