import ScriptSense.Proofs.Script.Phrase
import ScriptSense.Script.Lowering

/-! The syntax trees that the grammar of scripts has for addressable expressions. Between tokens there
may be blanks. A construction takes the arguments that follow it, so it is neither called nor
accessed before it has its own; with that no text has two trees, as reading it from the left shows.
-/
namespace ScriptSense
namespace Script
namespace Node

/-- Words that are no identifiers, or not wherever a value is expected. -/
def special : List String :=
  ["undefined", "async", "await", "get", "let", "of", "set", "static", "using", "yield"]

def isName (word : String) : Bool :=
  Phrase.isPropertyName word && !reserved.contains word && !special.contains word

def IsGap (gap : String) : Prop := ∀ c ∈ gap.toList, isSpace c = true

def leaf (kind text : String) : Node := ⟨kind, true, none, text, []⟩

def mark (text : String) : Node := ⟨text, false, none, text, []⟩

def optionalMark : Node := ⟨"optional_chain", true, some "optional_chain", "?.", []⟩

def filling (n : Node) (field : String) : Node := { n with field := some field }

def access (object : Node) (before : String) (optional : Bool) (after property : String) : Node :=
  ⟨"member_expression", true, none,
    object.text ++ (before ++ Phrase.memberMark optional ++ after ++ property),
    [object.filling "object", if optional then optionalMark else mark ".",
      (leaf "property_identifier" property).filling "property"]⟩

/-- What stands between brackets: the parts and their text. -/
structure Given where
  parts : List Node
  text : String

def Given.node (g : Given) : Node :=
  ⟨"arguments", true, some "arguments", "(" ++ g.text ++ ")", mark "(" :: g.parts ++ [mark ")"]⟩

def application (callee : Node) (before : String) (optional : Bool) (after : String) (g : Given) :
    Node :=
  ⟨"call_expression", true, none,
    callee.text ++ (before ++ Phrase.callMark optional ++ after ++ g.node.text),
    callee.filling "function" :: (if optional then [optionalMark] else []) ++ [g.node]⟩

def construction (before : String) (constructor : Node) (after : String) (g : Given) : Node :=
  ⟨"new_expression", true, none, "new" ++ before ++ constructor.text ++ after ++ g.node.text,
    [mark "new", constructor.filling "constructor", g.node]⟩

def bareConstruction (before : String) (constructor : Node) : Node :=
  ⟨"new_expression", true, none, "new" ++ before ++ constructor.text,
    [mark "new", constructor.filling "constructor"]⟩

inductive Listed : List Node → Given → Prop
  | none {gap : String} : IsGap gap → Listed [] ⟨[], gap⟩
  | last {before after : String} (e : Node) : IsGap before → IsGap after →
      Listed [e] ⟨[e], before ++ e.text ++ after⟩
  | more {before after : String} {e f : Node} {es : List Node} {g : Given} : IsGap before →
      IsGap after → Listed (f :: es) g →
      Listed (e :: f :: es) ⟨e :: mark "," :: g.parts, before ++ e.text ++ after ++ "," ++ g.text⟩

/-- How much an expression may be: what `new` constructs, what may be accessed and called, or any
expression. -/
inductive Level where
  | constructor
  | operand
  | whole
  deriving DecidableEq

/-- The trees of addressable expressions. -/
inductive IsExpression : Level → Node → Prop
  | identifier {l : Level} {name : String} : isName name = true →
      IsExpression l (leaf "identifier" name)
  | this {l : Level} : IsExpression l (leaf "this" "this")
  | super {l : Level} : IsExpression l (leaf "super" "super")
  | access {l : Level} {object : Node} {before after property : String} (optional : Bool) :
      l ≠ .whole → IsExpression l object → IsGap before → IsGap after →
      Phrase.isPropertyName property = true →
      IsExpression l (access object before optional after property)
  | application {callee : Node} {before after : String} {es : List Node} {g : Given}
      (optional : Bool) : IsExpression .operand callee → IsGap before → IsGap after →
      (optional = false → after = "") → (∀ e ∈ es, IsExpression .whole e) → Listed es g →
      IsExpression .operand (application callee before optional after g)
  | construction {constructor : Node} {before after : String} {es : List Node} {g : Given} :
      IsExpression .constructor constructor → IsGap before → before ≠ "" → IsGap after →
      (∀ e ∈ es, IsExpression .whole e) → Listed es g →
      IsExpression .operand (construction before constructor after g)
  | operand {n : Node} : IsExpression .operand n → IsExpression .whole n
  | bareConstruction {constructor : Node} {before : String} :
      IsExpression .constructor constructor → IsGap before → before ≠ "" →
      IsExpression .whole (bareConstruction before constructor)

def script (e : Node) : Node :=
  ⟨"program", true, none, e.text, [⟨"expression_statement", true, none, e.text, [e]⟩]⟩

/-! Reading from the left. -/

/-- The blanks at the front of a text, and what follows them. -/
def gap (text : List Char) : String × List Char :=
  (String.ofList (text.takeWhile isSpace), text.dropWhile isSpace)

mutual

/-- An expression, and what follows it; `calls` says whether it may be more than a constructor. -/
def expression (calls : Bool) : (fuel : Nat) → List Char → Option (Node × List Char)
  | 0, _ => none
  | fuel + 1, text =>
    match Phrase.word? text with
    | none => none
    | some (word, rest) =>
      if word = "this" ∨ word = "super" then chain calls fuel (leaf word word) rest
      else if word = "new" ∧ calls then
        let (before, rest) := gap rest
        match expression false fuel rest with
        | none => none
        | some (constructor, rest) =>
          match gap rest with
          | (after, '(' :: more) =>
            match listed fuel more with
            | none => none
            | some (g, rest) => chain calls fuel (construction before constructor after g) rest
          | _ => some (bareConstruction before constructor, rest)
      else if isName word then chain calls fuel (leaf "identifier" word) rest
      else none

def chain (calls : Bool) : (fuel : Nat) → Node → List Char → Option (Node × List Char)
  | 0, _, _ => none
  | fuel + 1, n, text =>
    match gap text with
    | (before, '.' :: rest) =>
      let (after, rest) := gap rest
      match Phrase.word? rest with
      | some (property, rest) => chain calls fuel (access n before false after property) rest
      | none => none
    | (before, '?' :: '.' :: rest) =>
      match gap rest with
      | (after, '(' :: rest) =>
        match listed fuel rest with
        | some (g, rest) => chain calls fuel (application n before true after g) rest
        | none => none
      | (after, rest) =>
        match Phrase.word? rest with
        | some (property, rest) => chain calls fuel (access n before true after property) rest
        | none => none
    | (before, '(' :: rest) =>
      if calls then
        match listed fuel rest with
        | some (g, rest) => chain calls fuel (application n before false "" g) rest
        | none => none
      else some (n, text)
    | _ => some (n, text)

def listed : (fuel : Nat) → List Char → Option (Given × List Char)
  | 0, _ => none
  | fuel + 1, text =>
    match gap text with
    | (before, ')' :: rest) => some (⟨[], before⟩, rest)
    | (before, rest) =>
      match expression true fuel rest with
      | none => none
      | some (e, rest) =>
        match gap rest with
        | (after, ')' :: rest) => some (⟨[e], before ++ e.text ++ after⟩, rest)
        | (after, ',' :: rest) =>
          match listed fuel rest with
          | none => none
          | some (g, rest) =>
            some (⟨e :: mark "," :: g.parts, before ++ e.text ++ after ++ "," ++ g.text⟩, rest)
        | _ => none

end

theorem isSpace_of_isPart {c : Char} (h : Phrase.isPart c = true) : isSpace c = false := by
  obtain ⟨hlow, hhigh⟩ := Phrase.toNat_of_isPart h
  simp only [isSpace, spaceRanges, List.any_cons, List.any_nil, Bool.or_eq_false_iff,
    Bool.and_eq_false_iff, decide_eq_false_iff_not, and_true]
  omega

theorem not_isPart_of_isSpace {c : Char} (h : isSpace c = true) : Phrase.isPart c = false := by
  by_contra hp
  rw [Bool.not_eq_false] at hp
  rw [isSpace_of_isPart hp] at h
  exact absurd h (by simp)

theorem gap_append {blanks : String} (hb : IsGap blanks) {rest : List Char}
    (hr : rest.head?.any isSpace = false) : gap (blanks.toList ++ rest) = (blanks, rest) := by
  have htake : rest.takeWhile isSpace = [] ∧ rest.dropWhile isSpace = rest := by
    cases rest with
    | nil => exact ⟨rfl, rfl⟩
    | cons c cs =>
      have hc : isSpace c = false := by simpa using hr
      simp [hc]
  rw [gap, List.takeWhile_append_of_pos hb, List.dropWhile_append_of_pos hb, htake.1, htake.2]
  simp

theorem stops_append {blanks : String} (hb : IsGap blanks) {rest : List Char}
    (hr : Phrase.Stops rest) : Phrase.Stops (blanks.toList ++ rest) := by
  cases hc : blanks.toList with
  | nil => simpa [hc] using hr
  | cons c cs => exact Phrase.stops_cons (not_isPart_of_isSpace (hb c (by simp [hc]))) _

/-- A text that does not go on with the expression before it. -/
def Ends (rest : List Char) : Prop :=
  ∀ c, (rest.dropWhile isSpace).head? = some c → c ≠ '.' ∧ c ≠ '?' ∧ c ≠ '('

theorem chain_ends {rest : List Char} (h : Ends rest) (calls : Bool) (n : Node) (fuel : Nat) :
    chain calls (fuel + 1) n rest = some (n, rest) := by
  rw [chain]
  rw [Ends] at h
  generalize hg : gap rest = g
  obtain ⟨before, more⟩ := g
  have hmore : rest.dropWhile isSpace = more := congrArg Prod.snd hg
  rw [hmore] at h
  split <;> simp_all

theorem chain_constructor {rest more : List Char} {before : String}
    (h : gap rest = (before, '(' :: more)) (n : Node) (fuel : Nat) :
    chain false (fuel + 1) n rest = some (n, rest) := by
  rw [chain]
  simp only [h, Bool.false_eq_true, if_false]

theorem chain_access {before after property : String} (hb : IsGap before) (ha : IsGap after)
    (hp : Phrase.isPropertyName property = true) (optional calls : Bool) (n : Node)
    {rest : List Char} (hr : Phrase.Stops rest) (fuel : Nat) :
    chain calls (fuel + 1) n
      ((before ++ Phrase.memberMark optional ++ after ++ property).toList ++ rest) =
        chain calls fuel (access n before optional after property) rest := by
  obtain ⟨c, cs, hc, hletter, -⟩ := Phrase.isPropertyName_iff.mp hp
  have hword := Phrase.word?_append hp hr
  have hafter : gap (after.toList ++ (property.toList ++ rest)) = (after, property.toList ++ rest) := by
    apply gap_append ha
    simp [hc, isSpace_of_isPart (Phrase.isPart_of_isLetter hletter)]
  cases optional with
  | false =>
    have hbefore : gap (before.toList ++ '.' :: (after.toList ++ (property.toList ++ rest))) =
        (before, '.' :: (after.toList ++ (property.toList ++ rest))) :=
      gap_append hb rfl
    have hshape : (before ++ Phrase.memberMark false ++ after ++ property).toList ++ rest =
        before.toList ++ '.' :: (after.toList ++ (property.toList ++ rest)) := by
      simp [Phrase.memberMark]
    rw [hshape, chain, hbefore]
    simp only [hafter, hword]
  | true =>
    have hbefore : gap (before.toList ++ '?' :: '.' :: (after.toList ++ (property.toList ++ rest))) =
        (before, '?' :: '.' :: (after.toList ++ (property.toList ++ rest))) :=
      gap_append hb rfl
    have hshape : (before ++ Phrase.memberMark true ++ after ++ property).toList ++ rest =
        before.toList ++ '?' :: '.' :: (after.toList ++ (property.toList ++ rest)) := by
      simp [Phrase.memberMark]
    rw [hshape, chain, hbefore]
    simp only [hafter]
    split
    · rename_i after' more he
      obtain rfl : c = '(' := by simp_all
      exact absurd hletter (by decide)
    · rename_i he
      obtain ⟨rfl, rfl⟩ := Prod.mk.inj he
      rw [hword]

theorem chain_application {before after : String} (hb : IsGap before) (ha : IsGap after)
    {optional : Bool} (ho : optional = false → after = "") {text rest : List Char} {g : Given}
    {fuel : Nat} (hg : listed fuel text = some (g, rest)) (n : Node) :
    chain true (fuel + 1) n
      ((before ++ Phrase.callMark optional ++ after).toList ++ '(' :: text) =
        chain true fuel (application n before optional after g) rest := by
  cases optional with
  | false =>
    obtain rfl : after = "" := ho rfl
    have hbefore : gap (before.toList ++ '(' :: text) = (before, '(' :: text) :=
      gap_append hb rfl
    have hshape : (before ++ Phrase.callMark false ++ "").toList ++ '(' :: text =
        before.toList ++ '(' :: text := by simp [Phrase.callMark]
    rw [hshape, chain, hbefore]
    simp only [hg, if_true]
  | true =>
    have hafter : gap (after.toList ++ '(' :: text) = (after, '(' :: text) :=
      gap_append ha rfl
    have hbefore : gap (before.toList ++ '?' :: '.' :: (after.toList ++ '(' :: text)) =
        (before, '?' :: '.' :: (after.toList ++ '(' :: text)) :=
      gap_append hb rfl
    have hshape : (before ++ Phrase.callMark true ++ after).toList ++ '(' :: text =
        before.toList ++ '?' :: '.' :: (after.toList ++ '(' :: text) := by simp [Phrase.callMark]
    rw [hshape, chain, hbefore]
    simp only [hafter, hg]

theorem expression_keyword {word : String} (hw : word = "this" ∨ word = "super") (calls : Bool)
    {rest : List Char} (hr : Phrase.Stops rest) (fuel : Nat) :
    expression calls (fuel + 1) (word.toList ++ rest) = chain calls fuel (leaf word word) rest := by
  have hname : Phrase.isPropertyName word = true := by rcases hw with rfl | rfl <;> decide
  rw [expression, Phrase.word?_append hname hr]
  simp only [hw, if_true]

theorem expression_name {word : String} (hw : isName word = true) (calls : Bool)
    {rest : List Char} (hr : Phrase.Stops rest) (fuel : Nat) :
    expression calls (fuel + 1) (word.toList ++ rest) =
      chain calls fuel (leaf "identifier" word) rest := by
  have hother : word ≠ "this" ∧ word ≠ "super" ∧ word ≠ "new" := by
    refine ⟨?_, ?_, ?_⟩ <;> rintro rfl <;> exact absurd hw (by decide)
  have hname : Phrase.isPropertyName word = true := by
    simp only [isName, Bool.and_eq_true] at hw
    exact hw.1.1
  rw [expression, Phrase.word?_append hname hr]
  simp [hother, hw]

/-- After `new` and a constructor it is told from what follows whether there are arguments. -/
theorem expression_new {before : String} (hb : IsGap before) (hne : before ≠ "") {text : List Char}
    (ht : ∃ c, text.head? = some c ∧ Phrase.isPart c = true) {fuel : Nat} {constructor : Node}
    {rest : List Char} (hc : expression false fuel text = some (constructor, rest)) :
    expression true (fuel + 1) (("new" ++ before).toList ++ text) =
      match gap rest with
      | (after, '(' :: more) =>
        match listed fuel more with
        | none => none
        | some (g, rest) => chain true fuel (construction before constructor after g) rest
      | _ => some (bareConstruction before constructor, rest) := by
  have hstops : Phrase.Stops (before.toList ++ text) := by
    cases hs : before.toList with
    | nil => exact absurd (String.toList_eq_nil_iff.mp hs) hne
    | cons c cs => exact Phrase.stops_cons (not_isPart_of_isSpace (hb c (by simp [hs]))) _
  have hword : Phrase.word? ("new".toList ++ (before.toList ++ text)) =
      some ("new", before.toList ++ text) := Phrase.word?_append (by decide) hstops
  obtain ⟨c, hc', hpart⟩ := ht
  have hgap : gap (before.toList ++ text) = (before, text) :=
    gap_append hb (by simp [hc', isSpace_of_isPart hpart])
  rw [String.toList_append, List.append_assoc, expression, hword]
  simp only [String.reduceEq, or_self, if_false, and_self, if_true, hgap, hc]

/-! Every tree is what is read. -/

theorem IsExpression.head? {l : Level} {n : Node} (h : IsExpression l n) (rest : List Char) :
    ∃ c, (n.text.toList ++ rest).head? = some c ∧ Phrase.isPart c = true := by
  suffices hshape : ∃ c cs, n.text.toList = c :: cs ∧ Phrase.isPart c = true by
    obtain ⟨c, cs, he, hc⟩ := hshape
    exact ⟨c, by simp [he], hc⟩
  induction h with
  | identifier hname =>
    simp only [isName, Bool.and_eq_true] at hname
    obtain ⟨c, cs, he, hc, -⟩ := Phrase.isPropertyName_iff.mp hname.1.1
    exact ⟨c, cs, he, Phrase.isPart_of_isLetter hc⟩
  | this => exact ⟨'t', _, rfl, by decide⟩
  | super => exact ⟨'s', _, rfl, by decide⟩
  | access _ _ _ _ _ _ ih | application _ _ _ _ _ _ _ ih =>
    obtain ⟨c, cs, he, hc⟩ := ih
    simp [Node.access, Node.application, he, hc]
  | construction | bareConstruction =>
    have hn : Phrase.isPart 'n' = true := by decide
    simp [Node.construction, Node.bareConstruction, hn]
  | operand _ ih => exact ih

/-- With fuel enough, an operand is read, and what follows may go on with it. -/
def IsBegun (calls : Bool) (n : Node) : Prop :=
  ∀ rest, Phrase.Stops rest → ∃ steps least, ∀ fuel ≥ least,
    expression calls (fuel + steps) (n.text.toList ++ rest) = chain calls fuel n rest

/-- With fuel enough, an expression is read up to where it ends. -/
def IsRead (calls : Bool) (n : Node) : Prop :=
  ∀ rest, Phrase.Stops rest → Ends rest → ∃ least, ∀ fuel ≥ least,
    expression calls fuel (n.text.toList ++ rest) = some (n, rest)

theorem IsBegun.isRead {calls : Bool} {n : Node} (h : IsBegun calls n) : IsRead calls n := by
  intro rest hr hends
  obtain ⟨steps, least, hread⟩ := h rest hr
  refine ⟨least + 1 + steps, ?_⟩
  intro fuel hf
  obtain ⟨more, rfl⟩ : ∃ more, fuel = more + 1 + steps := ⟨fuel - 1 - steps, by omega⟩
  rw [hread (more + 1) (by omega), chain_ends hends]

theorem ends_append {blanks : String} (hb : IsGap blanks) {c : Char} (hc : isSpace c = false)
    (hother : c ≠ '.' ∧ c ≠ '?' ∧ c ≠ '(') (rest : List Char) :
    Ends (blanks.toList ++ c :: rest) := by
  intro d hd
  rw [List.dropWhile_append_of_pos hb, List.dropWhile_cons_of_neg (by simp [hc])] at hd
  obtain rfl : c = d := by simpa using hd
  exact hother

theorem listed_part {before after : String} (hb : IsGap before) (ha : IsGap after) {e : Node}
    (he : IsExpression .whole e) {sign : Char} (hs : sign = ')' ∨ sign = ',') {rest : List Char}
    {fuel : Nat} (hread : expression true fuel (e.text.toList ++ (after.toList ++ sign :: rest)) =
      some (e, after.toList ++ sign :: rest)) :
    listed (fuel + 1) ((before ++ e.text ++ after).toList ++ sign :: rest) =
      if sign = ')' then some (⟨[e], before ++ e.text ++ after⟩, rest)
      else
        match listed fuel rest with
        | none => none
        | some (g, rest) =>
          some (⟨e :: mark "," :: g.parts, before ++ e.text ++ after ++ "," ++ g.text⟩, rest) := by
  obtain ⟨c, hc, hpart⟩ := he.head? (after.toList ++ sign :: rest)
  have hshape : (before ++ e.text ++ after).toList ++ sign :: rest =
      before.toList ++ (e.text.toList ++ (after.toList ++ sign :: rest)) := by simp
  have hbefore : gap (before.toList ++ (e.text.toList ++ (after.toList ++ sign :: rest))) =
      (before, e.text.toList ++ (after.toList ++ sign :: rest)) :=
    gap_append hb (by simp only [hc, Option.any_some, isSpace_of_isPart hpart])
  have hafter : gap (after.toList ++ sign :: rest) = (after, sign :: rest) := by
    apply gap_append ha
    rcases hs with rfl | rfl <;> rfl
  rw [hshape, listed, hbefore]
  split
  · rename_i before' more hclose
    obtain ⟨-, hmore⟩ := Prod.mk.inj hclose
    rw [hmore] at hc
    obtain rfl : ')' = c := Option.some.inj hc
    exact absurd hpart (by decide)
  · rename_i before' text _ hfirst
    obtain ⟨rfl, rfl⟩ := Prod.mk.inj hfirst
    rcases hs with rfl | rfl <;> simp [hread, hafter]

theorem listed_append {es : List Node} {g : Given} (h : Listed es g)
    (hes : ∀ e ∈ es, IsExpression .whole e ∧ IsRead true e) (rest : List Char) :
    ∃ least, ∀ fuel ≥ least, listed fuel (g.text.toList ++ ')' :: rest) = some (g, rest) := by
  induction h with
  | @none blanks hb =>
    have hgap : gap (blanks.toList ++ ')' :: rest) = (blanks, ')' :: rest) := gap_append hb rfl
    refine ⟨1, ?_⟩
    intro fuel hf
    obtain ⟨fuel, rfl⟩ : ∃ n, fuel = n + 1 := ⟨fuel - 1, by omega⟩
    simp only [listed, hgap]
  | @last before after e hb ha =>
    obtain ⟨he, hread⟩ := hes e (by simp)
    obtain ⟨least, hread⟩ := hread (after.toList ++ ')' :: rest)
      (stops_append ha (Phrase.stops_cons (by decide) _))
      (ends_append ha (by decide) (by decide) rest)
    refine ⟨least + 1, ?_⟩
    intro fuel hf
    obtain ⟨fuel, rfl⟩ : ∃ n, fuel = n + 1 := ⟨fuel - 1, by omega⟩
    rw [listed_part hb ha he (Or.inl rfl) (hread fuel (by omega)), if_pos rfl]
  | @more before after e f es g hb ha _ ih =>
    obtain ⟨he, hread⟩ := hes e (by simp)
    obtain ⟨least, hread⟩ := hread (after.toList ++ ',' :: (g.text.toList ++ ')' :: rest))
      (stops_append ha (Phrase.stops_cons (by decide) _))
      (ends_append ha (by decide) (by decide) _)
    obtain ⟨least', hmore⟩ := ih fun e he => hes e (List.mem_cons_of_mem _ he)
    have hshape : (before ++ e.text ++ after ++ "," ++ g.text).toList ++ ')' :: rest =
        (before ++ e.text ++ after).toList ++ ',' :: (g.text.toList ++ ')' :: rest) := by simp
    refine ⟨max least least' + 1, ?_⟩
    intro fuel hf
    obtain ⟨fuel, rfl⟩ : ∃ n, fuel = n + 1 := ⟨fuel - 1, by omega⟩
    rw [hshape, listed_part hb ha he (Or.inr rfl) (hread fuel (by omega)), if_neg (by decide),
      hmore fuel (by omega)]

theorem isBegun_keyword {word : String} (hw : word = "this" ∨ word = "super") (calls : Bool) :
    IsBegun calls (leaf word word) :=
  fun _ hr => ⟨1, 0, fun fuel _ => expression_keyword hw calls hr fuel⟩

theorem isBegun_name {name : String} (h : isName name = true) (calls : Bool) :
    IsBegun calls (leaf "identifier" name) :=
  fun _ hr => ⟨1, 0, fun fuel _ => expression_name h calls hr fuel⟩

theorem IsBegun.access {calls : Bool} {object : Node} (h : IsBegun calls object)
    {before after property : String} (hb : IsGap before) (ha : IsGap after)
    (hp : Phrase.isPropertyName property = true) (optional : Bool) :
    IsBegun calls (object.access before optional after property) := by
  intro rest hr
  have hmark : Phrase.Stops ((before ++ Phrase.memberMark optional ++ after ++ property).toList ++
      rest) := by
    simp only [String.toList_append, List.append_assoc]
    exact stops_append hb (Phrase.stops_memberMark optional _)
  have hshape : (object.access before optional after property).text.toList ++ rest =
      object.text.toList ++
        ((before ++ Phrase.memberMark optional ++ after ++ property).toList ++ rest) := by
    simp [Node.access]
  obtain ⟨steps, least, hread⟩ := h _ hmark
  refine ⟨1 + steps, least, ?_⟩
  intro fuel hf
  rw [hshape, ← Nat.add_assoc, hread (fuel + 1) (by omega), chain_access hb ha hp _ _ _ hr]

theorem IsBegun.application {callee : Node} (h : IsBegun true callee) {before after : String}
    (hb : IsGap before) (ha : IsGap after) {optional : Bool} (ho : optional = false → after = "")
    {es : List Node} {g : Given} (hes : ∀ e ∈ es, IsExpression .whole e ∧ IsRead true e)
    (hg : Listed es g) : IsBegun true (callee.application before optional after g) := by
  intro rest hr
  have hmark : Phrase.Stops ((before ++ Phrase.callMark optional ++ after).toList ++
      '(' :: (g.text.toList ++ ')' :: rest)) := by
    simp only [String.toList_append, List.append_assoc]
    refine stops_append hb ?_
    cases optional with
    | false =>
      obtain rfl := ho rfl
      exact Phrase.stops_cons (by decide) _
    | true => exact Phrase.stops_cons (by decide) _
  have hshape : (callee.application before optional after g).text.toList ++ rest =
      callee.text.toList ++ ((before ++ Phrase.callMark optional ++ after).toList ++
        '(' :: (g.text.toList ++ ')' :: rest)) := by simp [Node.application, Given.node]
  obtain ⟨steps, least, hread⟩ := h _ hmark
  obtain ⟨least', hlisted⟩ := listed_append hg hes rest
  refine ⟨1 + steps, max least least', ?_⟩
  intro fuel hf
  rw [hshape, ← Nat.add_assoc, hread (fuel + 1) (by omega),
    chain_application hb ha ho (hlisted fuel (by omega))]

theorem IsBegun.construction {constructor : Node} (hc : IsExpression .constructor constructor)
    (h : IsBegun false constructor) {before after : String} (hb : IsGap before)
    (hne : before ≠ "") (ha : IsGap after) {es : List Node} {g : Given}
    (hes : ∀ e ∈ es, IsExpression .whole e ∧ IsRead true e) (hg : Listed es g) :
    IsBegun true (construction before constructor after g) := by
  intro rest hr
  generalize hmore : g.text.toList ++ ')' :: rest = more
  have hafter : gap (after.toList ++ '(' :: more) = (after, '(' :: more) :=
    gap_append ha rfl
  have hshape : (Node.construction before constructor after g).text.toList ++ rest =
      ("new" ++ before).toList ++ (constructor.text.toList ++ (after.toList ++ '(' :: more)) := by
    simp [Node.construction, Given.node, ← hmore]
  obtain ⟨steps, least, hread⟩ := h (after.toList ++ '(' :: more)
    (stops_append ha (Phrase.stops_cons (by decide) _))
  obtain ⟨least', hlisted⟩ := listed_append hg hes rest
  rw [hmore] at hlisted
  refine ⟨1, least + 1 + steps + least', ?_⟩
  intro fuel hf
  obtain ⟨left, rfl⟩ : ∃ left, fuel = left + 1 + steps := ⟨fuel - 1 - steps, by omega⟩
  have hend : expression false (left + 1 + steps)
      (constructor.text.toList ++ (after.toList ++ '(' :: more)) =
        some (constructor, after.toList ++ '(' :: more) := by
    rw [hread (left + 1) (by omega), chain_constructor hafter]
  rw [hshape, expression_new hb hne (hc.head? _) hend, hafter]
  simp only [hlisted _ (show left + 1 + steps ≥ least' by omega)]

theorem isRead_bareConstruction {constructor : Node} (hc : IsExpression .constructor constructor)
    (h : IsRead false constructor) {before : String} (hb : IsGap before) (hne : before ≠ "") :
    IsRead true (bareConstruction before constructor) := by
  intro rest hr hends
  obtain ⟨least, hread⟩ := h rest hr hends
  have hshape : (bareConstruction before constructor).text.toList ++ rest =
      ("new" ++ before).toList ++ (constructor.text.toList ++ rest) := by simp [bareConstruction]
  refine ⟨least + 1, ?_⟩
  intro fuel hf
  obtain ⟨fuel, rfl⟩ : ∃ n, fuel = n + 1 := ⟨fuel - 1, by omega⟩
  rw [hshape, expression_new hb hne (hc.head? rest) (hread fuel (by omega))]
  split
  · rename_i after text hgap
    have hbracket : rest.dropWhile isSpace = '(' :: text := congrArg Prod.snd hgap
    exact absurd rfl (hends '(' (by rw [hbracket]; rfl)).2.2
  · rfl

/-- How what is read goes on at a level. -/
def Level.Reads : Level → Node → Prop
  | constructor, n => IsBegun false n
  | operand, n => IsBegun true n
  | whole, n => IsRead true n

theorem Level.reads_of_isBegun {l : Level} {n : Node} (h : ∀ calls, IsBegun calls n) :
    l.Reads n := by
  cases l with
  | constructor => exact h false
  | operand => exact h true
  | whole => exact (h true).isRead

/-- Every tree is what its text is read as. -/
theorem IsExpression.reads {l : Level} {n : Node} (h : IsExpression l n) : l.Reads n := by
  induction h with
  | identifier hname => exact Level.reads_of_isBegun fun calls => isBegun_name hname calls
  | this => exact Level.reads_of_isBegun fun calls => isBegun_keyword (Or.inl rfl) calls
  | super => exact Level.reads_of_isBegun fun calls => isBegun_keyword (Or.inr rfl) calls
  | @access l _ _ _ _ optional hl _ hb ha hp ih =>
    cases l with
    | constructor => exact IsBegun.access ih hb ha hp optional
    | operand => exact IsBegun.access ih hb ha hp optional
    | whole => exact absurd rfl hl
  | application optional _ hb ha ho hes hg ih ihes =>
    exact IsBegun.application ih hb ha ho (fun e he => ⟨hes e he, ihes e he⟩) hg
  | construction hc hb hne ha hes hg ih ihes =>
    exact IsBegun.construction hc ih hb hne ha (fun e he => ⟨hes e he, ihes e he⟩) hg
  | operand _ ih => exact IsBegun.isRead ih
  | bareConstruction hc hb hne ih => exact isRead_bareConstruction hc (IsBegun.isRead ih) hb hne

/-- No text has two trees. -/
theorem IsExpression.eq_of_text_eq {m n : Node} (hm : IsExpression .whole m)
    (hn : IsExpression .whole n) (h : m.text = n.text) : m = n := by
  have hends : Ends [] := by simp [Ends]
  obtain ⟨least, hread⟩ := hm.reads [] Phrase.stops_nil hends
  obtain ⟨least', hread'⟩ := hn.reads [] Phrase.stops_nil hends
  have hfirst := hread (max least least') (by omega)
  have hsecond := hread' (max least least') (by omega)
  rw [h, hsecond] at hfirst
  exact (Prod.mk.inj (Option.some.inj hfirst)).1.symm

end Node
end Script
end ScriptSense
