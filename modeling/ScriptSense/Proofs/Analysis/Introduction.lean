import ScriptSense.Proofs.Analysis.Nesting
import ScriptSense.Proofs.Feature.Packages
import ScriptSense.Proofs.Source.Nearest

/-! Variables stand for what is assigned to them. A line assigns a text to a name; before it nothing is
assigned to the name, and behind it the name does not occur. Then this is the nearest assignment from
everywhere behind it, whatever the text itself holds. Main statement: there the name denotes what the
text denotes where the assignment begins. -/
namespace ScriptSense

namespace Assignment

open Text

/-- A source with a line that assigns a text to a name. -/
def introduce (before name text after : List Char) : List Char :=
  before ++ '\n' :: (name ++ [' ', '=', ' '] ++ text ++ ';' :: after)

/-- The place behind the semicolon of the assignment. -/
def introduced (before name text : List Char) : Nat := (introduce before name text []).length

theorem introduce_append (before name text after : List Char) :
    introduce before name text after = introduce before name text [] ++ after := by
  simp [introduce]

/-- Nothing is assigned to a name: wherever it stands, even within a longer one, no equals sign comes
next, or after blanks. -/
def Unassigned (name text : List Char) : Prop :=
  ∀ front rest, text = front ++ name ++ rest → (rest.dropWhile isBlank).head? ≠ some '='

theorem unassigned_iff (name text : List Char) : Unassigned name text ↔
    ∀ rest ∈ text.tails, name <+: rest →
      ((rest.drop name.length).dropWhile isBlank).head? ≠ some '=' := by
  simp only [List.mem_tails]
  constructor
  · rintro h rest ⟨front, rfl⟩ ⟨tail, rfl⟩
    rw [List.drop_left]
    exact h front tail (by rw [List.append_assoc])
  · rintro h front rest rfl
    have hrest := h (name ++ rest) ⟨front, by rw [List.append_assoc]⟩ (List.prefix_append _ _)
    rwa [List.drop_left] at hrest

instance (name text : List Char) : Decidable (Unassigned name text) :=
  decidable_of_iff _ (unassigned_iff name text).symm

variable {name : List Char}

theorem not_isBlank_of_isNameChar {c : Char} (h : isNameChar c = true) : isBlank c = false := by
  refine Script.Phrase.isBlank_of_isPart ?_
  rw [Script.Phrase.isPart, h, Bool.true_or]

theorem isNameChar_of_isIdentifier (h : isIdentifier name = true) {c : Char} (hc : c ∈ name) :
    isNameChar c = true := by
  cases name with
  | nil => cases hc
  | cons d ds =>
    simp only [isIdentifier, Bool.and_eq_true, List.all_eq_true] at h
    rcases List.mem_cons.mp hc with rfl | hc
    · exact isNameChar_of_isNameStart h.1
    · exact h.2 c hc

theorem notMem_of_isIdentifier (h : isIdentifier name = true) {c : Char}
    (hc : isNameChar c = false) : c ∉ name := by
  intro hmem
  rw [isNameChar_of_isIdentifier h hmem] at hc
  cases hc

theorem trim_of_isIdentifier (h : isIdentifier name = true) : trim name = name := by
  apply trim_of_ends
  · exact fun c hc => not_isBlank_of_isNameChar
      (isNameChar_of_isIdentifier h (List.mem_of_mem_head? hc))
  · exact fun c hc => not_isBlank_of_isNameChar
      (isNameChar_of_isIdentifier h (List.mem_of_mem_getLast? hc))

/-- Where an assignment to a name stands, the name stands, and an equals sign after it. -/
theorem Occurs.exists_name {text : List Char} {start stop : Nat} {body : List Char}
    (h : Occurs name text start stop body) :
    ∃ front rest, text = front ++ name ++ rest ∧ front.length = start ∧
      (rest.dropWhile isBlank).head? = some '=' := by
  obtain ⟨front, rest, n, rfl, hstart, -, -, gap, lead, more, rfl, -, hgap, -⟩ := h
  refine ⟨front, gap ++ '=' :: (lead ++ body) ++ ';' :: more, by simp, hstart, ?_⟩
  rw [List.append_assoc, List.dropWhile_append_of_pos hgap, List.cons_append,
    List.dropWhile_cons_of_neg (by decide)]
  rfl

theorem Unassigned.le_start {before rest : List Char} (h : Unassigned name before)
    (hname : isIdentifier name = true) {start stop : Nat} {body : List Char}
    (ho : Occurs name (before ++ '\n' :: (name ++ rest)) start stop body) :
    before.length + 1 ≤ start := by
  obtain ⟨front, tail, htext, rfl, hequals⟩ := ho.exists_name
  by_contra hlt
  have hnewline : '\n' ∉ name := notMem_of_isIdentifier hname (by decide)
  obtain ⟨cut, rfl⟩ : ∃ cut, before = front ++ cut := by
    have hfront : front <+: before ++ '\n' :: (name ++ rest) :=
      ⟨name ++ tail, by rw [htext, List.append_assoc]⟩
    have hbefore : before <+: before ++ '\n' :: (name ++ rest) := List.prefix_append _ _
    obtain ⟨cut, hcut⟩ := List.prefix_of_prefix_length_le hfront hbefore (by omega)
    exact ⟨cut, hcut.symm⟩
  rw [List.append_assoc, List.append_assoc, List.append_cancel_left_eq] at htext
  have hinside : ∃ gap, cut = name ++ gap ∧ tail = gap ++ '\n' :: (name ++ rest) := by
    rcases List.append_eq_append_iff.mp htext with ⟨gap, hcut, hgap⟩ | ⟨gap, hcut, htail⟩
    · cases gap with
      | nil => exact ⟨[], by simpa using hcut.symm, by simpa using hgap.symm⟩
      | cons c gap =>
        obtain ⟨rfl, -⟩ := List.cons.inj hgap
        exact absurd (by rw [hcut]; simp) hnewline
    · exact ⟨gap, hcut, htail⟩
  obtain ⟨gap, rfl, rfl⟩ := hinside
  rw [List.dropWhile_append] at hequals
  split at hequals
  · -- only blanks follow on the line, and the next line begins with the name
    rw [List.dropWhile_cons_of_pos (by decide)] at hequals
    obtain ⟨c, cs, rfl⟩ := List.exists_cons_of_ne_nil (show name ≠ [] by
      rintro rfl
      cases hname)
    have hc := isNameChar_of_isIdentifier hname (List.mem_cons_self (a := c))
    rw [List.cons_append, List.dropWhile_cons_of_neg (by simp [not_isBlank_of_isNameChar hc])]
      at hequals
    obtain rfl := Option.some.inj hequals
    exact absurd hc (by decide)
  · rename_i hne
    rw [List.head?_append_of_ne_nil _ (by simpa using hne)] at hequals
    exact h front gap (by simp) hequals

theorem occurs_introduce {before text after : List Char} (hsemicolon : ';' ∉ text)
    (hline : '\n' ∉ text) :
    Occurs name (introduce before name text after) (before.length + 1)
      (introduced before name text) (text.dropWhile isBlank) := by
  have hsplit : [' '] ++ text.takeWhile isBlank ++ text.dropWhile isBlank = ' ' :: text := by
    simp [List.takeWhile_append_dropWhile]
  have hstop : introduced before name text =
      before.length + 1 + ((name ++ [' '] ++ '=' :: (' ' :: text)).length + 1) := by
    simp only [introduced, introduce, List.length_append, List.length_cons, List.length_nil]
    omega
  refine ⟨before ++ ['\n'], name ++ [' ', '=', ' '] ++ text ++ ';' :: after, _, by simp [introduce],
    by simp, hstop, ?_, [' '], [' '] ++ text.takeWhile isBlank, after, ?_, ?_, ?_, ?_, ?_, ?_⟩
  · intro c hc
    obtain rfl : '\n' = c := by simpa using hc
    decide +kernel
  · rw [hsplit]
    simp
  · rw [hsplit]
  · intro c hc
    obtain rfl := List.mem_singleton.mp hc
    decide
  · intro c hc
    rcases List.mem_append.mp hc with hc | hc
    · obtain rfl := List.mem_singleton.mp hc
      decide
    · exact List.mem_takeWhile_imp hc
  · intro c hc
    have hmem : c ∈ text := (List.dropWhile_suffix isBlank).subset hc
    exact ⟨fun he => hsemicolon (he ▸ hmem), fun he => hline (he ▸ hmem)⟩
  · intro c hc
    rw [hsplit] at hc
    obtain rfl := Option.some.inj hc
    decide

theorem chosen_introduce {before text after : List Char} (hname : isIdentifier name = true)
    (hbefore : Unassigned name before) (hsemicolon : ';' ∉ text) (hline : '\n' ∉ text)
    (hafter : ¬ name <:+: after) :
    Chosen name (introduce before name text after)
      ⟨before.length + 1, introduced before name text, text.dropWhile isBlank⟩ := by
  have hsplit : introduce before name text after =
      before ++ '\n' :: (name ++ ([' ', '=', ' '] ++ text ++ ';' :: after)) := by simp [introduce]
  have hplain : ';' ∉ name := notMem_of_isIdentifier hname (by decide)
  have hoccurs : Occurs name (introduce before name text after) (before.length + 1)
      (introduced before name text) (text.dropWhile isBlank) := occurs_introduce hsemicolon hline
  refine ⟨hoccurs, fun _ => not_isBlank_of_head?_dropWhile, ?_⟩
  intro start stop body ho
  have hstart : before.length + 1 ≤ start := hbefore.le_start hname (hsplit ▸ ho)
  by_cases hin : start < introduced before name text
  · exact Or.inr ⟨hoccurs.stop_eq_of_overlap hplain ho hstart hin, hstart⟩
  · obtain ⟨front, tail, htext, rfl, -⟩ := ho.exists_name
    refine absurd ?_ hafter
    have hdrop : after.drop (front.length - introduced before name text) = name ++ tail := by
      have hfront : (introduce before name text after).drop front.length = name ++ tail := by
        rw [htext, List.append_assoc, List.drop_left]
      rw [introduce_append, List.drop_append, List.drop_eq_nil_of_le (Nat.le_of_not_lt hin),
        List.nil_append] at hfront
      exact hfront
    exact List.IsInfix.trans ⟨[], tail, by simpa using hdrop.symm⟩ (List.drop_suffix _ _).isInfix

theorem upTo_introduce {before text after : List Char} {offset : Int}
    (ho : (introduced before name text : Int) ≤ offset) :
    Occurrence.upTo (introduce before name text after) offset =
      introduce before name text (after.take (offset.toNat - introduced before name text)) := by
  have hle : (introduce before name text []).length ≤ offset.toNat := by
    rw [introduced] at ho
    omega
  rw [Occurrence.upTo, introduce_append, List.take_append, List.take_of_length_le hle,
    introduce_append before name text (after.take _), introduced]

/-- The nearest assignment to a name, from a place behind the line that introduces it. -/
theorem nearest?_introduce {before text after : List Char} (hname : isIdentifier name = true)
    (hbefore : Unassigned name before) (hsemicolon : ';' ∉ text) (hline : '\n' ∉ text)
    (hafter : ¬ name <:+: after) {offset : Int}
    (ho : (introduced before name text : Int) ≤ offset) :
    nearest? name (introduce before name text after) offset =
      some ⟨before.length + 1, introduced before name text, text.dropWhile isBlank⟩ := by
  rw [nearest?_eq_some_iff (notMem_of_isIdentifier hname (by decide)), upTo_introduce ho]
  refine chosen_introduce hname hbefore hsemicolon hline ?_
  intro hinside
  exact hafter (hinside.trans (List.take_prefix _ _).isInfix)

end Assignment

namespace Scene

open Text Assignment

theorem trim_dropWhile (t : List Char) : trim (t.dropWhile isBlank) = trim t := by
  rw [trim, List.dropWhile_idempotent, trim]

theorem resolve_value_congr {scene : Scene} {text other : List Char} (h : trim text = trim other)
    (offset : Int) : (scene.resolve offset text).value = (scene.resolve offset other).value := by
  rw [resolve_value, resolve_value, h]

theorem namespaceHit?_identifier {scene : Scene} {name : String}
    (h : scene.names.containsPath name = false) :
    scene.namespaceHit? (.identifier name) = none := by
  have hnone : scene.named? name = none := by
    have hfind : scene.names.find? name = none := by simpa [Namespace.containsPath] using h
    simp [named?, Namespace.lookup, hfind]
  simp [namespaceHit?, Expr.text, Expr.dottedName?, hnone]

/-- A name denotes what is assigned to it, if that denotes anything, and a parameter otherwise. -/
theorem resolve_identifier {scene : Scene} {name : String}
    (hname : isIdentifier name.toList = true)
    (hread : (scene.parser name).value = some (.identifier name))
    (hfree : scene.names.containsPath name = false) {offset : Int} {found : Occurrence (List Char)}
    (hfound : nearest? name.toList scene.source offset = some found) :
    (scene.resolve offset name.toList).value =
      ((scene.resolve found.start found.captured).value).or (scene.parameter offset name).value := by
  have hparse : (scene.parser (String.ofList (trim name.toList))).value =
      some (.identifier name) := by
    rw [trim_of_isIdentifier hname, String.ofList_toList, hread]
  rw [resolve_value, hparse, Option.bind_some, resolveExpr_eq, typeOf, namespaceHit?_identifier hfree]
  simp only [hfound, Traced.bind_value]
  cases (scene.resolve found.start found.captured).value <;> rfl

/-- Introducing a variable keeps what is inferred. A line assigns a text, which has no semicolon, to a
name that is an identifier, is read as one, and is no path of the namespace; nothing is assigned to the
name before, and it does not occur behind. If the text denotes something where the assignment begins,
then the name denotes the same everywhere behind the assignment. -/
theorem resolve_introduce (names : Namespace) (parser : Parser) (name : String)
    (before text after : List Char) (hname : isIdentifier name.toList = true)
    (hread : (parser name).value = some (.identifier name))
    (hfree : names.containsPath name = false)
    (hbefore : Unassigned name.toList before) (hsemicolon : ';' ∉ text) (hline : '\n' ∉ text)
    (hafter : ¬ name.toList <:+: after) (d : Denotation)
    (hd : ((⟨names, parser, introduce before name.toList text after⟩ : Scene).resolve
      (before.length + 1) text).value = some d)
    (offset : Int) (ho : (introduced before name.toList text : Int) ≤ offset) :
    ((⟨names, parser, introduce before name.toList text after⟩ : Scene).resolve offset
      name.toList).value = some d := by
  have hnearest := nearest?_introduce hname hbefore hsemicolon hline hafter ho
  rw [resolve_identifier hname hread hfree hnearest]
  rw [resolve_value_congr (trim_dropWhile text), Nat.cast_add, Nat.cast_one, hd, Option.some_or]

def namedAndConstructed : Parser :=
  .known [("x", .identifier "x"), ("new a.C(x)", .construct "new a.C(x)" "a.C" ["x"])]

/-- The name stands before the assignment and in the text that is assigned. -/
theorem resolve_introduce_construction :
    let names := (Database.ofHistory ["Object"] [.ingest (ClassRecord.bare "a.C" none)]).names
    let parser := namedAndConstructed
    let before := "x.y = 2; f(x) == x".toList
    let text := " new a.C(x) ".toList
    let source := introduce before ['x'] text " g();".toList
    isIdentifier ['x'] = true ∧ (parser "x").value = some (.identifier "x") ∧
      names.containsPath "x" = false ∧ Unassigned ['x'] before ∧ ';' ∉ text ∧ '\n' ∉ text ∧
      ¬ ['x'] <:+: " g();".toList ∧
      ((⟨names, parser, source⟩ : Scene).resolve (before.length + 1) text).value =
        some (.object "a.C") ∧
      ((⟨names, parser, source⟩ : Scene).resolve source.length ['x']).value =
        some (.object "a.C") := by
  intro names parser before text source
  have hread : (parser "x").value = some (.identifier "x") := by decide +kernel
  have hfree : names.containsPath "x" = false := by decide +kernel
  have hbefore : Unassigned ['x'] before := by decide +kernel
  have hafter : ¬ ['x'] <:+: " g();".toList := by decide +kernel
  have hd : ((⟨names, parser, source⟩ : Scene).resolve (before.length + 1) text).value =
      some (.object "a.C") := by decide +kernel
  have hsemicolon : ';' ∉ text := by decide +kernel
  have hline : '\n' ∉ text := by decide +kernel
  exact ⟨by decide, hread, hfree, hbefore, hsemicolon, hline, hafter, hd,
    resolve_introduce names parser "x" before text " g();".toList (by decide) hread hfree hbefore
      hsemicolon hline hafter _ hd source.length (by decide +kernel)⟩

end Scene
end ScriptSense
