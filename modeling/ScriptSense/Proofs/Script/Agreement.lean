import ScriptSense.Proofs.Script.Lowering
import ScriptSense.Proofs.Source.Scan

/-! Two ways to find an expression agree. Reading forward, the plain text of an expression is read
as that expression; searching backward from its end, exactly that text is found, unless a property
outside of brackets has a dollar sign in its name or the expression goes on to the left. -/
namespace ScriptSense
namespace Script
namespace Phrase

open Backward

def isPlain : Phrase → Bool
  | member object property _ => object.isPlain && !property.toList.contains '$'
  | call callee _ _ => callee.isPlain
  | _ => true

/-- Whether an expression begins with `new`. -/
def startsNew : Phrase → Bool
  | member object _ _ => object.startsNew
  | call callee _ _ => callee.startsNew
  | construct .. => true
  | _ => false

/-- Whether an expression does not go on to the left. -/
def StandsApart (e : Phrase) (left : List Char) : Prop :=
  if e.startsNew then ∀ c, left.getLast? = some c → Text.isNameChar c = false
  else Scan.Begins left left.length ∧ ∀ start, ¬ Scan.NewAt left start left.length

/-! Characters of words. -/

theorem ofChar?_of_isPart {c : Char} (h : isPart c = true) :
    Bracket.ofChar? c = none := by
  rw [Bracket.ofChar?.eq_def]
  split <;> first | rfl | exact absurd h (by decide)

theorem mem_names_of_isPropertyName {word : String} (h : isPropertyName word = true)
    (hd : '$' ∉ word.toList) : word.toList ∈ names := by
  obtain ⟨c, cs, he, hc, hcs⟩ := isPropertyName_iff.mp h
  rw [he, List.mem_cons, not_or] at hd
  refine mem_names.mpr ⟨c, cs, he, ?_, ?_⟩
  · simpa [isLetter, Ne.symm hd.1] using hc
  · intro d hmem
    have hne : d ≠ '$' := fun heq => hd.2 (heq ▸ hmem)
    simpa [isPart, hne] using hcs d hmem

theorem mem_names_of_isValueName {word : String} (h : isValueName word = true) :
    word.toList ∈ names := by
  simp only [isValueName, Bool.and_eq_true] at h
  exact h.1.1.1

/-! Printed texts have their brackets in order. -/

theorem balanced_word {word : String} (h : isPropertyName word = true) :
    Bracket.Balanced word.toList :=
  .of_forall fun _ hd => ofChar?_of_isPart (isPart_of_mem h hd)

theorem balanced_mark {mark : String} (h : mark ∈ ["", ".", "?."]) :
    Bracket.Balanced mark.toList := by
  simp only [List.mem_cons, List.not_mem_nil, or_false] at h
  rcases h with rfl | rfl | rfl
  · exact .nil
  · exact .plain rfl
  · exact .append (.plain (c := '?') rfl) (.plain (c := '.') rfl)

theorem balanced_path {path : List String} (h : ∀ s ∈ path, isValueName s = true) :
    Bracket.Balanced (".".intercalate path).toList := by
  induction path with
  | nil => exact .nil
  | cons s more ih =>
    have hs := balanced_word (isPropertyName_of_isValueName (h s (by simp)))
    have hmore := ih fun t ht => h t (List.mem_cons_of_mem s ht)
    cases more with
    | nil => simpa using hs
    | cons t more =>
      rw [String.intercalate_cons_cons, String.toList_append, String.toList_append]
      exact .append (.append hs (.plain rfl)) hmore

mutual

theorem balanced_print (e : Phrase) (he : e.isWellFormed = true) :
    Bracket.Balanced e.print.toList := by
  match e with
  | identifier name => exact balanced_word (isPropertyName_of_isValueName he)
  | this => exact balanced_word (by decide)
  | super => exact balanced_word (by decide)
  | member object property optional =>
    simp only [isWellFormed, Bool.and_eq_true] at he
    rw [toList_member]
    exact .append (balanced_print object he.1.1)
      (.append (balanced_mark (by cases optional <;> decide)) (balanced_word he.1.2))
  | call callee given optional =>
    simp only [isWellFormed, Bool.and_eq_true] at he
    rw [toList_call]
    exact .append (balanced_print callee he.1.1)
      (.append (balanced_mark (by cases optional <;> decide))
        (.enclosed (balanced_inner given he.2)))
  | construct path given =>
    simp only [isWellFormed, Bool.and_eq_true, List.all_eq_true] at he
    rw [toList_construct]
    exact .append (balanced_word (by decide)) (.append (.plain rfl)
      (.append (balanced_path he.1.2) (.enclosed (balanced_inner given he.2))))

theorem balanced_inner (es : List Phrase) (hes : allWellFormed es = true) :
    Bracket.Balanced (inner es) := by
  match es with
  | [] => exact .nil
  | e :: es =>
    simp only [allWellFormed, Bool.and_eq_true] at hes
    rw [inner, toList_intercalate_cons]
    exact .append (balanced_print e hes.1) (balanced_following es hes.2)

theorem balanced_following (es : List Phrase) (hes : allWellFormed es = true) :
    Bracket.Balanced (following es) := by
  match es with
  | [] => exact .nil
  | e :: es =>
    simp only [allWellFormed, Bool.and_eq_true] at hes
    exact .append (.plain rfl) (.append (.plain rfl)
      (.append (balanced_print e hes.1) (balanced_following es hes.2)))

end

/-! Printed texts as chains. -/

open Scan

theorem memberMark_mem (optional : Bool) : (memberMark optional).toList ∈ memberMarks := by
  cases optional
  · exact Or.inl rfl
  · exact Or.inr rfl

theorem callMark_mem (optional : Bool) : (callMark optional).toList ∈ 1 + optionalMarks := by
  cases optional
  · exact Or.inl rfl
  · exact Or.inr rfl

theorem chain_append_path {path : List String} (hne : path ≠ [])
    (hp : ∀ s ∈ path, isValueName s = true) {t : List Char} (ht : t ∈ chains) :
    t ++ '.' :: (".".intercalate path).toList ∈ chains := by
  induction path generalizing t with
  | nil => exact absurd rfl hne
  | cons s more ih =>
    have hs : t ++ (['.'] ++ s.toList) ∈ chains :=
      chain_of_member ht (Or.inl rfl) (mem_names_of_isValueName (hp s (by simp)))
    cases more with
    | nil => simpa using hs
    | cons u more =>
      have := ih (by simp) (fun v hv => hp v (List.mem_cons_of_mem s hv)) hs
      simpa [String.intercalate_cons_cons] using this

theorem chain_of_path {path : List String} (hne : path ≠ [])
    (hp : ∀ s ∈ path, isValueName s = true) : (".".intercalate path).toList ∈ chains := by
  cases path with
  | nil => exact absurd rfl hne
  | cons s more =>
    have hs := chain_of_name (mem_names_of_isValueName (hp s (by simp)))
    cases more with
    | nil => simpa using hs
    | cons u more =>
      have := chain_append_path (by simp) (fun v hv => hp v (List.mem_cons_of_mem s hv)) hs
      simpa [String.intercalate_cons_cons] using this

theorem exists_chain (e : Phrase) (he : e.isWellFormed = true) (hp : e.isPlain = true) :
    ∃ t ∈ chains, e.print.toList = (if e.startsNew then ['n', 'e', 'w', ' '] else []) ++ t := by
  match e with
  | identifier name => exact ⟨name.toList, chain_of_name (mem_names_of_isValueName he), rfl⟩
  | this =>
    exact ⟨"this".toList, chain_of_name (mem_names_of_isPropertyName (by decide) (by decide)), rfl⟩
  | super =>
    exact ⟨"super".toList, chain_of_name (mem_names_of_isPropertyName (by decide) (by decide)), rfl⟩
  | member object property optional =>
    simp only [isWellFormed, Bool.and_eq_true] at he
    simp only [isPlain, Bool.and_eq_true, Bool.not_eq_true', List.contains_eq_mem,
      decide_eq_false_iff_not] at hp
    obtain ⟨t, ht, hprint⟩ := exists_chain object he.1.1 hp.1
    refine ⟨t ++ ((memberMark optional).toList ++ property.toList), chain_of_member ht
      (memberMark_mem optional) (mem_names_of_isPropertyName he.1.2 hp.2), ?_⟩
    rw [toList_member, hprint, startsNew, List.append_assoc]
  | call callee given optional =>
    simp only [isWellFormed, Bool.and_eq_true] at he
    obtain ⟨t, ht, hprint⟩ := exists_chain callee he.1.1 hp
    refine ⟨t ++ ((callMark optional).toList ++ '(' :: (inner given ++ [')'])),
      chain_of_group ht (callMark_mem optional)
        (mem_groups_of_balanced (balanced_inner given he.2)), ?_⟩
    rw [toList_call, hprint, startsNew, List.append_assoc]
  | construct path given =>
    simp only [isWellFormed, Bool.and_eq_true, Bool.not_eq_true', List.isEmpty_eq_false_iff,
      List.all_eq_true] at he
    obtain ⟨⟨hne, hpath⟩, hgiven⟩ := he
    have hgroup := mem_groups_of_balanced (balanced_inner given hgiven)
    refine ⟨(".".intercalate path).toList ++ ([] ++ '(' :: (inner given ++ [')'])),
      chain_of_group (chain_of_path hne hpath) (Or.inl rfl) hgroup, ?_⟩
    rw [toList_construct]
    simp [startsNew]

/-! A dollar sign ends the search. -/

theorem solid_word {word : String} (h : isPropertyName word = true) :
    Solid word.toList.reverse := by
  cases hr : word.toList.reverse with
  | nil =>
    have := length_pos_of_isPropertyName h
    rw [← List.length_reverse, hr] at this
    simp at this
  | cons c more =>
    have hmem : c ∈ word.toList := by
      rw [← List.mem_reverse, hr]
      simp
    have hc := isPart_of_mem h hmem
    refine ⟨c, more, rfl, ?_, ?_⟩ <;> rintro rfl <;> exact absurd hc (by decide)

theorem solid_print (e : Phrase) (he : e.isWellFormed = true) : Solid e.print.toList.reverse := by
  cases e with
  | identifier name => exact solid_word (isPropertyName_of_isValueName he)
  | this => exact solid_word (by decide)
  | super => exact solid_word (by decide)
  | member object property optional =>
    simp only [isWellFormed, Bool.and_eq_true] at he
    rw [toList_member, List.reverse_append, List.reverse_append]
    exact ((solid_word he.1.2).append _).append _
  | call callee given optional => simp [toList_call, Solid]
  | construct path given => simp [toList_construct, Solid]

/-- A part of a word is taken for an expression of its own where a dollar sign stands before it. -/
theorem lt_length_of_dollar {b more out : List Char} (hb : ∀ c ∈ b, Text.isNameChar c = true)
    (h : Scan.expression? (b.reverse ++ '$' :: more) = some out) : more.length < out.length := by
  -- what is left of the run, with the dollar sign, begins with a part of a word
  have hpart : ∀ c cs run, (∀ d ∈ run, d ∈ b) → run ++ '$' :: more = c :: cs →
      isPart c = true := by
    intro c cs run hrun he
    cases run with
    | nil =>
      obtain rfl : '$' = c := (List.cons.inj he).1
      decide
    | cons d ds =>
      obtain rfl : d = c := (List.cons.inj he).1
      simp [isPart, hb d (hrun d (by simp))]
  have hgroup : group? (b.reverse ++ '$' :: more) = none := by
    cases he : b.reverse ++ '$' :: more with
    | nil => rfl
    | cons c cs =>
      refine group?_of_not_isClosing ?_ cs
      simp [Bracket.isClosing, ofChar?_of_isPart (hpart c cs b.reverse (by simp) he)]
  rw [expression?_step, hgroup] at h
  cases hi : identifier? (b.reverse ++ '$' :: more) with
  | none => simp [hi] at h
  | some rest =>
    obtain ⟨⟨i, hmem, he⟩, -⟩ := identifier?_eq_some.mp hi
    obtain ⟨run, hrun, rfl⟩ : ∃ run, (∀ d ∈ run, d ∈ b) ∧ rest = run ++ '$' :: more := by
      rcases List.append_eq_append_iff.mp he with ⟨beyond, hbeyond, hrest⟩ | ⟨run, hrun, hrest⟩
      · cases beyond with
        | nil => exact ⟨[], by simp, hrest.symm⟩
        | cons d ds =>
          obtain rfl : '$' = d := (List.cons.inj hrest).1
          have hdollar : '$' ∈ i := by
            rw [← List.mem_reverse, hbeyond]
            simp
          exact absurd (isNameChar_of_mem_names hmem hdollar) (by decide)
      · refine ⟨run, ?_, hrest⟩
        intro d hd
        rw [← List.mem_reverse, hrun]
        exact List.mem_append_right _ hd
    have hmark : memberMark? (run ++ '$' :: more) = none := by
      cases hm : memberMark? (run ++ '$' :: more) with
      | none => rfl
      | some further =>
        obtain ⟨d, hd, hshape⟩ := memberMark?_eq_some hm
        have hdot : run ++ '$' :: more = '.' :: (d.reverse.tail ++ further) := by
          rcases mem_memberMarks.mp hd with rfl | rfl <;> simpa using hshape
        exact absurd (hpart _ _ run hrun hdot) (by decide)
    have hnew : newKeyword? (run ++ '$' :: more) = none := by
      cases hm : newKeyword? (run ++ '$' :: more) with
      | none => rfl
      | some further =>
        obtain ⟨blanks, hne, hblank, hshape, -⟩ := newKeyword?_eq_some.mp hm
        rw [List.reverse_append, List.append_assoc] at hshape
        obtain ⟨c, cs, hc⟩ := List.exists_cons_of_ne_nil (mt List.reverse_eq_nil_iff.mp hne)
        have hpartc := hpart c _ run hrun (by rw [hshape, hc]; rfl)
        have hblankc := hblank c (by rw [← List.mem_reverse, hc]; simp)
        rw [isBlank_of_isPart hpartc] at hblankc
        exact absurd hblankc (by simp)
    simp only [hi, hmark, hnew, Option.getD_none, Option.some.injEq] at h
    subst h
    simp only [List.length_append, List.length_cons]
    omega

theorem exists_last_dollar {t : List Char} (hd : '$' ∈ t)
    (ht : ∀ c ∈ t, isPart c = true) :
    ∃ a b, t = a ++ '$' :: b ∧ ∀ c ∈ b, Text.isNameChar c = true := by
  induction t with
  | nil => simp at hd
  | cons c cs ih =>
    by_cases hcs : '$' ∈ cs
    · obtain ⟨a, b, rfl, hb⟩ := ih hcs fun d hd => ht d (List.mem_cons_of_mem c hd)
      exact ⟨c :: a, b, rfl, hb⟩
    · obtain rfl : '$' = c := by simpa [hcs] using hd
      refine ⟨[], cs, rfl, ?_⟩
      intro d hmem
      have hne : d ≠ '$' := fun heq => hcs (heq ▸ hmem)
      simpa [isPart, hne] using ht d (List.mem_cons_of_mem _ hmem)

theorem lt_length_of_not_isPlain (e : Phrase) (he : e.isWellFormed = true)
    (hp : e.isPlain = false) {rest out : List Char}
    (h : Scan.expression? (e.print.toList.reverse ++ rest) = some out) :
    rest.length < out.length := by
  match e with
  | identifier name => exact absurd hp (by simp [isPlain])
  | this => exact absurd hp (by simp [isPlain])
  | super => exact absurd hp (by simp [isPlain])
  | construct path given => exact absurd hp (by simp [isPlain])
  | member object property optional =>
    simp only [isWellFormed, Bool.and_eq_true] at he
    rw [toList_member, List.reverse_append, List.reverse_append, List.append_assoc,
      List.append_assoc] at h
    by_cases hdollar : '$' ∈ property.toList
    · obtain ⟨a, b, hab, hb⟩ := exists_last_dollar hdollar fun c hc => isPart_of_mem he.1.2 hc
      have hshape : ∀ more,
          (a ++ '$' :: b).reverse ++ more = b.reverse ++ '$' :: (a.reverse ++ more) := by simp
      rw [hab, hshape] at h
      have := lt_length_of_dollar hb h
      simp only [List.length_append] at this
      omega
    · have hobject : object.isPlain = false := by simpa [isPlain, hdollar] using hp
      rw [expression?_member (mem_names_of_isPropertyName he.1.2 hdollar) (memberMark_mem optional)
        ((solid_print object he.1.1).append rest)] at h
      exact lt_length_of_not_isPlain object he.1.1 hobject h
  | call callee given optional =>
    simp only [isWellFormed, Bool.and_eq_true] at he
    rw [toList_call, List.reverse_append, List.reverse_append, List.append_assoc, List.append_assoc,
      expression?_group (mem_groups_of_balanced (balanced_inner given he.2)) (callMark_mem optional)
        ((solid_print callee he.1.1).append rest)] at h
    exact lt_length_of_not_isPlain callee he.1.1 hp h

/-! Where an expression begins. -/

theorem word?_print (e : Phrase) (he : e.isWellFormed = true) (rest : List Char) (hr : Stops rest) :
    ∃ word more, word? (e.print.toList ++ rest) = some (word, more) ∧
      (word = "new" ↔ e.startsNew = true) := by
  match e with
  | identifier name =>
    rw [isWellFormed] at he
    refine ⟨name, rest, word?_append (isPropertyName_of_isValueName he) hr, ?_⟩
    have hne : name ≠ "new" := by
      rintro rfl
      exact absurd he (by decide)
    simp [startsNew, hne]
  | this => exact ⟨"this", rest, word?_append (by decide) hr, by decide⟩
  | super => exact ⟨"super", rest, word?_append (by decide) hr, by decide⟩
  | member object property optional =>
    simp only [isWellFormed, Bool.and_eq_true] at he
    rw [toList_member, List.append_assoc, List.append_assoc]
    exact word?_print object he.1.1 _ (stops_memberMark optional _)
  | call callee given optional =>
    simp only [isWellFormed, Bool.and_eq_true] at he
    rw [toList_call, List.append_assoc, List.append_assoc]
    exact word?_print callee he.1.1 _ (stops_callMark optional _)
  | construct path given =>
    rw [toList_construct, List.append_assoc]
    exact ⟨"new", _, word?_append (by decide) (stops_cons (by decide) _), by simp [startsNew]⟩

theorem not_isPart_of_isBlank {c : Char} (h : Text.isBlank c = true) :
    isPart c = false := by
  by_contra hp
  rw [Bool.not_eq_false] at hp
  rw [isBlank_of_isPart hp] at h
  exact absurd h (by simp)

/-- An expression that does not begin with `new` is no `new` with blanks and a text after it. -/
theorem print_ne_new {e : Phrase} (he : e.isWellFormed = true) (hnew : e.startsNew = false)
    {blanks t : List Char} (hne : blanks ≠ []) (hblank : ∀ c ∈ blanks, Text.isBlank c = true) :
    e.print.toList ≠ ['n', 'e', 'w'] ++ (blanks ++ t) := by
  intro hprint
  obtain ⟨word, more, hword, hiff⟩ := word?_print e he [] stops_nil
  obtain ⟨c, cs, rfl⟩ := List.exists_cons_of_ne_nil hne
  have hstops : Stops (c :: cs ++ t) :=
    stops_cons (not_isPart_of_isBlank (hblank c (by simp))) (cs ++ t)
  have hfirst : word? ("new".toList ++ (c :: cs ++ t)) = some ("new", c :: cs ++ t) :=
    word?_append (by decide) hstops
  rw [List.append_nil, hprint] at hword
  have he := hword.symm.trans hfirst
  simp only [Option.some.injEq, Prod.mk.injEq] at he
  rw [hiff.mp he.1] at hnew
  exact absurd hnew (by simp)

theorem edge_blank (rest : List Char) : Edge (' ' :: rest) := by
  refine ⟨?_, ?_⟩
  · simp [show Text.isNameChar ' ' = false by decide]
  · rw [memberMark?_eq_none]
    simp

theorem newKeyword?_new (rest : List Char) : newKeyword? (' ' :: 'w' :: 'e' :: 'n' :: rest) =
    if rest.head?.any Text.isNameChar then none else some rest := by
  have hskip : skipBlanks (' ' :: 'w' :: 'e' :: 'n' :: rest) = 'w' :: 'e' :: 'n' :: rest := by
    simp [skipBlanks, show Text.isBlank ' ' = true by decide,
      show Text.isBlank 'w' = false by decide]
  simp only [newKeyword?, hskip]
  cases h : rest.head?.any Text.isNameChar <;> simp [Backward.word?, literal?, h]

theorem standsApart_iff {e : Phrase} {left : List Char} (hnew : e.startsNew = false) :
    e.StandsApart left ↔ Edge left.reverse ∧ newKeyword? left.reverse = none := by
  have hbefore : before left left.length = left.reverse := by rw [before, List.take_length]
  have hnone : newKeyword? left.reverse = none ↔ ∀ start, ¬ NewAt left start left.length := by
    rw [← hbefore]
    constructor
    · intro hnone start hat
      have hlen : (before left start).length = start := by
        have := hat.lt
        rw [before_length]
        omega
      have := (newKeyword?_before le_rfl).mpr ⟨hlen.symm ▸ hat, by rw [hlen]⟩
      exact absurd (hnone.symm.trans this) (by simp)
    · intro hat
      cases hk : newKeyword? (before left left.length) with
      | none => rfl
      | some rest => exact absurd ((newKeyword?_before le_rfl).mp hk).1 (hat _)
  rw [StandsApart, hnew, hnone, ← hbefore, edge_before]
  rfl

/-- A plain expression is found as a whole exactly where it stands apart. -/
theorem expression?_print {e : Phrase} (he : e.isWellFormed = true) (hp : e.isPlain = true)
    (left : List Char) :
    Scan.expression? (e.print.toList.reverse ++ left.reverse) = some left.reverse ↔
      e.StandsApart left := by
  obtain ⟨t, ht, hprint⟩ := exists_chain e he hp
  cases hnew : e.startsNew with
  | true =>
    have hshape : e.print.toList.reverse ++ left.reverse =
        t.reverse ++ (' ' :: 'w' :: 'e' :: 'n' :: left.reverse) := by
      rw [hprint, hnew]
      simp
    have hlast : left.reverse.head? = left.getLast? := List.head?_reverse
    have hlonger : ' ' :: 'w' :: 'e' :: 'n' :: left.reverse ≠ left.reverse := by
      intro h
      have := congrArg List.length h
      simp only [List.length_cons] at this
      omega
    rw [hshape, expression?_of_chain ht (edge_blank _), newKeyword?_new, StandsApart, hnew,
      if_pos rfl, hlast]
    cases hc : left.getLast? with
    | none => simp
    | some c => cases hname : Text.isNameChar c <;> simp [hname, hlonger]
  | false =>
    have hchain : e.print.toList ∈ chains := by
      rw [hprint, hnew]
      exact ht
    rw [standsApart_iff hnew]
    constructor
    · intro h
      obtain ⟨t', -, rest, hshape, hedge, hout⟩ := chain_of_expression? h
      cases hk : newKeyword? rest with
      | none =>
        obtain rfl : left.reverse = rest := by simpa [hk] using hout
        exact ⟨hedge, hk⟩
      | some further =>
        obtain rfl : left.reverse = further := by simpa [hk] using hout
        obtain ⟨blanks, hne, hblank, rfl, -⟩ := newKeyword?_eq_some.mp hk
        have : e.print.toList = ['n', 'e', 'w'] ++ (blanks ++ t') := by
          rw [← List.append_assoc] at hshape
          have := List.append_cancel_right hshape
          rw [← List.reverse_append, List.reverse_inj] at this
          simpa using this
        exact absurd this (print_ne_new he hnew hne hblank)
    · rintro ⟨hedge, hnone⟩
      rw [expression?_of_chain hchain hedge, hnone, Option.getD_none]

theorem at?_append (left t : List Char) (ht : t ≠ []) :
    Scan.at? (left ++ t) (left ++ t).length =
        some ⟨left.length, (left ++ t).length, t⟩ ↔
      Scan.expression? (t.reverse ++ left.reverse) = some left.reverse := by
  have hpos : 0 < (left ++ t).length := by
    rw [List.length_append]
    have := List.length_pos_iff.mpr ht
    omega
  have hbefore : before (left ++ t) (left ++ t).length = t.reverse ++ left.reverse := by
    rw [before, List.take_length, List.reverse_append]
  have hleft : before (left ++ t) left.length = left.reverse := by rw [before, List.take_left]
  rw [Scan.at?, if_pos ⟨by exact_mod_cast hpos, le_rfl⟩, Int.toNat_natCast, ← hbefore,
    Option.map_eq_some_iff]
  constructor
  · rintro ⟨rest, hrest, hspan⟩
    have hlen : rest.length = left.length := congrArg Scan.Span.start hspan
    have := ((expression?_before le_rfl).mp hrest).2
    rw [hlen, hleft] at this
    rw [hrest, this]
  · intro h
    exact ⟨left.reverse, h, by simp only [List.length_reverse, List.take_length, List.drop_left]⟩

theorem print_ne_nil {e : Phrase} (he : e.isWellFormed = true) : e.print.toList ≠ [] := by
  obtain ⟨c, cs, h, -⟩ := toList_print e he
  simp [h]

/-- Reading undoes printing, the dotted name of what is read is the text of dotted chains only, and
before any text on its left the expression is found from its end as a whole, exactly if it is plain
and stands apart. -/
theorem parse_print_and_scan (reader : SyntaxReader) (e : Phrase) (he : e.isWellFormed = true)
    (hreader : reader.Obeys e.print.toList) :
    parseWith reader e.print.toList = .ok (some e.node) ∧
    e.node.dottedName? = (if e.isDotted then some e.print else none) ∧
    ∀ left : List Char, Scan.at? (left ++ e.print.toList) (left ++ e.print.toList).length =
        some ⟨left.length, (left ++ e.print.toList).length, e.print.toList⟩ ↔
      e.isPlain = true ∧ e.StandsApart left := by
  refine ⟨parseWith_print he hreader, dottedName?_node e, ?_⟩
  intro left
  rw [at?_append left e.print.toList (print_ne_nil he)]
  cases hp : e.isPlain with
  | true => simpa using expression?_print he hp left
  | false =>
    have hne : Scan.expression? (e.print.toList.reverse ++ left.reverse) ≠ some left.reverse :=
      fun h => absurd (lt_length_of_not_isPlain e he hp h) (by omega)
    simp [hne]

def builtAndCalled : Phrase :=
  call (member (construct ["ui", "Form"] [member (member this "$size" false) "class" true,
    call (identifier "make") [] true]) "catch" false) [super] false

theorem builtAndCalled_parse_and_scan :
    builtAndCalled.isWellFormed = true ∧
    builtAndCalled.print = "new ui.Form(this.$size?.class, make?.()).catch(super)" ∧
    parseWith (.knowing [builtAndCalled.tree]) builtAndCalled.print.toList =
      .ok (some builtAndCalled.node) ∧
    builtAndCalled.node.dottedName? = none ∧
    Scan.at? ("x = ".toList ++ builtAndCalled.print.toList) 57 =
      some ⟨4, 57, builtAndCalled.print.toList⟩ := by
  have hwell : builtAndCalled.isWellFormed = true := by decide
  have hprint : builtAndCalled.print = "new ui.Form(this.$size?.class, make?.()).catch(super)" := by
    decide
  have hreader : (SyntaxReader.knowing [builtAndCalled.tree]).Obeys
      builtAndCalled.print.toList := by
    rw [← text_tree]
    refine SyntaxReader.obeys_knowing ?_ (List.mem_singleton_self _)
    simpa using .operand (isExpression_tree builtAndCalled hwell)
  have hlength : ("x = ".toList ++ builtAndCalled.print.toList).length = 57 := by
    rw [hprint]
    decide
  have hapart : builtAndCalled.StandsApart "x = ".toList := by
    intro c hc
    obtain rfl : ' ' = c := Option.some.inj hc
    decide
  obtain ⟨hparse, hname, hscan⟩ := parse_print_and_scan _ builtAndCalled hwell hreader
  have hfound := (hscan "x = ".toList).mpr ⟨by decide, hapart⟩
  rw [hlength] at hfound
  exact ⟨hwell, hprint, hparse, hname, hfound⟩

end Phrase
end Script
end ScriptSense
