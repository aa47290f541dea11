import Mathlib.Tactic.NoncommRing
import ScriptSense.Proofs.Source.Backward
import ScriptSense.Source.Scan

/-! The expressions that are found before a cursor. They form a language over characters, and what
is found at a position is exactly the text of that language which ends there and to which nothing
further on its left belongs. -/
namespace ScriptSense
namespace Scan

open Text Backward
open scoped Computability

/-- What may follow a name: a group, perhaps after the mark of an optional access. -/
def suffixes : Language Char := (1 + optionalMarks) * groups

/-- Names joined by member marks, each with its suffixes. -/
def chains : Language Char := names * suffixes∗ * (memberMarks * names * suffixes∗)∗

/-- Read from its end, a chain is a name, or a suffix after a chain, or a name that is a member of a
chain. -/
theorem chains_eq : chains = names + chains * suffixes + chains * (memberMarks * names) := by
  have hchain : chains = (names + chains * (memberMarks * names)) * suffixes∗ := by
    calc chains = names * suffixes∗ * (1 + (memberMarks * names * suffixes∗)∗ *
          (memberMarks * names * suffixes∗)) := by
          rw [Language.one_add_kstar_mul_self_eq_kstar, chains]
      _ = (names + chains * (memberMarks * names)) * suffixes∗ := by
          rw [chains]
          noncomm_ring
  calc chains = (names + chains * (memberMarks * names)) * suffixes∗ := hchain
    _ = (names + chains * (memberMarks * names)) * (1 + suffixes∗ * suffixes) := by
        rw [Language.one_add_kstar_mul_self_eq_kstar]
    _ = names + chains * (memberMarks * names) +
          (names + chains * (memberMarks * names)) * suffixes∗ * suffixes := by noncomm_ring
    _ = names + chains * suffixes + chains * (memberMarks * names) := by
        rw [← hchain]
        abel

theorem chain_of_name {i : List Char} (h : i ∈ names) : i ∈ chains := by
  rw [chains_eq]
  exact Or.inl (Or.inl h)

theorem chain_of_group {t o g : List Char} (ht : t ∈ chains) (ho : o ∈ 1 + optionalMarks)
    (hg : g ∈ groups) : t ++ (o ++ g) ∈ chains := by
  rw [chains_eq]
  exact Or.inl (Or.inr (Language.append_mem_mul ht (Language.append_mem_mul ho hg)))

theorem chain_of_member {t d i : List Char} (ht : t ∈ chains) (hd : d ∈ memberMarks)
    (hi : i ∈ names) : t ++ (d ++ i) ∈ chains := by
  rw [chains_eq]
  exact Or.inr (Language.append_mem_mul ht (Language.append_mem_mul hd hi))

theorem chain_cases {t : List Char} (h : t ∈ chains) : t ∈ names ∨
    (∃ u ∈ chains, ∃ o ∈ 1 + optionalMarks, ∃ g ∈ groups, t = u ++ (o ++ g)) ∨
    ∃ u ∈ chains, ∃ d ∈ memberMarks, ∃ i ∈ names, t = u ++ (d ++ i) := by
  rw [chains_eq] at h
  rcases h with (h | h) | h
  · exact Or.inl h
  · obtain ⟨u, hu, s, ⟨o, ho, g, hg, rfl⟩, rfl⟩ := h
    exact Or.inr (Or.inl ⟨u, hu, o, ho, g, hg, rfl⟩)
  · obtain ⟨u, hu, s, ⟨d, hd, i, hi, rfl⟩, rfl⟩ := h
    exact Or.inr (Or.inr ⟨u, hu, d, hd, i, hi, rfl⟩)

theorem solid_of_chain {t : List Char} (h : t ∈ chains) : Solid t.reverse := by
  rcases chain_cases h with h | ⟨u, -, o, -, g, hg, rfl⟩ | ⟨u, -, d, -, i, hi, rfl⟩
  · exact solid_of_mem_names h
  · rw [List.reverse_append, List.reverse_append]
    exact ((solid_of_mem_groups hg).append _).append _
  · rw [List.reverse_append, List.reverse_append]
    exact ((solid_of_mem_names hi).append _).append _

theorem ne_nil_of_chain {t : List Char} (h : t ∈ chains) : t ≠ [] := by
  rintro rfl
  obtain ⟨c, more, he, -⟩ := solid_of_chain h
  simp at he

/-- A text that nothing further belongs to: only digits continue a name, and there is no mark. -/
structure Edge (rest : List Char) : Prop where
  digits : ∀ c ∈ rest.takeWhile isNameChar, isDigit c = true
  unmarked : memberMark? rest = none

/-! Every step backward is forced by the character at hand. -/

theorem group?_of_mem_names {i : List Char} (h : i ∈ names) (rest : List Char) :
    group? (i.reverse ++ rest) = none := by
  obtain ⟨c, more, he, hc⟩ := reverse_of_mem_names h
  rw [he, List.cons_append]
  refine group?_of_not_isClosing ?_ (more ++ rest)
  by_contra hclosing
  rw [Bool.not_eq_false] at hclosing
  exact absurd hc (by simp [not_isNameChar_of_isClosing hclosing])

theorem expression?_step (behind : List Char) : expression? behind =
    match group? behind with
    | some rest => expression? (skipOptionalMark rest)
    | none =>
      match identifier? behind with
      | none => none
      | some rest =>
        match memberMark? rest with
        | some further => expression? further
        | none => some ((newKeyword? rest).getD rest) := by
  fun_cases expression? behind with
  | case1 rest hg => simp only [hg]
  | case2 hg hi => simp only [hg, hi]
  | case3 hg rest hi further hm => simp only [hg, hi, hm]
  | case4 hg rest hi hm => simp only [hg, hi, hm]

theorem expression?_name {i rest : List Char} (hi : i ∈ names) (h : Edge rest) :
    expression? (i.reverse ++ rest) = some ((newKeyword? rest).getD rest) := by
  rw [expression?_step]
  simp only [group?_of_mem_names hi, identifier?_of_mem_names hi h.digits, h.unmarked]

theorem expression?_group {g o behind : List Char} (hg : g ∈ groups)
    (ho : o ∈ 1 + optionalMarks) (h : Solid behind) :
    expression? (g.reverse ++ (o.reverse ++ behind)) = expression? behind := by
  have hgroup : group? (g.reverse ++ (o.reverse ++ behind)) = some (o.reverse ++ behind) :=
    group?_eq_some.mpr ⟨g, hg, rfl⟩
  rw [expression?_step]
  simp only [hgroup, h.skipOptionalMark ho]

theorem expression?_member {i d behind : List Char} (hi : i ∈ names) (hd : d ∈ memberMarks)
    (h : Solid behind) :
    expression? (i.reverse ++ (d.reverse ++ behind)) = expression? behind := by
  have hdigits : ∀ c ∈ (d.reverse ++ behind).takeWhile isNameChar, isDigit c = true := by
    have hdot : (d.reverse ++ behind).takeWhile isNameChar = [] := by
      rcases mem_memberMarks.mp hd with rfl | rfl <;> simp [show isNameChar '.' = false by decide]
    simp [hdot]
  rw [expression?_step]
  simp only [group?_of_mem_names hi, identifier?_of_mem_names hi hdigits, h.memberMark? hd]

theorem expression?_of_chain {t rest : List Char} (ht : t ∈ chains) (h : Edge rest) :
    expression? (t.reverse ++ rest) = some ((newKeyword? rest).getD rest) := by
  induction hn : t.length using Nat.strong_induction_on generalizing t with
  | _ n ih =>
    rcases chain_cases ht with hi | ⟨u, hu, o, ho, g, hg, rfl⟩ | ⟨u, hu, d, hd, i, hi, rfl⟩
    · exact expression?_name hi h
    · have hlt : u.length < n := by
        obtain ⟨c, more, he, -⟩ := solid_of_mem_groups hg
        have := congrArg List.length he
        simp only [List.length_reverse, List.length_cons, List.length_append] at this hn
        omega
      rw [List.reverse_append, List.reverse_append, List.append_assoc, List.append_assoc,
        expression?_group hg ho ((solid_of_chain hu).append rest)]
      exact ih u.length hlt hu rfl
    · have hlt : u.length < n := by
        obtain ⟨c, more, he, -⟩ := solid_of_mem_names hi
        have := congrArg List.length he
        simp only [List.length_reverse, List.length_cons, List.length_append] at this hn
        omega
      rw [List.reverse_append, List.reverse_append, List.append_assoc, List.append_assoc,
        expression?_member hi hd ((solid_of_chain hu).append rest)]
      exact ih u.length hlt hu rfl

/-- What is taken is a chain, up to a leading `new`, and nothing further belongs to it. -/
theorem chain_of_expression? {behind out : List Char} (h : expression? behind = some out) :
    ∃ t ∈ chains, ∃ rest, behind = t.reverse ++ rest ∧ Edge rest ∧
      out = (newKeyword? rest).getD rest := by
  fun_induction expression? behind with
  | case1 behind rest hg ih =>
    obtain ⟨g, hmem, rfl⟩ := group?_eq_some.mp hg
    obtain ⟨o, ho, hrest⟩ := skipOptionalMark_eq rest
    obtain ⟨t, ht, last, he, hedge, hout⟩ := ih h
    refine ⟨t ++ (o ++ g), chain_of_group ht ho hmem, last, ?_, hedge, hout⟩
    rw [hrest, he]
    simp
  | case2 behind hg hi => exact absurd h (by simp)
  | case3 behind hg rest hi further hm ih =>
    obtain ⟨⟨i, hmem, rfl⟩, -⟩ := identifier?_eq_some.mp hi
    obtain ⟨d, hd, rfl⟩ := memberMark?_eq_some hm
    obtain ⟨t, ht, last, rfl, hedge, hout⟩ := ih h
    exact ⟨t ++ (d ++ i), chain_of_member ht hd hmem, last, by simp, hedge, hout⟩
  | case4 behind hg rest hi hm =>
    obtain ⟨⟨i, hmem, rfl⟩, hdigits⟩ := identifier?_eq_some.mp hi
    exact ⟨i, chain_of_name hmem, rest, rfl, ⟨hdigits, hm⟩, (Option.some.inj h).symm⟩

/-! Positions in a source. -/

def slice (source : List Char) (start stop : Nat) : List Char := (source.take stop).drop start

/-- Nothing to the left of a position belongs to an expression that begins there: a run of name
characters that ends there consists of digits, and neither `?.` ends there nor a dot that follows no
dot. -/
structure Begins (source : List Char) (a : Nat) : Prop where
  digits : ∀ run, run <:+ source.take a → (∀ c ∈ run, isNameChar c = true) →
    ∀ c ∈ run, isDigit c = true
  optional : ¬ ['?', '.'] <:+ source.take a
  dot : ['.'] <:+ source.take a → ['.', '.'] <:+ source.take a

/-- The whole word `new` stands at `start`, and nothing but blanks between it and `a`. -/
structure NewAt (source : List Char) (start a : Nat) : Prop where
  word : ∃ blanks, blanks ≠ [] ∧ (∀ c ∈ blanks, isBlank c = true) ∧
    slice source start a = ['n', 'e', 'w'] ++ blanks
  whole : ∀ c, (source.take start).getLast? = some c → isNameChar c = false

/-- An expression reaches from `start` to `stop`: a chain, with the `new` before it if there is
one. -/
def Reaches (source : List Char) (start stop : Nat) : Prop :=
  ∃ a, start ≤ a ∧ slice source a stop ∈ chains ∧ Begins source a ∧
    (NewAt source start a ∨ (∀ s, ¬ NewAt source s a) ∧ start = a)

theorem before_eq_append (source : List Char) {a n : Nat} (h : a ≤ n) :
    before source n = (slice source a n).reverse ++ before source a := by
  rw [before, before, slice, ← List.reverse_append]
  congr 1
  rw [← Nat.min_eq_left h, ← List.take_take, Nat.min_eq_left h, List.take_append_drop]

theorem eq_of_before_eq_append {source t rest : List Char} {n : Nat} (hn : n ≤ source.length)
    (h : before source n = t.reverse ++ rest) :
    rest.length ≤ n ∧ slice source rest.length n = t ∧ rest = before source rest.length := by
  have htake : source.take n = rest.reverse ++ t := by
    rw [before] at h
    rw [← List.reverse_inj, h]
    simp
  have hlen : rest.length + t.length = n := by
    have := congrArg List.length htake
    simp only [List.length_take, List.length_append, List.length_reverse] at this
    omega
  have hle : rest.length ≤ n := by omega
  refine ⟨hle, ?_, ?_⟩
  · rw [slice, htake, ← List.length_reverse, List.drop_left]
  · rw [before, ← Nat.min_eq_left hle, ← List.take_take, htake]
    rw [← List.length_reverse, List.take_left, List.reverse_reverse]

theorem edge_before {source : List Char} {a : Nat} : Edge (before source a) ↔ Begins source a := by
  have hrev : ∀ t : List Char, t.reverse <+: before source a ↔ t <:+ source.take a :=
    fun t => List.reverse_prefix
  have hmark : memberMark? (before source a) = none ↔ ¬ ['?', '.'] <:+ source.take a ∧
      (['.'] <:+ source.take a → ['.', '.'] <:+ source.take a) := by
    rw [memberMark?_eq_none, ← hrev, ← hrev, ← hrev]
    rfl
  constructor
  · rintro ⟨hdigits, hnone⟩
    obtain ⟨hopt, hdot⟩ := hmark.mp hnone
    refine ⟨?_, hopt, hdot⟩
    intro run hrun hchars c hc
    obtain ⟨more, hmore⟩ := (hrev run).mpr hrun
    refine hdigits c ?_
    rw [← hmore, List.takeWhile_append_of_pos]
    · exact List.mem_append_left _ (List.mem_reverse.mpr hc)
    · intro d hd
      exact hchars d (List.mem_reverse.mp hd)
  · rintro ⟨hdigits, hopt, hdot⟩
    refine ⟨?_, hmark.mpr ⟨hopt, hdot⟩⟩
    intro c hc
    refine hdigits ((before source a).takeWhile isNameChar).reverse ?_ ?_ c
      (List.mem_reverse.mpr hc)
    · rw [← hrev, List.reverse_reverse]
      exact List.takeWhile_prefix _
    · intro d hd
      exact List.mem_takeWhile_imp (List.mem_reverse.mp hd)

theorem lt_of_slice_ne_nil (source : List Char) {start stop : Nat}
    (h : slice source start stop ≠ []) : start < stop := by
  have := List.length_pos_iff.mpr h
  simp only [slice, List.length_drop, List.length_take] at this
  omega

theorem NewAt.lt {source : List Char} {start a : Nat} (h : NewAt source start a) : start < a := by
  obtain ⟨blanks, -, -, hslice⟩ := h.word
  exact lt_of_slice_ne_nil source (by simp [hslice])

theorem newKeyword?_before {source : List Char} {a : Nat} (ha : a ≤ source.length)
    {rest : List Char} : newKeyword? (before source a) = some rest ↔
      NewAt source rest.length a ∧ rest = before source rest.length := by
  have hhead : ∀ n, (before source n).head? = (source.take n).getLast? :=
    fun n => List.head?_reverse
  rw [newKeyword?_eq_some]
  constructor
  · rintro ⟨blanks, hne, hblank, he, hwhole⟩
    obtain ⟨-, hslice, hrest⟩ := eq_of_before_eq_append ha he
    refine ⟨⟨⟨blanks, hne, hblank, hslice⟩, ?_⟩, hrest⟩
    rw [← hhead, ← hrest]
    exact hwhole
  · rintro ⟨hnew, hrest⟩
    obtain ⟨blanks, hne, hblank, hslice⟩ := hnew.word
    refine ⟨blanks, hne, hblank, ?_, ?_⟩
    · rw [before_eq_append source hnew.lt.le, hslice, ← hrest]
    · rw [hrest, hhead]
      exact hnew.whole

theorem newKeyword?_getD_before {source : List Char} {a : Nat} (ha : a ≤ source.length)
    {out : List Char} : out = (newKeyword? (before source a)).getD (before source a) ↔
      (NewAt source out.length a ∨ (∀ s, ¬ NewAt source s a) ∧ out.length = a) ∧
        out = before source out.length := by
  have hlen : ∀ n ≤ a, (before source n).length = n := by
    intro n hn
    rw [before_length]
    omega
  cases hk : newKeyword? (before source a) with
  | some rest =>
    obtain ⟨hnew, hrest⟩ := (newKeyword?_before ha).mp hk
    constructor
    · rintro rfl
      exact ⟨Or.inl hnew, hrest⟩
    · rintro ⟨hnew' | ⟨hnone, -⟩, hout⟩
      · have := (newKeyword?_before ha).mpr ⟨hnew', hout⟩
        exact Option.some.inj (this.symm.trans hk)
      · exact absurd hnew (hnone _)
  | none =>
    have hnone : ∀ s, ¬ NewAt source s a := by
      intro s hnew
      have hs : (before source s).length = s := hlen s hnew.lt.le
      have := (newKeyword?_before ha).mpr ⟨hs.symm ▸ hnew, by rw [hs]⟩
      exact absurd (this.symm.trans hk) (by simp)
    constructor
    · rintro rfl
      exact ⟨Or.inr ⟨hnone, hlen a le_rfl⟩, by rw [Option.getD_none, hlen a le_rfl]⟩
    · rintro ⟨hnew | ⟨-, he⟩, hout⟩
      · exact absurd hnew (hnone _)
      · rw [hout, he, Option.getD_none]

theorem expression?_before {source : List Char} {n : Nat} (hn : n ≤ source.length)
    {out : List Char} : expression? (before source n) = some out ↔
      Reaches source out.length n ∧ out = before source out.length := by
  constructor
  · intro h
    obtain ⟨t, ht, rest, hbehind, hedge, hout⟩ := chain_of_expression? h
    obtain ⟨hle, rfl, hrest⟩ := eq_of_before_eq_append hn hbehind
    rw [hrest] at hedge hout
    obtain ⟨hstart, hout⟩ := (newKeyword?_getD_before (hle.trans hn)).mp hout
    refine ⟨⟨rest.length, ?_, ht, edge_before.mp hedge, hstart⟩, hout⟩
    rcases hstart with hnew | ⟨-, he⟩
    · exact hnew.lt.le
    · exact he.le
  · rintro ⟨⟨a, -, ht, hbegins, hstart⟩, hout⟩
    have hlt : a < n := lt_of_slice_ne_nil source (ne_nil_of_chain ht)
    rw [before_eq_append source hlt.le, expression?_of_chain ht (edge_before.mpr hbegins)]
    rw [← (newKeyword?_getD_before (hlt.le.trans hn)).mpr ⟨hstart, hout⟩]

theorem Reaches.expression? {source : List Char} {start n : Nat} (hn : n ≤ source.length)
    (h : Reaches source start n) : (before source start).length = start ∧
      Scan.expression? (before source n) = some (before source start) := by
  have hlen : (before source start).length = start := by
    obtain ⟨a, hle, ht, -⟩ := h
    have hlt : a < n := lt_of_slice_ne_nil source (ne_nil_of_chain ht)
    rw [before_length]
    omega
  exact ⟨hlen, (expression?_before hn).mpr ⟨hlen.symm ▸ h, by rw [hlen]⟩⟩

/-- What is found at a position is the expression that reaches there. There is at most one, and
where there is none, or the position lies outside the source, nothing is found. -/
theorem at?_eq_some_iff_reaches (source : List Char) (position : Int) :
    (∀ span, at? source position = some span ↔ (0 < position ∧ position ≤ source.length) ∧
      Reaches source span.start position.toNat ∧ (span.stop : Int) = position ∧
      span.text = slice source span.start position.toNat) ∧
    (0 < position ∧ position ≤ source.length → ∀ start other,
      Reaches source start position.toNat → Reaches source other position.toNat → start = other) ∧
    (at? source position = none ↔ ¬ ((0 < position ∧ position ≤ source.length) ∧
      ∃ start, Reaches source start position.toNat)) := by
  by_cases hp : 0 < position ∧ position ≤ source.length
  · obtain ⟨n, rfl⟩ := Int.eq_ofNat_of_zero_le hp.1.le
    have hn : n ≤ source.length := by exact_mod_cast hp.2
    have hat : at? source n = (expression? (before source n)).map fun rest =>
        ⟨rest.length, n, slice source rest.length n⟩ := by
      rw [at?, if_pos hp]
      rfl
    simp only [hp, true_and, Int.toNat_natCast, hat]
    refine ⟨?_, ?_, ?_⟩
    · intro span
      constructor
      · intro h
        obtain ⟨rest, hrest, rfl⟩ := Option.map_eq_some_iff.mp h
        exact ⟨((expression?_before hn).mp hrest).1, rfl, rfl⟩
      · rintro ⟨hreach, hstop, htext⟩
        obtain ⟨hlen, he⟩ := hreach.expression? hn
        obtain ⟨start, stop, text⟩ := span
        obtain rfl : stop = n := by exact_mod_cast hstop
        simp_all
    · intro _ start other h h'
      obtain ⟨hlen, he⟩ := h.expression? hn
      obtain ⟨hlen', he'⟩ := h'.expression? hn
      rw [← hlen, ← hlen', Option.some.inj (he.symm.trans he')]
    · rw [Option.map_eq_none_iff]
      constructor
      · rintro hnone ⟨start, h⟩
        rw [(h.expression? hn).2] at hnone
        exact absurd hnone (by simp)
      · intro hnone
        cases he : expression? (before source n) with
        | none => rfl
        | some out => exact absurd ⟨_, ((expression?_before hn).mp he).1⟩ hnone
  · simp [at?, hp]

end Scan
end ScriptSense
