import Mathlib.Computability.Language
import Mathlib.Data.List.TakeWhile
import ScriptSense.Proofs.Source.Partner
import ScriptSense.Source.Backward

/-! What is taken off the end of a text: each reader takes exactly the pieces of one language, and
the text behind the cursor leaves no choice between them. -/
namespace ScriptSense

namespace Bracket

theorem partnerDistance_congr {opens : Bool} {stack : List Shape} {text other : List Char} {n : Nat}
    (h : partnerDistance opens stack text = some n)
    (same : text.take (n + 1) = other.take (n + 1)) :
    partnerDistance opens stack other = some n := by
  induction text generalizing stack other n with
  | nil => simp [partnerDistance] at h
  | cons c cs ih =>
    obtain ⟨ds, rfl, hds⟩ : ∃ ds, other = c :: ds ∧ cs.take n = ds.take n := by
      cases other with
      | nil => simp at same
      | cons d ds =>
        simp only [List.take_succ_cons, List.cons.injEq] at same
        exact ⟨ds, by rw [same.1], same.2⟩
    -- all recursive calls go on behind `c` and find a partner one character nearer
    have further : ∀ {below : List Shape},
        (partnerDistance opens below cs).map (· + 1) = some n →
        (partnerDistance opens below ds).map (· + 1) = some n := by
      intro below hb
      obtain ⟨k, hk, rfl⟩ := Option.map_eq_some_iff.mp hb
      rw [ih hk hds]
      rfl
    simp only [partnerDistance] at h ⊢
    split at h
    · exact further h
    · split at h
      · rename_i b _ hb
        rw [if_pos hb]
        exact further h
      · rename_i b _ hb
        rw [if_neg hb]
        split at h
        · exact absurd h (by simp)
        · split at h
          · exact absurd h (by simp)
          · rename_i hshape
            rw [if_neg hshape]
            split at h
            · rename_i hlast
              rw [if_pos hlast]
              exact h
            · rename_i hlast
              rw [if_neg hlast]
              exact further h

/-- Texts whose round brackets are in order and that have no others. -/
inductive Balanced : List Char → Prop
  | nil : Balanced []
  | plain {c : Char} (h : ofChar? c = none) : Balanced [c]
  | append {t u : List Char} (ht : Balanced t) (hu : Balanced u) : Balanced (t ++ u)
  | enclosed {t : List Char} (ht : Balanced t) : Balanced ('(' :: (t ++ [')']))

theorem Balanced.of_forall {t : List Char} (h : ∀ c ∈ t, ofChar? c = none) : Balanced t := by
  induction t with
  | nil => exact .nil
  | cons c cs ih =>
    exact .append (.plain (h c (by simp))) (ih fun d hd => h d (List.mem_cons_of_mem c hd))

theorem Balanced.nested {t : List Char} (h : Balanced t) : Nested true t := by
  induction h with
  | nil => exact .nil
  | plain hc => exact .plain hc .nil
  | append _ _ iht ihu => exact iht.append ihu
  | enclosed _ ih =>
    have hfirst : ofChar? '(' = some ⟨.round, true⟩ := rfl
    exact .group hfirst rfl ih .nil

theorem Balanced.partnerDistance {t : List Char} (h : Balanced t) (top : Shape)
    (below : List Shape) (more : List Char) :
    Bracket.partnerDistance false (top :: below) (t.reverse ++ more) =
      (Bracket.partnerDistance false (top :: below) more).map (· + t.length) := by
  have hbackward : Nested false t.reverse := h.nested.reverse
  rw [hbackward.partnerDistance, List.length_reverse]

end Bracket

namespace Backward

open Text

def names : Language Char := {t | isIdentifier t = true}

/-- Texts in brackets: the partner of the last character is the first one. -/
def groups : Language Char := {t | Bracket.partner? t (t.length - 1) = .ok (some 0)}

def optionalMarks : Language Char := {['?', '.']}

def memberMarks : Language Char := {['.']} + optionalMarks

theorem mem_groups {t : List Char} : t ∈ groups ↔ ∃ inner c shape, t = inner ++ [c] ∧
    Bracket.ofChar? c = some ⟨shape, false⟩ ∧
    Bracket.partnerDistance false [shape] inner.reverse = some (inner.length - 1) := by
  change Bracket.partner? t (t.length - 1) = .ok (some 0) ↔ _
  rcases List.eq_nil_or_concat t with rfl | ⟨inner, c, rfl⟩
  · simp [Bracket.partner?]
  · have hpos : ((inner.concat c).length : Int) - 1 = inner.length := by simp
    have hget : (inner.concat c)[inner.length]? = some c := by simp
    have hdrop : (inner.concat c).drop inner.length = [c] := by simp
    have htake : (inner.concat c).take inner.length = inner := by simp
    rw [hpos, Bracket.partner?, if_pos (by omega), Int.toNat_natCast, hget]
    simp only [Bracket.partnerAt?, hdrop, htake]
    constructor
    · intro h
      split at h
      · rename_i hb
        cases hc : Bracket.ofChar? c with
        | none => simp [hc] at hb
        | some b =>
          obtain ⟨shape, opens⟩ := b
          cases opens with
          | true => simp [hc, Bracket.partnerDistance] at h
          | false =>
            simp only [hc, Except.ok.injEq] at h
            obtain ⟨n, hn, hz⟩ := Option.map_eq_some_iff.mp h
            have hlt := Bracket.partnerDistance_lt hn
            rw [List.length_reverse] at hlt
            have he : n = inner.length - 1 := by omega
            exact ⟨inner, c, shape, by simp, hc, he ▸ hn⟩
      · exact absurd h (by simp)
    · rintro ⟨inner', c', shape, he, hc, hd⟩
      obtain ⟨rfl, rfl⟩ : inner = inner' ∧ c = c' := by simpa using he
      simp [hc, hd]

theorem group?_eq_some {behind rest : List Char} :
    group? behind = some rest ↔ ∃ g ∈ groups, behind = g.reverse ++ rest := by
  constructor
  · intro h
    unfold group? at h
    split at h
    · exact absurd h (by simp)
    · rename_i c more
      split at h
      · rename_i shape hc
        obtain ⟨n, hn, rfl⟩ := Option.map_eq_some_iff.mp h
        have hlt := Bracket.partnerDistance_lt hn
        refine ⟨(more.take (n + 1)).reverse ++ [c], mem_groups.mpr ⟨_, c, shape, rfl, hc, ?_⟩, ?_⟩
        · have hlen : (more.take (n + 1)).reverse.length - 1 = n := by
            simp only [List.length_reverse, List.length_take]
            omega
          rw [List.reverse_reverse, hlen]
          exact Bracket.partnerDistance_congr hn (by simp)
        · simp
      · exact absurd h (by simp)
  · rintro ⟨g, hg, rfl⟩
    obtain ⟨inner, c, shape, rfl, hc, hd⟩ := mem_groups.mp hg
    have hlt := Bracket.partnerDistance_lt hd
    rw [List.length_reverse] at hlt
    have hone : inner.length - 1 + 1 = inner.length := by omega
    have hlen : inner.reverse.length = inner.length := List.length_reverse
    have hfar : Bracket.partnerDistance false [shape] (inner.reverse ++ rest) =
        some (inner.length - 1) := by
      refine Bracket.partnerDistance_congr hd ?_
      rw [hone, ← hlen, List.take_left, List.take_length]
    have hshape : (inner ++ [c]).reverse ++ rest = c :: (inner.reverse ++ rest) := by simp
    rw [hshape]
    simp only [group?, hc, hfar, Option.map_some, hone]
    rw [← hlen, List.drop_left]

theorem reverse_of_mem_groups {g : List Char} (h : g ∈ groups) :
    ∃ c more, g.reverse = c :: more ∧ Bracket.isClosing c = true := by
  obtain ⟨inner, c, shape, rfl, hc, -⟩ := mem_groups.mp h
  exact ⟨c, inner.reverse, by simp, by simp [Bracket.isClosing, hc]⟩

theorem mem_groups_of_balanced {t : List Char} (h : Bracket.Balanced t) :
    '(' :: (t ++ [')']) ∈ groups := by
  refine mem_groups.mpr ⟨'(' :: t, ')', .round, rfl, rfl, ?_⟩
  rw [List.reverse_cons, h.partnerDistance]
  simp [Bracket.partnerDistance, Bracket.ofChar?]

theorem group?_of_not_isClosing {c : Char} (h : Bracket.isClosing c = false) (behind : List Char) :
    group? (c :: behind) = none := by
  rw [Bracket.isClosing] at h
  rw [group?]
  split
  · rename_i shape hc
    simp [hc] at h
  · rfl

/-! Identifiers. -/

theorem mem_names {t : List Char} :
    t ∈ names ↔ ∃ c cs, t = c :: cs ∧ isNameStart c = true ∧ ∀ d ∈ cs, isNameChar d = true := by
  change isIdentifier t = true ↔ _
  cases t with
  | nil => simp [isIdentifier]
  | cons c cs =>
    rw [isIdentifier, Bool.and_eq_true, List.all_eq_true]
    constructor
    · intro h
      exact ⟨c, cs, rfl, h⟩
    · rintro ⟨c', cs', he, h⟩
      obtain ⟨rfl, rfl⟩ := List.cons.inj he
      exact h

theorem isNameChar_of_mem_names {i : List Char} (h : i ∈ names) {c : Char} (hc : c ∈ i) :
    isNameChar c = true := by
  obtain ⟨d, ds, rfl, hd, hds⟩ := mem_names.mp h
  rcases List.mem_cons.mp hc with rfl | hc
  · exact isNameChar_of_isNameStart hd
  · exact hds c hc

theorem reverse_of_mem_names {i : List Char} (h : i ∈ names) :
    ∃ c more, i.reverse = c :: more ∧ isNameChar c = true := by
  cases he : i.reverse with
  | nil =>
    obtain ⟨c, cs, rfl, -⟩ := mem_names.mp h
    simp at he
  | cons c more =>
    have hc : c ∈ i := by
      rw [← List.mem_reverse, he]
      simp
    exact ⟨c, more, rfl, isNameChar_of_mem_names h hc⟩

theorem isDigit_eq_false_of_isNameStart {c : Char} (h : isNameStart c = true) :
    isDigit c = false := by
  by_contra hd
  rw [Bool.not_eq_false] at hd
  simp only [isNameStart, isLetter, isDigit, Bool.or_eq_true, Bool.and_eq_true, decide_eq_true_eq,
    beq_iff_eq, Char.le_def, UInt32.le_iff_toNat_le] at h hd
  rcases h with (h | h) | rfl
  · have := h.1.trans hd.2
    simp at this
  · have := h.1.trans hd.2
    simp at this
  · have := hd.2
    simp at this

theorem dropWhile_isDigit_of_mem_names {i : List Char} (h : i ∈ names) :
    i.dropWhile isDigit = i := by
  obtain ⟨c, cs, rfl, hc, -⟩ := mem_names.mp h
  simp [isDigit_eq_false_of_isNameStart hc]

/-- A run of name characters without the digits that it begins with is empty or an identifier. -/
theorem dropWhile_isDigit_mem_names {run : List Char} (h : ∀ c ∈ run, isNameChar c = true)
    (hne : run.dropWhile isDigit ≠ []) : run.dropWhile isDigit ∈ names := by
  cases he : run.dropWhile isDigit with
  | nil => exact absurd he hne
  | cons c cs =>
    have hsub : ∀ d ∈ c :: cs, isNameChar d = true := by
      intro d hd
      exact h d ((List.dropWhile_suffix isDigit).subset (he ▸ hd))
    have hc : isDigit c = false := by
      have := List.head_dropWhile_not isDigit hne
      simpa [he] using this
    refine mem_names.mpr ⟨c, cs, rfl, ?_, fun d hd => hsub d (List.mem_cons_of_mem c hd)⟩
    have := hsub c (by simp)
    simpa [isNameChar, hc] using this

theorem takeWhile_dropWhile (p : Char → Bool) (t : List Char) :
    (t.dropWhile p).takeWhile p = [] := by
  cases he : t.dropWhile p with
  | nil => rfl
  | cons c cs =>
    have hne : t.dropWhile p ≠ [] := by simp [he]
    have hc : p c = false := by simpa [he] using List.head_dropWhile_not p hne
    simp [hc]

theorem identifier?_of_mem_names {i rest : List Char} (hi : i ∈ names)
    (hdigits : ∀ c ∈ rest.takeWhile isNameChar, isDigit c = true) :
    identifier? (i.reverse ++ rest) = some rest := by
  have hrun : (i.reverse ++ rest).takeWhile isNameChar =
      i.reverse ++ rest.takeWhile isNameChar := by
    refine List.takeWhile_append_of_pos ?_
    intro c hc
    exact isNameChar_of_mem_names hi (List.mem_reverse.mp hc)
  have hname : (i.reverse ++ rest.takeWhile isNameChar).reverse.dropWhile isDigit = i := by
    rw [List.reverse_append, List.reverse_reverse, List.dropWhile_append_of_pos,
      dropWhile_isDigit_of_mem_names hi]
    intro c hc
    exact hdigits c (List.mem_reverse.mp hc)
  have hne : i.isEmpty = false := by
    obtain ⟨c, cs, rfl, -⟩ := mem_names.mp hi
    rfl
  simp only [identifier?, hrun, hname, hne]
  rw [← List.length_reverse, List.drop_left]
  rfl

theorem identifier?_eq_some {behind rest : List Char} :
    identifier? behind = some rest ↔ (∃ i ∈ names, behind = i.reverse ++ rest) ∧
      ∀ c ∈ rest.takeWhile isNameChar, isDigit c = true := by
  constructor
  · intro h
    let run := behind.takeWhile isNameChar
    let digits := run.reverse.takeWhile isDigit
    let name := run.reverse.dropWhile isDigit
    have hparts : run = name.reverse ++ digits.reverse := by
      rw [← List.reverse_append, List.takeWhile_append_dropWhile, List.reverse_reverse]
    have hbehind : behind = name.reverse ++ (digits.reverse ++ behind.dropWhile isNameChar) := by
      rw [← List.append_assoc, ← hparts, List.takeWhile_append_dropWhile]
    have hchars : ∀ c ∈ run.reverse, isNameChar c = true := by
      intro c hc
      exact List.mem_takeWhile_imp (List.mem_reverse.mp hc)
    have hdigits : ∀ c ∈ digits.reverse, isDigit c = true := by
      intro c hc
      exact List.mem_takeWhile_imp (List.mem_reverse.mp hc)
    change (if name.isEmpty then none else some (behind.drop name.length)) = some rest at h
    split at h
    · exact absurd h (by simp)
    · rename_i hne
      have hmem : name ∈ names := dropWhile_isDigit_mem_names hchars (mt List.isEmpty_iff.mpr hne)
      have hrest : digits.reverse ++ behind.dropWhile isNameChar = rest := by
        rw [Option.some.injEq, hbehind, ← List.length_reverse, List.drop_left] at h
        exact h
      refine ⟨⟨name, hmem, hrest ▸ hbehind⟩, ?_⟩
      intro c hc
      rw [← hrest, List.takeWhile_append_of_pos, takeWhile_dropWhile, List.append_nil] at hc
      · exact hdigits c hc
      · intro d hd
        exact isNameChar_of_isDigit (hdigits d hd)
  · rintro ⟨⟨i, hi, rfl⟩, hdigits⟩
    exact identifier?_of_mem_names hi hdigits

theorem not_isNameChar_of_isClosing {c : Char} (h : Bracket.isClosing c = true) :
    isNameChar c = false := by
  rw [Bracket.isClosing, Bracket.ofChar?.eq_def] at h
  split at h <;> first | decide | simp at h

/-! Marks. -/

/-- A text, nearest character first, that is not empty and does not end like a mark. -/
def Solid (behind : List Char) : Prop :=
  ∃ c more, behind = c :: more ∧ c ≠ '.' ∧ c ≠ '?'

theorem Solid.append {behind : List Char} (h : Solid behind) (rest : List Char) :
    Solid (behind ++ rest) := by
  obtain ⟨c, more, rfl, hc⟩ := h
  exact ⟨c, more ++ rest, rfl, hc⟩

theorem solid_of_mem_names {i : List Char} (h : i ∈ names) : Solid i.reverse := by
  obtain ⟨c, more, he, hc⟩ := reverse_of_mem_names h
  refine ⟨c, more, he, ?_, ?_⟩ <;> rintro rfl <;> exact absurd hc (by decide)

theorem solid_of_mem_groups {g : List Char} (h : g ∈ groups) : Solid g.reverse := by
  obtain ⟨c, more, he, hc⟩ := reverse_of_mem_groups h
  refine ⟨c, more, he, ?_, ?_⟩ <;> rintro rfl <;> exact absurd hc (by decide)

theorem mem_memberMarks {t : List Char} : t ∈ memberMarks ↔ t = ['.'] ∨ t = ['?', '.'] := Iff.rfl

theorem memberMark?_eq_some {behind rest : List Char} (h : memberMark? behind = some rest) :
    ∃ d ∈ memberMarks, behind = d.reverse ++ rest := by
  unfold memberMark? at h
  split at h
  · obtain rfl := Option.some.inj h
    exact ⟨['?', '.'], mem_memberMarks.mpr (Or.inr rfl), rfl⟩
  · split at h
    · exact absurd h (by simp)
    · obtain rfl := Option.some.inj h
      exact ⟨['.'], mem_memberMarks.mpr (Or.inl rfl), rfl⟩
  · exact absurd h (by simp)

theorem Solid.memberMark? {rest : List Char} (h : Solid rest) {d : List Char}
    (hd : d ∈ memberMarks) : Backward.memberMark? (d.reverse ++ rest) = some rest := by
  obtain ⟨c, more, rfl, hdot, hmark⟩ := h
  rcases mem_memberMarks.mp hd with rfl | rfl
  · change Backward.memberMark? ('.' :: c :: more) = some (c :: more)
    unfold Backward.memberMark?
    split
    · rename_i he
      simp_all
    · rename_i he
      obtain rfl := (List.cons.inj he).2
      rw [if_neg (by simpa using hdot)]
    · rename_i hany
      exact absurd rfl (hany (c :: more))
  · rfl

/-- There is no member mark at the end if there is no `?.`, and no dot but one after a dot. -/
theorem memberMark?_eq_none {behind : List Char} : memberMark? behind = none ↔
    ¬ ['.', '?'] <+: behind ∧ (['.'] <+: behind → ['.', '.'] <+: behind) := by
  unfold memberMark?
  split
  · simp
  · rename_i rest hne
    have hq : ¬ ['.', '?'] <+: '.' :: rest := by
      rintro ⟨more, hm⟩
      exact hne more (List.cons.inj hm).2.symm
    cases rest with
    | nil => simp
    | cons c cs => simp_all [eq_comm]
  · rename_i hone hmany
    have hdot : ¬ ['.'] <+: behind := by
      rintro ⟨more, rfl⟩
      exact hmany more rfl
    have hq : ¬ ['.', '?'] <+: behind := by
      rintro ⟨more, rfl⟩
      exact hone more rfl
    simp [hdot, hq]

theorem skipOptionalMark_eq (behind : List Char) :
    ∃ o ∈ 1 + optionalMarks, behind = o.reverse ++ skipOptionalMark behind := by
  unfold skipOptionalMark
  split
  · exact ⟨['?', '.'], Or.inr rfl, rfl⟩
  · exact ⟨[], Or.inl rfl, rfl⟩

theorem Solid.skipOptionalMark {rest : List Char} (h : Solid rest) {o : List Char}
    (ho : o ∈ 1 + optionalMarks) : Backward.skipOptionalMark (o.reverse ++ rest) = rest := by
  obtain ⟨c, more, rfl, hdot, -⟩ := h
  rcases ho with rfl | rfl
  · unfold Backward.skipOptionalMark
    split
    · rename_i he
      simp_all
    · rfl
  · rfl

/-! The keyword `new`. -/

theorem literal?_eq_some {text behind rest : List Char} :
    literal? text behind = some rest ↔ behind = text.reverse ++ rest := by
  unfold literal?
  constructor
  · intro h
    split at h
    · rename_i hp
      obtain ⟨more, rfl⟩ := List.isPrefixOf_iff_prefix.mp hp
      rw [← List.length_reverse, List.drop_left] at h
      rw [Option.some.inj h]
    · exact absurd h (by simp)
  · rintro rfl
    rw [if_pos (by simp), ← List.length_reverse, List.drop_left]

theorem word?_eq_some {text behind rest : List Char} : word? text behind = some rest ↔
    behind = text.reverse ++ rest ∧ ∀ c, rest.head? = some c → isNameChar c = false := by
  rw [word?, Option.filter_eq_some_iff, literal?_eq_some]
  cases rest <;> simp

theorem skipBlanks_append (behind : List Char) :
    behind = behind.takeWhile isBlank ++ skipBlanks behind :=
  List.takeWhile_append_dropWhile.symm

theorem skipBlanks_of_blanks {blanks : List Char} (h : ∀ c ∈ blanks, isBlank c = true)
    (rest : List Char) : skipBlanks (blanks ++ rest) = skipBlanks rest :=
  List.dropWhile_append_of_pos h

theorem newKeyword?_eq_some {behind rest : List Char} : newKeyword? behind = some rest ↔
    ∃ blanks, blanks ≠ [] ∧ (∀ c ∈ blanks, isBlank c = true) ∧
      behind = (['n', 'e', 'w'] ++ blanks).reverse ++ rest ∧
      ∀ c, rest.head? = some c → isNameChar c = false := by
  simp only [newKeyword?]
  constructor
  · intro h
    split at h
    · rename_i hlt
      obtain ⟨hword, hhead⟩ := word?_eq_some.mp h
      have hbehind := skipBlanks_append behind
      refine ⟨(behind.takeWhile isBlank).reverse, ?_, ?_, ?_, hhead⟩
      · intro he
        rw [List.reverse_eq_nil_iff] at he
        rw [he, List.nil_append] at hbehind
        rw [← hbehind] at hlt
        exact absurd hlt (by omega)
      · intro c hc
        exact List.mem_takeWhile_imp (List.mem_reverse.mp hc)
      · rw [List.reverse_append, List.reverse_reverse, List.append_assoc]
        exact hword ▸ hbehind
    · exact absurd h (by simp)
  · rintro ⟨blanks, hne, hblank, rfl, hhead⟩
    have hskip : skipBlanks ((['n', 'e', 'w'] ++ blanks).reverse ++ rest) =
        ['n', 'e', 'w'].reverse ++ rest := by
      rw [List.reverse_append, List.append_assoc, skipBlanks_of_blanks]
      · simp [skipBlanks, show isBlank 'w' = false by decide]
      · intro c hc
        exact hblank c (List.mem_reverse.mp hc)
    have hpos := List.length_pos_iff.mpr hne
    simp only [hskip]
    rw [if_pos]
    · exact word?_eq_some.mpr ⟨rfl, hhead⟩
    · simp only [List.length_append, List.length_reverse]
      omega

end Backward
end ScriptSense
