import Mathlib.Data.List.TakeWhile
import ScriptSense.Proofs.Source.Assignment

/-! Which assignment is taken for the nearest. A search from the left passes over all that begins
inside an occurrence, so that every occurrence begins in one that the search lists. Every assignment
ends at the first semicolon after its beginning. Main statement: of all assignments before the cursor
the search takes those that end last, and of these the one that begins first; it is the one that
begins last only where no assignment stands inside another. -/
namespace ScriptSense

namespace Occurrence

variable {α : Type} {pattern : Pattern α}

/-- The pattern matches at the place of an occurrence, in a text that stands at `position` after
`previous`. -/
def FitsFrom (pattern : Pattern α) (previous : Option Char) (position : Nat) (text : List Char)
    (o : Occurrence α) : Prop :=
  ∃ front rest n, text = front ++ rest ∧ o.start = position + front.length ∧
    o.stop = o.start + n ∧ pattern (front.getLast?.or previous) rest = some (n, o.captured)

theorem getLast?_cons_or (c : Char) (front : List Char) (previous : Option Char) :
    (c :: front).getLast?.or previous = front.getLast?.or (some c) := by
  rw [List.getLast?_cons]
  cases front.getLast? <;> rfl

theorem FitsFrom.cons {previous : Option Char} {position : Nat} {c : Char} {cs : List Char}
    {o : Occurrence α} (h : FitsFrom pattern (some c) (position + 1) cs o) :
    FitsFrom pattern previous position (c :: cs) o := by
  obtain ⟨front, rest, n, rfl, hstart, hstop, hp⟩ := h
  refine ⟨c :: front, rest, n, rfl, by rw [hstart, List.length_cons]; omega, hstop, ?_⟩
  rw [getLast?_cons_or, hp]

/-- What fits in a text fits at its beginning, or in the text without its first character. -/
theorem FitsFrom.cases_cons {previous : Option Char} {position : Nat} {c : Char} {cs : List Char}
    {o : Occurrence α} (h : FitsFrom pattern previous position (c :: cs) o) :
    (o.start = position ∧ ∃ n, o.stop = position + n ∧
      pattern previous (c :: cs) = some (n, o.captured)) ∨
    (position < o.start ∧ FitsFrom pattern (some c) (position + 1) cs o) := by
  obtain ⟨front, rest, n, htext, hstart, hstop, hp⟩ := h
  cases front with
  | nil =>
    rw [List.nil_append] at htext
    subst htext
    have hplace : o.start = position := by simpa using hstart
    exact Or.inl ⟨hplace, n, hplace ▸ hstop, by simpa using hp⟩
  | cons d front =>
    obtain ⟨rfl, rfl⟩ := List.cons.inj htext
    rw [List.length_cons] at hstart
    rw [getLast?_cons_or] at hp
    exact Or.inr ⟨by omega, front, rest, n, rfl, by omega, hstop, hp⟩

theorem fitsFrom_of_mem_allFrom {previous : Option Char} {position skip : Nat} {text : List Char}
    {o : Occurrence α} (h : o ∈ allFrom pattern previous position skip text) :
    FitsFrom pattern previous position text o ∧ position + skip ≤ o.start := by
  fun_induction allFrom pattern previous position skip text with
  | case1 previous position n a hp =>
    obtain rfl := List.mem_singleton.mp h
    exact ⟨⟨[], [], n, rfl, rfl, rfl, by simpa using hp⟩, Nat.le_refl _⟩
  | case2 => cases h
  | case3 previous position c cs k ih =>
    obtain ⟨hfits, hle⟩ := ih h
    exact ⟨hfits.cons, by omega⟩
  | case4 previous position c cs n a hp ih =>
    rcases List.mem_cons.mp h with rfl | h
    · exact ⟨⟨[], c :: cs, n, rfl, rfl, rfl, by simpa using hp⟩, Nat.le_refl _⟩
    · obtain ⟨hfits, hle⟩ := ih h
      exact ⟨hfits.cons, by omega⟩
  | case5 previous position c cs hp ih =>
    obtain ⟨hfits, hle⟩ := ih h
    exact ⟨hfits.cons, by omega⟩

/-- Every match of a pattern takes something. -/
def Consumes (pattern : Pattern α) : Prop :=
  ∀ previous rest n a, pattern previous rest = some (n, a) → 0 < n

theorem Consumes.pairwise_allFrom (hc : Consumes pattern) (previous : Option Char)
    (position skip : Nat) (text : List Char) :
    (allFrom pattern previous position skip text).Pairwise fun a b => a.stop ≤ b.start := by
  fun_induction allFrom pattern previous position skip text with
  | case1 => exact List.pairwise_singleton _ _
  | case2 => exact List.Pairwise.nil
  | case3 previous position c cs k ih => exact ih
  | case4 previous position c cs n a hp ih =>
    refine List.pairwise_cons.mpr ⟨?_, ih⟩
    intro o ho
    have hpos := hc _ _ _ _ hp
    have hle := (fitsFrom_of_mem_allFrom ho).2
    dsimp only
    omega
  | case5 previous position c cs hp ih => exact ih

/-- Every occurrence behind the places left out begins inside one that the search lists. -/
theorem Consumes.exists_mem_allFrom (hc : Consumes pattern) {previous : Option Char}
    {position skip : Nat} {text : List Char} {o : Occurrence α}
    (h : FitsFrom pattern previous position text o) (hs : position + skip ≤ o.start) :
    ∃ listed ∈ allFrom pattern previous position skip text,
      listed.start ≤ o.start ∧ o.start < listed.stop := by
  fun_induction allFrom pattern previous position skip text with
  | case1 previous position n a hp =>
    obtain ⟨front, rest, k, htext, hstart, -, -⟩ := h
    obtain ⟨rfl, rfl⟩ := List.append_eq_nil_iff.mp htext.symm
    have hpos := hc _ _ _ _ hp
    rw [List.length_nil] at hstart
    exact ⟨_, List.mem_singleton.mpr rfl, by dsimp only; omega, by dsimp only; omega⟩
  | case2 previous position skip hno =>
    obtain ⟨front, rest, k, htext, hstart, -, hp⟩ := h
    obtain ⟨rfl, rfl⟩ := List.append_eq_nil_iff.mp htext.symm
    rw [List.length_nil] at hstart
    exact absurd (by simpa using hp) (hno k o.captured (by omega))
  | case3 previous position c cs k ih =>
    rcases h.cases_cons with ⟨hplace, -⟩ | ⟨-, hlater⟩
    · omega
    · exact ih hlater (by omega)
  | case4 previous position c cs n a hp ih =>
    have hpos := hc _ _ _ _ hp
    by_cases hin : o.start < position + n
    · exact ⟨_, List.mem_cons_self, by dsimp only; omega, hin⟩
    · rcases h.cases_cons with ⟨hplace, -⟩ | ⟨-, hlater⟩
      · omega
      · obtain ⟨listed, hmem, hbounds⟩ := ih hlater (by omega)
        exact ⟨listed, List.mem_cons_of_mem _ hmem, hbounds⟩
  | case5 previous position c cs hp ih =>
    rcases h.cases_cons with ⟨-, n, -, hn⟩ | ⟨hlt, hlater⟩
    · rw [hp] at hn
      cases hn
    · exact ih hlater (by omega)

/-- The pattern matches at the place of an occurrence in a text. -/
def Fits (pattern : Pattern α) (text : List Char) (o : Occurrence α) : Prop :=
  FitsFrom pattern none 0 text o

theorem fits_of_mem_all {text : List Char} {o : Occurrence α} (h : o ∈ all pattern text) :
    Fits pattern text o := (fitsFrom_of_mem_allFrom h).1

theorem Consumes.exists_mem_all (hc : Consumes pattern) {text : List Char} {o : Occurrence α}
    (h : Fits pattern text o) :
    ∃ listed ∈ all pattern text, listed.start ≤ o.start ∧ o.start < listed.stop :=
  hc.exists_mem_allFrom h (by omega)

theorem Fits.eq_of_start_eq {text : List Char} {o o' : Occurrence α} (h : Fits pattern text o)
    (h' : Fits pattern text o') (hs : o.start = o'.start) : o = o' := by
  obtain ⟨front, rest, n, htext, hstart, hstop, hp⟩ := h
  obtain ⟨front', rest', n', htext', hstart', hstop', hp'⟩ := h'
  obtain ⟨rfl, rfl⟩ := List.append_inj (htext.symm.trans htext') (by omega)
  obtain ⟨rfl, hcaptured⟩ := Prod.mk.inj (Option.some.inj (hp.symm.trans hp'))
  have hstops : o.stop = o'.stop := by rw [hstop, hstop', hs]
  cases o
  cases o'
  simp_all

theorem Consumes.eq_or_le_of_getLast? (hc : Consumes pattern) {text : List Char}
    {last o : Occurrence α} (hl : (all pattern text).getLast? = some last)
    (ho : o ∈ all pattern text) : o = last ∨ o.stop ≤ last.start := by
  obtain ⟨earlier, he⟩ := List.getLast?_eq_some_iff.mp hl
  have hp : (all pattern text).Pairwise _ := hc.pairwise_allFrom none 0 0 text
  rw [he] at hp ho
  rcases List.mem_append.mp ho with ho | ho
  · exact Or.inr ((List.pairwise_append.mp hp).2.2 o ho last (List.mem_singleton.mpr rfl))
  · exact Or.inl (List.mem_singleton.mp ho)

end Occurrence

namespace Assignment

open Text

/-- A text begins with an assignment of `body` to `name` that takes `n` characters: the name, perhaps
blanks, an equals sign that is part of no longer operator, perhaps blanks, and the body, which stands
on one line and ends at a semicolon. -/
def Begins (name rest : List Char) (n : Nat) (body : List Char) : Prop :=
  ∃ gap lead more, rest = (name ++ gap ++ '=' :: (lead ++ body)) ++ ';' :: more ∧
    n = (name ++ gap ++ '=' :: (lead ++ body)).length + 1 ∧
    (∀ c ∈ gap, isBlank c = true) ∧ (∀ c ∈ lead, isBlank c = true) ∧
    (∀ c ∈ body, c ≠ ';' ∧ c ≠ '\n') ∧
    ∀ c, (lead ++ body).head? = some c → c ≠ '=' ∧ c ≠ '>'

/-- An assignment of `body` to `name` stands in a text from `start` to `stop`. The name is not the end
of a longer one. -/
def Occurs (name text : List Char) (start stop : Nat) (body : List Char) : Prop :=
  ∃ front rest n, text = front ++ rest ∧ front.length = start ∧ stop = start + n ∧
    (∀ c, front.getLast? = some c → continues c = false) ∧ Begins name rest n body

theorem body?_append {body : List Char} (h : ∀ c ∈ body, c ≠ ';' ∧ c ≠ '\n') (more : List Char) :
    body? (body ++ ';' :: more) = some body := by
  induction body with
  | nil => simp [body?]
  | cons c body ih =>
    obtain ⟨hs, hn⟩ := h c (by simp)
    rw [List.cons_append, body?, if_neg (by simpa using hs), if_neg (by simpa using hn),
      ih fun d hd => h d (by simp [hd]), Option.map_some]

theorem plain_of_body? {text body : List Char} (h : body? text = some body) :
    ∀ c ∈ body, c ≠ ';' ∧ c ≠ '\n' := by
  induction text generalizing body with
  | nil => simp [body?] at h
  | cons c cs ih =>
    rw [body?] at h
    split at h
    · simp [← Option.some.inj h]
    · rename_i hs
      split at h
      · cases h
      · rename_i hn
        obtain ⟨tail, htail, rfl⟩ := Option.map_eq_some_iff.mp h
        intro d hd
        rcases List.mem_cons.mp hd with rfl | hd
        · exact ⟨by simpa using hs, by simpa using hn⟩
        · exact ih htail d hd

theorem definition?_of_equals {rest after : List Char} (h : rest.dropWhile isBlank = '=' :: after) :
    definition? rest = if after.head? = some '=' ∨ after.head? = some '>' then none
      else (body? (after.dropWhile isBlank)).map fun body =>
        (rest.length - (after.dropWhile isBlank).length + body.length + 1, body) := by
  simp only [definition?, h]

theorem not_isBlank_of_head?_dropWhile {text : List Char} {c : Char}
    (h : (text.dropWhile isBlank).head? = some c) : isBlank c = false := by
  have hnot := List.head?_dropWhile_not isBlank text
  rw [h] at hnot
  simpa using hnot

theorem begins_of_definition? {rest body : List Char} {n : Nat}
    (h : definition? rest = some (n, body)) :
    Begins [] rest n body ∧ ∀ c, body.head? = some c → isBlank c = false := by
  have hequals : ∃ after, rest.dropWhile isBlank = '=' :: after := by
    rw [definition?] at h
    split at h
    · rename_i after hafter
      exact ⟨after, hafter⟩
    · cases h
  obtain ⟨after, hafter⟩ := hequals
  rw [definition?_of_equals hafter] at h
  split at h
  · cases h
  · rename_i hoperator
    obtain ⟨body', hbody, hpair⟩ := Option.map_eq_some_iff.mp h
    obtain ⟨hn, rfl⟩ := Prod.mk.inj hpair
    have hplain := plain_of_body? hbody
    obtain ⟨more, hmore⟩ := eq_of_body? hbody
    have hrest : rest = rest.takeWhile isBlank ++ '=' :: after := by
      rw [← hafter, List.takeWhile_append_dropWhile]
    have hsplit : after = after.takeWhile isBlank ++ (body' ++ ';' :: more) := by
      rw [← hmore, List.takeWhile_append_dropWhile]
    refine ⟨⟨rest.takeWhile isBlank, after.takeWhile isBlank, more, ?_, ?_, ?_, ?_, hplain, ?_⟩, ?_⟩
    · rw [List.nil_append, List.append_assoc, List.cons_append, List.append_assoc, ← hsplit]
      exact hrest
    · have hl := congrArg List.length hrest
      have hl' := congrArg List.length hsplit
      simp only [List.length_append, List.length_cons] at hl hl'
      rw [hmore] at hn
      simp only [List.nil_append, List.length_append, List.length_cons] at hn ⊢
      omega
    · exact fun c hc => List.mem_takeWhile_imp hc
    · exact fun c hc => List.mem_takeWhile_imp hc
    · intro c hc
      have hhead : after.head? = some c := by
        rw [hsplit, ← List.append_assoc, List.head?_append, hc, Option.some_or]
      rw [hhead] at hoperator
      simpa [not_or] using hoperator
    · intro c hc
      have hhead : (after.dropWhile isBlank).head? = some c := by
        rw [hmore, List.head?_append, hc, Option.some_or]
      exact not_isBlank_of_head?_dropWhile hhead

theorem definition?_of_begins {rest body : List Char} {n : Nat} (h : Begins [] rest n body)
    (hhead : ∀ c, body.head? = some c → isBlank c = false) :
    definition? rest = some (n, body) := by
  obtain ⟨gap, lead, more, rfl, rfl, hgap, hlead, hplain, hoperator⟩ := h
  have hafter : (([] ++ gap ++ '=' :: (lead ++ body)) ++ ';' :: more).dropWhile isBlank =
      '=' :: (lead ++ body ++ ';' :: more) := by
    rw [List.nil_append, List.append_assoc, List.dropWhile_append_of_pos hgap, List.cons_append,
      List.dropWhile_cons_of_neg (by decide)]
  have hbody : (lead ++ body ++ ';' :: more).dropWhile isBlank = body ++ ';' :: more := by
    rw [List.append_assoc, List.dropWhile_append_of_pos hlead]
    cases body with
    | nil => exact List.dropWhile_cons_of_neg (by decide)
    | cons c cs => exact List.dropWhile_cons_of_neg (by simp [hhead c rfl])
  have hfree : ¬ ((lead ++ body ++ ';' :: more).head? = some '=' ∨
      (lead ++ body ++ ';' :: more).head? = some '>') := by
    rw [List.head?_append]
    cases hc : (lead ++ body).head? with
    | none => simp
    | some c => simpa [not_or] using hoperator c hc
  rw [definition?_of_equals hafter, if_neg hfree, hbody,
    body?_append hplain more, Option.map_some]
  simp only [List.nil_append, List.length_append, List.length_cons, Option.some.injEq,
    Prod.mk.injEq, and_true]
  omega

theorem begins_append (name tail : List Char) (k : Nat) (body : List Char) :
    Begins name (name ++ tail) (name.length + k) body ↔ Begins [] tail k body := by
  simp only [Begins, List.append_assoc, List.append_cancel_left_eq, List.nil_append,
    List.length_append]
  constructor
  · rintro ⟨gap, lead, more, htail, hn, hrest⟩
    exact ⟨gap, lead, more, htail, by omega, hrest⟩
  · rintro ⟨gap, lead, more, htail, hn, hrest⟩
    exact ⟨gap, lead, more, htail, by omega, hrest⟩

theorem pattern_eq_some_iff (name : List Char) (previous : Option Char) (rest : List Char) (n : Nat)
    (body : List Char) : pattern name previous rest = some (n, body) ↔
      (∀ c, previous = some c → continues c = false) ∧ Begins name rest n body ∧
        ∀ c, body.head? = some c → isBlank c = false := by
  have hprevious : previous.any continues = true ↔
      ¬ ∀ c, previous = some c → continues c = false := by
    cases previous <;> simp
  rw [pattern]
  by_cases hp : previous.any continues = true
  · rw [if_pos hp]
    constructor
    · intro h
      cases h
    · rintro ⟨hno, -⟩
      exact absurd hno (hprevious.mp hp)
  · rw [if_neg hp]
    by_cases hname : name.isPrefixOf rest = true
    · obtain ⟨tail, rfl⟩ := List.isPrefixOf_iff_prefix.mp hname
      rw [if_pos hname, List.drop_left, Option.map_eq_some_iff]
      constructor
      · rintro ⟨⟨k, body'⟩, hd, hpair⟩
        obtain ⟨rfl, rfl⟩ := Prod.mk.inj hpair
        obtain ⟨hbegins, hhead⟩ := begins_of_definition? hd
        exact ⟨not_not.mp (mt hprevious.mpr hp), (begins_append _ _ _ _).mpr hbegins, hhead⟩
      · rintro ⟨-, hbegins, hhead⟩
        obtain ⟨k, rfl⟩ : ∃ k, n = name.length + k := by
          obtain ⟨gap, lead, more, -, rfl, -⟩ := hbegins
          refine ⟨(gap ++ '=' :: (lead ++ body)).length + 1, ?_⟩
          rw [List.append_assoc, List.length_append]
          omega
        exact ⟨(k, body), definition?_of_begins ((begins_append _ _ _ _).mp hbegins) hhead, rfl⟩
    · rw [if_neg hname]
      constructor
      · intro h
        cases h
      · rintro ⟨-, ⟨gap, lead, more, rfl, -⟩, -⟩
        refine absurd (List.isPrefixOf_iff_prefix.mpr ?_) hname
        exact ⟨gap ++ '=' :: (lead ++ body) ++ ';' :: more, by simp⟩

theorem Begins.trim {name rest : List Char} {n : Nat} {body : List Char}
    (h : Begins name rest n body) : Begins name rest n (body.dropWhile isBlank) := by
  obtain ⟨gap, lead, more, rfl, rfl, hgap, hlead, hplain, hoperator⟩ := h
  have hsplit : lead ++ body = lead ++ body.takeWhile isBlank ++ body.dropWhile isBlank := by
    rw [List.append_assoc, List.takeWhile_append_dropWhile]
  refine ⟨gap, lead ++ body.takeWhile isBlank, more, by rw [← hsplit], by rw [← hsplit], hgap, ?_,
    ?_, by rw [← hsplit]; exact hoperator⟩
  · intro c hc
    rcases List.mem_append.mp hc with hc | hc
    · exact hlead c hc
    · exact List.mem_takeWhile_imp hc
  · exact fun c hc => hplain c ((List.dropWhile_suffix isBlank).subset hc)

theorem fits_iff (name text : List Char) (o : Occurrence (List Char)) :
    Occurrence.Fits (pattern name) text o ↔
      Occurs name text o.start o.stop o.captured ∧
        ∀ c, o.captured.head? = some c → isBlank c = false := by
  simp only [Occurrence.Fits, Occurrence.FitsFrom, pattern_eq_some_iff, Option.or_none, Nat.zero_add,
    Occurs]
  constructor
  · rintro ⟨front, rest, n, htext, hstart, hstop, hbefore, hbegins, hhead⟩
    exact ⟨⟨front, rest, n, htext, hstart.symm, hstop, hbefore, hbegins⟩, hhead⟩
  · rintro ⟨⟨front, rest, n, htext, hstart, hstop, hbefore, hbegins⟩, hhead⟩
    exact ⟨front, rest, n, htext, hstart.symm, hstop, hbefore, hbegins, hhead⟩

theorem consumes_pattern (name : List Char) : Occurrence.Consumes (pattern name) := by
  intro previous rest n body h
  obtain ⟨-, ⟨gap, lead, more, -, rfl, -⟩, -⟩ := (pattern_eq_some_iff _ _ _ _ _).mp h
  exact Nat.succ_pos _

section Ends

variable {name text : List Char}

theorem takeWhile_line {line : List Char} (h : ';' ∉ line) (more : List Char) :
    (line ++ ';' :: more).takeWhile (· != ';') = line := by
  rw [List.takeWhile_append_of_pos (by intro c hc; simpa using ne_of_mem_of_not_mem hc h)]
  simp

theorem Occurs.exists_line (hname : ';' ∉ name) {start stop : Nat} {body : List Char}
    (h : Occurs name text start stop body) :
    ∃ line more, text.drop start = line ++ ';' :: more ∧ ';' ∉ line ∧
      stop = start + line.length + 1 := by
  obtain ⟨front, rest, n, rfl, rfl, rfl, -, gap, lead, more, rfl, rfl, hgap, hlead, hplain, -⟩ := h
  have hblank : isBlank ';' = false := by decide
  refine ⟨name ++ gap ++ '=' :: (lead ++ body), more, List.drop_left, ?_, by omega⟩
  intro hmem
  simp only [List.mem_append, List.mem_cons] at hmem
  rcases hmem with (hm | hm) | hm | hm | hm
  · exact hname hm
  · rw [hgap _ hm] at hblank
    cases hblank
  · cases hm
  · rw [hlead _ hm] at hblank
    cases hblank
  · exact (hplain _ hm).1 rfl

theorem Occurs.stop_eq_of_overlap (hname : ';' ∉ name) {start stop start' stop' : Nat}
    {body body' : List Char} (h : Occurs name text start stop body)
    (h' : Occurs name text start' stop' body') (hle : start ≤ start') (hlt : start' < stop) :
    stop' = stop := by
  obtain ⟨line, more, hdrop, hline, rfl⟩ := h.exists_line hname
  obtain ⟨line', more', hdrop', hline', rfl⟩ := h'.exists_line hname
  have hrest : text.drop start' = line.drop (start' - start) ++ ';' :: more := by
    rw [← List.drop_append_of_le_length (by omega), ← hdrop, List.drop_drop]
    congr 1
    omega
  have hsame : line' = line.drop (start' - start) := by
    rw [← takeWhile_line hline' more', ← hdrop', hrest,
      takeWhile_line (fun hm => hline (List.mem_of_mem_drop hm)) more]
  rw [hsame, List.length_drop]
  omega

theorem Occurs.lt (hname : ';' ∉ name) {start stop : Nat} {body : List Char}
    (h : Occurs name text start stop body) : start < stop := by
  obtain ⟨line, more, -, -, rfl⟩ := h.exists_line hname
  omega

theorem Occurs.exists_listed {start stop : Nat} {body : List Char}
    (h : Occurs name text start stop body) :
    ∃ listed ∈ Occurrence.all (pattern name) text,
      listed.start ≤ start ∧ start < listed.stop := by
  obtain ⟨front, rest, n, htext, hstart, hstop, hbefore, hbegins⟩ := h
  have htrim : Occurs name text start stop (body.dropWhile isBlank) :=
    ⟨front, rest, n, htext, hstart, hstop, hbefore, hbegins.trim⟩
  exact (consumes_pattern name).exists_mem_all
    ((fits_iff name text ⟨start, stop, body.dropWhile isBlank⟩).mpr
      ⟨htrim, fun _ => not_isBlank_of_head?_dropWhile⟩)

end Ends

/-- An assignment that ends last, and of those the one that begins first. -/
structure Chosen (name text : List Char) (m : Occurrence (List Char)) : Prop where
  occurs : Occurs name text m.start m.stop m.captured
  trimmed : ∀ c, m.captured.head? = some c → isBlank c = false
  before : ∀ start stop body, Occurs name text start stop body →
    stop < m.stop ∨ stop = m.stop ∧ m.start ≤ start

theorem chosen_of_nearest? {name : List Char} (hname : ';' ∉ name) {source : List Char}
    {cursor : Int} {m : Occurrence (List Char)} (h : nearest? name source cursor = some m) :
    Chosen name (Occurrence.upTo source cursor) m := by
  obtain ⟨hm, htrimmed⟩ :=
    (fits_iff _ _ _).mp (Occurrence.fits_of_mem_all (List.mem_of_getLast? h))
  refine ⟨hm, htrimmed, ?_⟩
  intro start stop body ho
  obtain ⟨listed, hmem, hle, hlt⟩ := ho.exists_listed
  obtain ⟨hlisted, -⟩ := (fits_iff _ _ _).mp (Occurrence.fits_of_mem_all hmem)
  have hstop : stop = listed.stop := hlisted.stop_eq_of_overlap hname ho hle hlt
  rcases (consumes_pattern name).eq_or_le_of_getLast? h hmem with rfl | hearlier
  · exact Or.inr ⟨hstop, hle⟩
  · have hpos := hm.lt hname
    exact Or.inl (by omega)

theorem nearest?_eq_none_iff (name source : List Char) (cursor : Int) :
    nearest? name source cursor = none ↔
      ∀ start stop body, ¬ Occurs name (Occurrence.upTo source cursor) start stop body := by
  constructor
  · intro h start stop body ho
    obtain ⟨listed, hmem, -⟩ := ho.exists_listed
    rw [List.getLast?_eq_none_iff.mp h] at hmem
    cases hmem
  · intro h
    cases hn : nearest? name source cursor with
    | none => rfl
    | some m =>
      have hfits := Occurrence.fits_of_mem_all (List.mem_of_getLast? hn)
      exact absurd ((fits_iff _ _ _).mp hfits).1 (h _ _ _)

theorem nearest?_eq_some_iff {name : List Char} (hname : ';' ∉ name) (source : List Char)
    (cursor : Int) (m : Occurrence (List Char)) :
    nearest? name source cursor = some m ↔ Chosen name (Occurrence.upTo source cursor) m := by
  refine ⟨chosen_of_nearest? hname, ?_⟩
  intro h
  cases hn : nearest? name source cursor with
  | none => exact absurd h.occurs ((nearest?_eq_none_iff _ _ _).mp hn _ _ _)
  | some m' =>
    have h' := chosen_of_nearest? hname hn
    have hstart : m'.start = m.start := by
      have h₁ := h.before _ _ _ h'.occurs
      have h₂ := h'.before _ _ _ h.occurs
      omega
    rw [((fits_iff _ _ _).mpr ⟨h'.occurs, h'.trimmed⟩).eq_of_start_eq
      ((fits_iff _ _ _).mpr ⟨h.occurs, h.trimmed⟩) hstart]

/-- The chosen assignment begins after all others if and only if it is the only one that ends where it
does. -/
theorem Chosen.last_iff {name text : List Char} (hname : ';' ∉ name) {m : Occurrence (List Char)}
    (h : Chosen name text m) :
    (∀ start stop body, Occurs name text start stop body → start ≤ m.start) ↔
      ∀ start body, Occurs name text start m.stop body → start = m.start := by
  constructor
  · intro hlast start body ho
    have hle := hlast start m.stop body ho
    have hbefore := h.before start m.stop body ho
    omega
  · intro honly start stop body ho
    rcases h.before start stop body ho with hlt | ⟨rfl, -⟩
    · by_contra hgt
      have hpos := ho.lt hname
      have hstop := h.occurs.stop_eq_of_overlap hname ho (by omega) (by omega)
      omega
    · exact Nat.le_of_eq (honly start body ho)

/-- What the nearest assignment is. Nothing is found only if nothing is assigned to the name before
the cursor. Else the assignment that is found is one of those that end last, and of these the one
that begins first; every assignment that begins after it ends at the same semicolon, and there is
none exactly if the assignment that is found is the only one that ends there. -/
theorem nearest?_ends_last (name : List Char) (hname : ';' ∉ name) (source : List Char)
    (cursor : Int) :
    (nearest? name source cursor = none ↔
      ∀ start stop body, ¬ Occurs name (Occurrence.upTo source cursor) start stop body) ∧
    (∀ m, nearest? name source cursor = some m ↔
      Chosen name (Occurrence.upTo source cursor) m) ∧
    ∀ m, nearest? name source cursor = some m →
      ((∀ start stop body, Occurs name (Occurrence.upTo source cursor) start stop body →
        start ≤ m.start) ↔
      ∀ start body, Occurs name (Occurrence.upTo source cursor) start m.stop body →
        start = m.start) :=
  ⟨nearest?_eq_none_iff name source cursor, nearest?_eq_some_iff hname source cursor,
    fun _ h => (chosen_of_nearest? hname h).last_iff hname⟩

/-- One line that assigns to a name in a condition, and again if it holds. -/
def twiceAssigned : List Char := "if (x = y) x = z;".toList

theorem nearest?_twiceAssigned : nearest? ['x'] twiceAssigned 17 =
    some ⟨4, 17, "y) x = z".toList⟩ := by decide +kernel

theorem occurs_twiceAssigned :
    Occurs ['x'] (Occurrence.upTo twiceAssigned 17) 11 17 ['z'] := by
  have hspace : isBlank ' ' = true := by decide
  refine ⟨"if (x = y) ".toList, "x = z;".toList, 6, by decide, by decide, by decide, ?_, [' '], [' '],
    [], by decide, by decide, by simp [hspace], by simp [hspace], by simp, ?_⟩
  · intro c hc
    obtain rfl := Option.some.inj hc
    decide +kernel
  · intro c hc
    obtain rfl := Option.some.inj hc
    decide

theorem twiceAssigned_ends_last : ';' ∉ ['x'] ∧
    Chosen ['x'] (Occurrence.upTo twiceAssigned 17) ⟨4, 17, "y) x = z".toList⟩ :=
  ⟨by decide, ((nearest?_ends_last ['x'] (by decide) twiceAssigned 17).2.1 _).mp
    nearest?_twiceAssigned⟩

/-- The assignment that is found begins before another one. -/
theorem nearest?_twiceAssigned_not_last :
    ∃ m, nearest? ['x'] twiceAssigned 17 = some m ∧
      ¬ ∀ start stop body, Occurs ['x'] (Occurrence.upTo twiceAssigned 17) start stop body →
        start ≤ m.start := by
  refine ⟨_, nearest?_twiceAssigned, ?_⟩
  intro h
  exact absurd (h 11 17 ['z'] occurs_twiceAssigned) (by decide)

end Assignment
end ScriptSense
