import ScriptSense.Glob

/-! Character sets of path patterns. What stands between the brackets is read from the left: three
characters with a hyphen in the middle are a range, and every other character stands for itself. The
chunks that a set is cut into, less the ranges that run backward, are these items. Main statement: a
set takes what is listed in it, or, after an exclamation mark, what is not; only where an exclamation
mark follows backward ranges at the beginning of a set, it is taken for a leading one. -/
namespace ScriptSense
namespace Glob

/-- The items of a set, read from the left. -/
def readItems : List Char → List Item
  | [] => []
  | first :: '-' :: last :: rest => .range first last :: readItems rest
  | c :: rest => .single c :: readItems rest

def Item.runsBackward : Item → Bool
  | single _ => false
  | range first last => last < first

/-- The items of a set that can take a character. -/
def forward (text : List Char) : List Item := (readItems text).filter fun item => !item.runsBackward

def Item.marks : Item → List Mark
  | single c => [.char c]
  | range first last => [.char first, .hyphen, .char last]

theorem items_marks (list : List Item) : items (list.flatMap Item.marks) = list := by
  induction list with
  | nil => rfl
  | cons item rest ih =>
    cases item with
    | range first last =>
      change .range first last :: items (rest.flatMap Item.marks) = _
      rw [ih]
    | single c =>
      have hitems : items (.char c :: rest.flatMap Item.marks) =
          .single c :: items (rest.flatMap Item.marks) := by
        cases rest with
        | nil => rfl
        | cons next more => cases next <;> rfl
      change items (.char c :: rest.flatMap Item.marks) = _
      rw [hitems, ih]

theorem Item.contains_of_runsBackward {item : Item} (h : item.runsBackward = true) (c : Char) :
    item.contains c = false := by
  cases item with
  | single d => cases h
  | range first last =>
    have hlt : last < first := by simpa [runsBackward] using h
    simp only [contains, Bool.and_eq_false_iff, decide_eq_false_iff_not]
    by_cases hfirst : first ≤ c
    · exact .inr fun hlast => Char.not_le.mpr hlt (Char.le_trans hfirst hlast)
    · exact .inl hfirst

theorem any_forward (text : List Char) (c : Char) :
    (forward text).any (·.contains c) = (readItems text).any (·.contains c) := by
  rw [forward, List.any_filter]
  congr 1
  funext item
  cases hb : item.runsBackward with
  | false => rfl
  | true => rw [Item.contains_of_runsBackward hb]; rfl

/-! The chunks of a set. -/

def push (c : Char) : List (List Char) → List (List Char)
  | [] => [[c]]
  | chunk :: more => (c :: chunk) :: more

theorem chunks_ne_nil (quiet : Nat) (text : List Char) : chunks quiet text ≠ [] := by
  rw [chunks.eq_def]
  cases text with
  | nil => simp
  | cons c cs =>
    simp only
    split
    · split <;> simp
    · split
      · simp
      · split <;> simp

theorem chunks_succ (quiet : Nat) (c : Char) (text : List Char) :
    chunks (quiet + 1) (c :: text) = push c (chunks quiet text) := by
  rw [chunks.eq_def]
  cases h : chunks quiet text <;> simp [h, push]

theorem chunks_zero_of_ne {c : Char} (h : c ≠ '-') (text : List Char) :
    chunks 0 (c :: text) = chunks 1 (c :: text) := by
  rw [chunks_succ, chunks.eq_def]
  cases ht : chunks 0 text <;> simp [h, ht, push]

theorem chunks_zero_hyphen (text : List Char) : chunks 0 ('-' :: text) = [] :: chunks 2 text := rfl

theorem marks_push (c : Char) (cs : List (List Char)) : marks (push c cs) = .char c :: marks cs := by
  cases cs with
  | nil => rfl
  | cons chunk more => cases more <;> rfl

theorem closeLast_ne_nil {cs : List (List Char)} (h : cs ≠ []) : closeLast cs ≠ [] := by
  obtain ⟨chunk, more, rfl⟩ := List.exists_cons_of_ne_nil h
  rcases more with _ | ⟨_ | ⟨d, next⟩, _ | ⟨third, rest⟩⟩ <;> simp [closeLast]

theorem closeLast_push (c : Char) {cs : List (List Char)} (h : cs ≠ []) :
    closeLast (push c cs) = push c (closeLast cs) := by
  obtain ⟨chunk, more, rfl⟩ := List.exists_cons_of_ne_nil h
  rcases more with _ | ⟨_ | ⟨d, next⟩, _ | ⟨third, rest⟩⟩ <;> rfl

theorem closeLast_cons_push (chunk : List Char) (c : Char) (cs : List (List Char)) :
    closeLast (chunk :: push c cs) = chunk :: closeLast (push c cs) := by
  cases cs with
  | nil => rfl
  | cons next rest => cases rest <;> rfl

def cut (text : List Char) : List (List Char) := closeLast (chunks 1 text)

theorem cut_range (first last : Char) (rest : List Char) :
    cut (first :: '-' :: last :: rest) = [first] :: push last (cut rest) := by
  have hchunks : chunks 1 (first :: '-' :: last :: rest) =
      [first] :: push last (chunks 1 rest) := by
    rw [chunks_succ, chunks_zero_hyphen, chunks_succ]
    rfl
  rw [cut, hchunks, closeLast_cons_push, closeLast_push last (chunks_ne_nil 1 rest)]
  rfl

theorem cut_single {c : Char} {rest : List Char}
    (h : ∀ last more, rest ≠ '-' :: last :: more) : cut (c :: rest) = push c (cut rest) := by
  have hchunks : closeLast (push c (chunks 0 rest)) = push c (closeLast (chunks 1 rest)) := by
    cases rest with
    | nil => rfl
    | cons d more =>
      by_cases hd : d = '-'
      · subst hd
        cases more with
        | nil => rfl
        | cons last more => exact absurd rfl (h last more)
      · rw [chunks_zero_of_ne hd, closeLast_push c (chunks_ne_nil 1 _)]
  rw [cut, chunks_succ, hchunks, cut]

theorem exists_push (c : Char) (cs : List (List Char)) :
    ∃ chunk more, push c cs = (c :: chunk) :: more := by
  cases cs with
  | nil => exact ⟨[], [], rfl⟩
  | cons chunk more => exact ⟨chunk, more, rfl⟩

/-- Only the chunks of an empty text begin with an empty one. -/
theorem exists_cut (c : Char) (text : List Char) :
    ∃ chunk more, cut (c :: text) = (c :: chunk) :: more := by
  by_cases h : ∃ last more, text = '-' :: last :: more
  · obtain ⟨last, more, rfl⟩ := h
    exact ⟨[], _, cut_range c last more⟩
  · rw [cut_single fun last more he => h ⟨last, more, he⟩]
    exact exists_push c _

/-! Dropping the ranges that run backward. -/

theorem dropReversed_ne_nil {cs : List (List Char)} (h : cs ≠ []) : dropReversed cs ≠ [] := by
  obtain ⟨chunk, more, rfl⟩ := List.exists_cons_of_ne_nil h
  rw [dropReversed]
  cases dropReversed more with
  | nil => simp
  | cons next rest =>
    simp only
    split
    · split <;> simp
    · simp

theorem dropReversed_push_cut (c : Char) (text : List Char) :
    dropReversed (push c (cut text)) = push c (dropReversed (cut text)) := by
  cases text with
  | nil => rfl
  | cons d rest =>
    obtain ⟨chunk, more, h⟩ := exists_cut d rest
    rw [h, push, dropReversed, dropReversed, List.getLast?_cons_cons, List.dropLast_cons_cons]
    cases dropReversed more with
    | nil => rfl
    | cons next tail =>
      simp only
      split
      · split <;> rfl
      · rfl

/-- The chunks of a text, less the ranges that run backward, are the other items of the text. -/
theorem marks_dropReversed_cut (text : List Char) :
    marks (dropReversed (cut text)) = (forward text).flatMap Item.marks := by
  induction text using readItems.induct with
  | case1 => rfl
  | case2 first last rest ih =>
    obtain ⟨chunk, more, hrest⟩ :=
      List.exists_cons_of_ne_nil (dropReversed_ne_nil (closeLast_ne_nil (chunks_ne_nil 1 rest)))
    rw [← cut] at hrest
    have hdrop : dropReversed (cut (first :: '-' :: last :: rest)) =
        if last < first then chunk :: more else [first] :: (last :: chunk) :: more := by
      rw [cut_range, dropReversed, dropReversed_push_cut, hrest]
      rfl
    rw [hdrop, forward, readItems, List.filter_cons, ← forward]
    rw [hrest] at ih
    by_cases hback : last < first
    · simp [hback, Item.runsBackward, ih]
    · have hmarks : marks ([first] :: (last :: chunk) :: more) =
          .char first :: .hyphen :: marks (push last (chunk :: more)) := rfl
      rw [if_neg hback, hmarks, marks_push, ih]
      simp [hback, Item.runsBackward, Item.marks]
  | case3 c rest hrest ih =>
    have hitems : readItems (c :: rest) = .single c :: readItems rest := by
      rw [readItems]
      exact hrest
    rw [cut_single hrest, dropReversed_push_cut, marks_push, ih, forward, forward, hitems]
    rfl

/-! What a set takes. -/

/-- Whether a character is listed in a set, or, after an exclamation mark, is not. -/
def listed (inner : List Char) (c : Char) : Bool :=
  match inner with
  | '!' :: body => !(readItems body).any (·.contains c)
  | _ => (readItems inner).any (·.contains c)

/-- What the set refuses instead, where an exclamation mark follows backward ranges at its beginning.
A range from that mark on falls apart. -/
def refused? (inner : List Char) : Option (List Item) :=
  if inner.head? = some '!' then none
  else
    match forward inner with
    | .single '!' :: rest => some rest
    | .range '!' last :: rest => some (.single '-' :: .single last :: rest)
    | _ => none

def taken (inner : List Char) (c : Char) : Bool :=
  match refused? inner with
  | some items => !items.any (·.contains c)
  | none => listed inner c

theorem listed_of_head {inner : List Char} (h : inner.head? ≠ some '!') (c : Char) :
    listed inner c = (forward inner).any (·.contains c) := by
  rw [any_forward, listed]
  intro body he
  exact h (by rw [he]; rfl)

theorem setOf_exclaimed (body : List Char) : setOf ('!' :: body) = .set true (forward body) := by
  have hmarks : marks (dropReversed (closeLast (chunks 2 ('!' :: body)))) =
      .char '!' :: (forward body).flatMap Item.marks := by
    rw [chunks_succ, closeLast_push _ (chunks_ne_nil 1 body), ← cut, dropReversed_push_cut,
      marks_push, marks_dropReversed_cut]
  simp [setOf, hmarks, items_marks]

theorem setOf_of_head {inner : List Char} (h : inner.head? ≠ some '!') :
    setOf inner = match refused? inner with
      | some items => .set true items
      | none => .set false (forward inner) := by
  have hmarks : marks (dropReversed (closeLast (chunks 1 inner))) =
      (forward inner).flatMap Item.marks := marks_dropReversed_cut inner
  simp only [setOf, refused?, h, if_false, hmarks]
  generalize forward inner = list
  match list with
  | [] => rfl
  | .single c :: rest =>
    have hitems : items (.char c :: rest.flatMap Item.marks) = .single c :: rest :=
      items_marks (.single c :: rest)
    by_cases hc : c = '!'
    · subst hc
      simp [Item.marks, items_marks]
    · simp [Item.marks, hc, hitems]
  | .range first last :: rest =>
    have hrange : items (.char first :: .hyphen :: .char last :: rest.flatMap Item.marks) =
        .range first last :: rest := items_marks (.range first last :: rest)
    have hlast : items (.char last :: rest.flatMap Item.marks) = .single last :: rest :=
      items_marks (.single last :: rest)
    by_cases hc : first = '!'
    · subst hc
      simp [Item.marks, items, hlast]
    · simp [Item.marks, hc, hrange]

/-- A set takes what it lists, unless an exclamation mark in it is taken for a leading one. -/
theorem setOf_accepts (inner : List Char) (c : Char) :
    (setOf inner).accepts c = taken inner c := by
  by_cases h : inner.head? = some '!'
  · obtain ⟨body, rfl⟩ : ∃ body, inner = '!' :: body := by
      cases inner with
      | nil => cases h
      | cons d body =>
        obtain rfl : d = '!' := Option.some.inj h
        exact ⟨body, rfl⟩
    simp [setOf_exclaimed, Piece.accepts, taken, refused?, listed, any_forward]
  · rw [setOf_of_head h, taken, listed_of_head h]
    cases refused? inner <;> simp [Piece.accepts]

theorem taken_eq_listed_iff (inner : List Char) :
    (∀ c, taken inner c = listed inner c) ↔ refused? inner = none := by
  constructor
  · intro hall
    have hspace := hall ' '
    cases hr : refused? inner with
    | none => rfl
    | some items =>
      have hhead : inner.head? ≠ some '!' := by
        intro he
        simp [refused?, he] at hr
      rw [taken, hr, listed_of_head hhead] at hspace
      simp only [refused?, hhead, if_false] at hr
      split at hr
      · rename_i rest hf
        cases hr
        simp [hf, Item.contains] at hspace
      · rename_i last rest hf
        cases hr
        have hle : '!' ≤ last := by
          have hmem : Item.range '!' last ∈ forward inner := by rw [hf]; exact List.mem_cons_self
          simpa [forward, Item.runsBackward] using (List.mem_filter.mp hmem).2
        have hne : ' ' ≠ last := by
          rintro rfl
          exact absurd hle (by decide)
        simp [hf, Item.contains, hne] at hspace
      · cases hr
  · intro hr c
    rw [taken, hr]

end Glob
end ScriptSense
