import ScriptSense.Proofs.Source.Scan
import ScriptSense.Source.Matcher
import ScriptSense.Source.OpenCall

/-! The searches of a source as they are carried out: at integer positions, one character after
another, in loops. Each loop is one round that is repeated. A round may go wrong by reading where
the text has no character, by asking for the partner of no bracket, or by closing a group when none
is open, and the rounds may have no end. Main statements: none of this happens, and what is found is
what the searches on lists of characters find. -/
namespace ScriptSense
namespace Stepwise

open Text Backward

inductive Fault where
  | outOfRange (position : Int)
  | missing (bracket : Bracket.Missing)
  | unopened
  | endless
  deriving DecidableEq, Repr

@[simp] theorem ok_bind {ε α β : Type} (a : α) (f : α → Except ε β) : (.ok a >>= f) = f a := rfl

@[simp] theorem pure_eq_ok {ε α : Type} (a : α) : (pure a : Except ε α) = .ok a := rfl

/-- The character at a position. There is none before the beginning: no position counts from the
end. -/
def read (source : List Char) (position : Int) : Except Fault Char :=
  match if 0 ≤ position then source[position.toNat]? else none with
  | some c => .ok c
  | none => .error (.outOfRange position)

/-- What a round of a loop comes to. -/
inductive Round (σ α : Type) where
  | again (state : σ)
  | done (result : α)

/-- Repeats a round until it is done, but no more often than `rounds`. -/
def loop {σ α : Type} (round : σ → Except Fault (Round σ α)) : (rounds : Nat) → σ → Except Fault α
  | 0, _ => .error .endless
  | rounds + 1, state => do
    match ← round state with
    | .again next => loop round rounds next
    | .done result => return result

/-- A loop is done in time if every round from a state that has to give a result is done with that
result, or leads to a smaller state that has to give the same result. -/
theorem loop_eq {σ α : Type} {round : σ → Except Fault (Round σ α)} (Gives : σ → α → Prop)
    (size : σ → Nat)
    (h : ∀ s a, Gives s a → round s = .ok (.done a) ∨
      ∃ next, round s = .ok (.again next) ∧ Gives next a ∧ size next < size s)
    {s : σ} {a : α} (hs : Gives s a) {rounds : Nat} (hr : size s < rounds) :
    loop round rounds s = .ok a := by
  induction rounds generalizing s with
  | zero => exact absurd hr (by omega)
  | succ rounds ih =>
    rcases h s a hs with hdone | ⟨next, hround, hgives, hlt⟩
    · rw [loop, hdone]
      rfl
    · have hnext := ih hgives (by omega)
      rw [loop, hround, ← hnext]
      rfl

/-! Positions and what stands before them. -/

variable {source : List Char} {n : Nat}

theorem read_of_getElem? {c : Char} (h : source[n]? = some c) : read source n = .ok c := by
  simp [read, h]

theorem read_pred {c : Char} (h : source[n]? = some c) :
    read source (((n + 1 : Nat) : Int) - 1) = .ok c := by
  rw [Nat.cast_succ, add_sub_cancel_right]
  exact read_of_getElem? h

theorem position_cases (hn : n ≤ source.length) : n = 0 ∨
    ∃ m c, n = m + 1 ∧ m < source.length ∧ source[m]? = some c ∧
      before source (m + 1) = c :: before source m := by
  cases n with
  | zero => exact Or.inl rfl
  | succ m =>
    have hget : source[m]? = some source[m] := List.getElem?_eq_getElem hn
    refine Or.inr ⟨m, source[m], rfl, hn, hget, ?_⟩
    rw [before, List.take_add_one, hget, List.reverse_append]
    rfl

/-- What remains of the text before a position is the text before an earlier one. -/
theorem before_of_isSuffix (hn : n ≤ source.length) {rest : List Char}
    (h : rest <:+ before source n) : before source rest.length = rest ∧ rest.length ≤ n := by
  obtain ⟨t, ht⟩ := h
  have hshape : before source n = t.reverse.reverse ++ rest := by rw [List.reverse_reverse, ht]
  obtain ⟨hle, -, hrest⟩ := Scan.eq_of_before_eq_append hn hshape
  exact ⟨hrest.symm, hle⟩

/-! Runs of characters. -/

def backRound (kind : Char → Bool) (source : List Char) (start : Int) :
    Except Fault (Round Int Int) :=
  if 0 < start then do
    let c ← read source (start - 1)
    return if kind c then .again (start - 1) else .done start
  else return .done start

def backWhile (kind : Char → Bool) (source : List Char) : Int → Except Fault Int :=
  loop (backRound kind source) (source.length + 1)

theorem backWhile_eq (kind : Char → Bool) (hn : n ≤ source.length) :
    backWhile kind source n = .ok (((before source n).dropWhile kind).length : Int) := by
  refine loop_eq (fun (s a : Int) => ∃ n : Nat, s = n ∧ n ≤ source.length ∧
    a = ((before source n).dropWhile kind).length) Int.toNat ?_ ⟨n, rfl, hn, rfl⟩
    (by rw [Int.toNat_natCast]; omega)
  rintro s a ⟨n, rfl, hn, rfl⟩
  rcases position_cases hn with rfl | ⟨m, c, rfl, hm, hget, hbefore⟩
  · exact Or.inl rfl
  · rw [hbefore, backRound, if_pos (by omega), read_pred hget]
    cases hc : kind c with
    | true =>
      exact Or.inr ⟨m, by simp [hc], ⟨m, rfl, hm.le, by simp [hc]⟩, by omega⟩
    | false =>
      left
      simp [hc, hm.le]

/-- Moves ahead while the position is not the end and the character there is of a kind. -/
def aheadRound (kind : Char → Bool) (source : List Char) (stop position : Int) :
    Except Fault (Round Int Int) :=
  if position < stop then do
    let c ← read source position
    return if kind c then .again (position + 1) else .done position
  else return .done position

def aheadWhile (kind : Char → Bool) (source : List Char) (stop : Int) : Int → Except Fault Int :=
  loop (aheadRound kind source stop) (source.length + 1)

theorem aheadWhile_eq (kind : Char → Bool) {stop : Nat} (hs : stop ≤ source.length) (n : Nat) :
    aheadWhile kind source stop n =
      .ok ((n : Int) + ((Scan.slice source n stop).takeWhile kind).length) := by
  refine loop_eq (fun (s a : Int) => ∃ n : Nat, s = n ∧
    a = (n : Int) + ((Scan.slice source n stop).takeWhile kind).length)
    (fun s => stop - s.toNat) ?_ ⟨n, rfl, rfl⟩ (by omega)
  rintro s a ⟨n, rfl, rfl⟩
  by_cases hlt : n < stop
  · have hget : source[n]? = some source[n] := List.getElem?_eq_getElem (by omega)
    have hslice : Scan.slice source n stop = source[n] :: Scan.slice source (n + 1) stop := by
      rw [Scan.slice, List.drop_eq_getElem_cons (by rw [List.length_take]; omega),
        List.getElem_take]
      rfl
    rw [hslice, aheadRound, if_pos (by omega), read_of_getElem? hget]
    cases hc : kind source[n] with
    | true =>
      refine Or.inr ⟨(n + 1 : Nat), by simp [hc], ⟨n + 1, rfl, ?_⟩, by omega⟩
      rw [List.takeWhile_cons_of_pos hc, List.length_cons]
      omega
    | false =>
      left
      simp [hc]
  · have hslice : Scan.slice source n stop = [] := by
      rw [Scan.slice, List.drop_eq_nil_iff, List.length_take]
      omega
    left
    rw [hslice, aheadRound, if_neg (by omega)]
    simp

/-! Single matches. -/

def follows (kind : Char → Bool) (source : List Char) (position : Int) : Except Fault Bool :=
  if 0 < position then do
    let c ← read source (position - 1)
    return kind c
  else return false

theorem follows_eq (kind : Char → Bool) (hn : n ≤ source.length) :
    follows kind source n = .ok ((before source n).head?.any kind) := by
  rcases position_cases hn with rfl | ⟨m, c, rfl, hm, hget, hbefore⟩
  · rfl
  · rw [hbefore, follows, if_pos (by omega), read_pred hget]
    rfl

def identifierStart (source : List Char) (position : Int) : Except Fault (Option Int) := do
  let run ← backWhile isNameChar source position
  let start ← aheadWhile isDigit source position run
  return if start = position then none else some start

theorem identifierStart_eq (hn : n ≤ source.length) : identifierStart source n =
    .ok ((identifier? (before source n)).map fun rest => (rest.length : Int)) := by
  generalize hb : before source n = behind
  have hlength : behind.length = n := by
    rw [← hb, before_length]
    omega
  have hrun := congrArg List.length (@List.takeWhile_append_dropWhile _ isNameChar behind)
  have hslice : Scan.slice source (behind.dropWhile isNameChar).length n =
      (behind.takeWhile isNameChar).reverse := by
    have htake : source.take n =
        (behind.dropWhile isNameChar).reverse ++ (behind.takeWhile isNameChar).reverse := by
      rw [← List.reverse_append, List.takeWhile_append_dropWhile, ← hb, before,
        List.reverse_reverse]
    rw [Scan.slice, htake, ← List.length_reverse, List.drop_left]
  have hdigits := congrArg List.length (@List.takeWhile_append_dropWhile _ isDigit
    (behind.takeWhile isNameChar).reverse)
  rw [List.length_append] at hrun hdigits
  rw [List.length_reverse] at hdigits
  rw [identifierStart, backWhile_eq isNameChar hn, hb, ok_bind, aheadWhile_eq isDigit hn, ok_bind,
    hslice, pure_eq_ok]
  simp only [identifier?]
  by_cases hname : (behind.takeWhile isNameChar).reverse.dropWhile isDigit = []
  · rw [hname, List.length_nil] at hdigits
    rw [hname, if_pos (by omega)]
    rfl
  · have hpos := List.length_pos_iff.mpr hname
    rw [if_neg (by omega), if_neg (by simpa using hname), Option.map_some, List.length_drop]
    congr 2
    omega

def blanksStart (source : List Char) (position : Int) : Except Fault (Option Int) := do
  let start ← backWhile isBlank source position
  return if start = position then none else some start

theorem isPrefixOf_drop_iff {text : List Char} {a : Nat} (h : a + text.length = n) :
    text.isPrefixOf (source.drop a) = true ↔ before source n = text.reverse ++ before source a := by
  have hlength : n - a = text.length := by omega
  rw [Scan.before_eq_append source (by omega : a ≤ n), List.append_cancel_right_eq,
    List.reverse_inj, Scan.slice, List.drop_take, hlength, List.isPrefixOf_iff_prefix,
    List.prefix_iff_eq_take, eq_comm]

theorem literalStart_eq (text : List Char) (hn : n ≤ source.length) :
    Matcher.literalStart source text n =
      (literal? text (before source n)).map fun rest => (rest.length : Int) := by
  rw [Matcher.literalStart]
  cases hl : literal? text (before source n) with
  | some rest =>
    have hshape := literal?_eq_some.mp hl
    have hrest := (Scan.eq_of_before_eq_append hn hshape).2.2
    have hlength : rest.length + text.length = n := by
      have := congrArg List.length hshape
      simp only [before_length, List.length_append, List.length_reverse] at this
      omega
    have hstart : ((n : Int) - text.length).toNat = rest.length := by omega
    have hfits := (isPrefixOf_drop_iff hlength).mpr (hrest ▸ hshape)
    rw [if_pos ⟨by omega, by omega, by rw [hstart]; exact hfits⟩, Option.map_some]
    congr 1
    omega
  | none =>
    rw [if_neg]
    · rfl
    · rintro ⟨hpos, -, hfits⟩
      have hstart : ((n : Int) - text.length).toNat + text.length = n := by omega
      have hshape := (isPrefixOf_drop_iff hstart).mp hfits
      rw [literal?_eq_some.mpr hshape] at hl
      cases hl

def wordStart (text source : List Char) (position : Int) : Except Fault (Option Int) :=
  match Matcher.literalStart source text position with
  | none => return none
  | some start => do
    let longer ← follows isNameChar source start
    return if longer then none else some start

theorem wordStart_eq (text : List Char) (hn : n ≤ source.length) : wordStart text source n =
    .ok ((word? text (before source n)).map fun rest => (rest.length : Int)) := by
  rw [wordStart, literalStart_eq text hn, word?]
  cases hl : literal? text (before source n) with
  | none => rfl
  | some rest =>
    obtain ⟨hrest, hle⟩ := before_of_isSuffix hn (literal?_isSuffix hl)
    rw [Option.map_some]
    dsimp only
    rw [follows_eq isNameChar (hle.trans hn), hrest, ok_bind, pure_eq_ok]
    cases hc : rest.head?.any isNameChar <;> simp [hc]

def memberMarkStart (source : List Char) (position : Int) : Except Fault (Option Int) :=
  match Matcher.literalStart source ['?', '.'] position with
  | some start => return some start
  | none =>
    match Matcher.literalStart source ['.'] position with
    | none => return none
    | some start => do
      let spread ← follows (· == '.') source start
      return if spread then none else some start

theorem memberMark?_eq_literal? (behind : List Char) : memberMark? behind =
    (literal? ['?', '.'] behind).or
      ((literal? ['.'] behind).filter fun rest => !(rest.head?.any (· == '.'))) := by
  unfold memberMark?
  split
  · simp [literal?]
  · rename_i rest hne
    cases rest with
    | nil => rfl
    | cons c cs =>
      have hc : '?' ≠ c := by
        rintro rfl
        exact hne cs rfl
      by_cases hdot : c = '.' <;> simp [literal?, Option.filter, hc, hdot]
  · rename_i hone hmany
    have hdot : literal? ['.'] behind = none := by
      cases hl : literal? ['.'] behind with
      | none => rfl
      | some rest => exact absurd (literal?_eq_some.mp hl) (hmany rest)
    have hmark : literal? ['?', '.'] behind = none := by
      cases hl : literal? ['?', '.'] behind with
      | none => rfl
      | some rest => exact absurd (literal?_eq_some.mp hl) (hone rest)
    rw [hdot, hmark]
    rfl

theorem memberMarkStart_eq (hn : n ≤ source.length) : memberMarkStart source n =
    .ok ((memberMark? (before source n)).map fun rest => (rest.length : Int)) := by
  rw [memberMarkStart, literalStart_eq _ hn, literalStart_eq _ hn, memberMark?_eq_literal?]
  cases literal? ['?', '.'] (before source n) with
  | some rest => rfl
  | none =>
    cases hd : literal? ['.'] (before source n) with
    | none => rfl
    | some rest =>
      obtain ⟨hrest, hle⟩ := before_of_isSuffix hn (literal?_isSuffix hd)
      simp only [Option.map_none, Option.map_some]
      rw [follows_eq _ (hle.trans hn), hrest, ok_bind, pure_eq_ok]
      cases hc : rest.head?.any (· == '.') <;> simp [hc]

def newStart (source : List Char) (position : Int) : Except Fault (Option Int) := do
  match ← blanksStart source position with
  | none => return none
  | some start => wordStart ['n', 'e', 'w'] source start

theorem newStart_eq (hn : n ≤ source.length) : newStart source n =
    .ok ((newKeyword? (before source n)).map fun rest => (rest.length : Int)) := by
  obtain ⟨hrest, hle⟩ := before_of_isSuffix hn (skipBlanks_isSuffix (before source n))
  have hlength : (before source n).length = n := by
    rw [before_length]
    omega
  rw [newStart, blanksStart, backWhile_eq isBlank hn, ok_bind, pure_eq_ok, ok_bind]
  change (match if ((skipBlanks (before source n)).length : Int) = n then none
    else some ((skipBlanks (before source n)).length : Int) with
    | none => _
    | some start => _) = _
  simp only [newKeyword?]
  by_cases hb : (skipBlanks (before source n)).length < (before source n).length
  · rw [if_neg (by omega), if_pos hb]
    dsimp only
    rw [wordStart_eq _ (hle.trans hn), hrest]
    rfl
  · rw [if_pos (by omega), if_neg hb]
    rfl

/-! Brackets. -/

/-- Looks for the partner of a closing bracket, with the shapes still to be opened. -/
def partnerRound (source : List Char) (state : Int × List Shape) :
    Except Fault (Round (Int × List Shape) (Option Int)) :=
  if 0 ≤ state.1 ∧ state.1 < source.length then do
    let c ← read source state.1
    match Bracket.ofChar? c, state.2 with
    | none, shapes => return .again (state.1 - 1, shapes)
    | some ⟨shape, false⟩, shapes => return .again (state.1 - 1, shape :: shapes)
    | some ⟨_, true⟩, [] => .error .unopened
    | some ⟨shape, true⟩, top :: rest =>
      return if top ≠ shape then .done none
        else if rest.isEmpty then .done (some state.1) else .again (state.1 - 1, rest)
  else return .done none

def partner (source : List Char) (position : Int) : Except Fault (Option Int) :=
  if 0 ≤ position ∧ position < source.length then do
    let c ← read source position
    match Bracket.ofChar? c with
    | some ⟨shape, false⟩ =>
      loop (partnerRound source) (source.length + 1) (position - 1, [shape])
    | _ => .error (.missing ⟨position⟩)
  else .error (.missing ⟨position⟩)

theorem loop_partnerRound (hn : n ≤ source.length) {shapes : List Shape} (hs : shapes ≠ []) :
    loop (partnerRound source) (source.length + 1) ((n : Int) - 1, shapes) =
      .ok ((Bracket.partnerDistance false shapes (before source n)).map fun (k : Nat) =>
        (n : Int) - 1 - k) := by
  refine loop_eq (fun (s : Int × List Shape) (a : Option Int) => ∃ n : Nat, s.1 = (n : Int) - 1 ∧
    n ≤ source.length ∧ s.2 ≠ [] ∧
    a = (Bracket.partnerDistance false s.2 (before source n)).map fun (k : Nat) => (n : Int) - 1 - k)
    (fun s => (s.1 + 1).toNat) ?_ ⟨n, rfl, hn, hs, rfl⟩ (by dsimp only; omega)
  rintro ⟨i, shapes⟩ a ⟨n, hi, hn, hs, rfl⟩
  obtain rfl : i = (n : Int) - 1 := hi
  dsimp only at hs ⊢
  rcases position_cases hn with rfl | ⟨m, c, rfl, hm, hget, hbefore⟩
  · left
    rfl
  · have hi : ((m + 1 : Nat) : Int) - 1 = m := by omega
    -- one character nearer to the beginning, the partner is one character less away
    have hnearer : ∀ other : List Shape,
        ((Bracket.partnerDistance false other (before source m)).map (· + 1)).map
          (fun (k : Nat) => (m : Int) - k) =
        (Bracket.partnerDistance false other (before source m)).map fun (k : Nat) =>
          (m : Int) - 1 - k := by
      intro other
      rw [Option.map_map]
      congr 1
      funext k
      simp only [Function.comp_apply]
      omega
    rw [hbefore, hi, Bracket.partnerDistance, partnerRound, if_pos ⟨by omega, by dsimp only; omega⟩,
      read_of_getElem? hget, ok_bind]
    cases hc : Bracket.ofChar? c with
    | none => exact Or.inr ⟨_, rfl, ⟨m, rfl, hm.le, hs, hnearer shapes⟩, by dsimp only; omega⟩
    | some b =>
      obtain ⟨shape, opens⟩ := b
      cases opens with
      | false =>
        exact Or.inr ⟨_, rfl, ⟨m, rfl, hm.le, by simp, hnearer (shape :: shapes)⟩,
          by dsimp only; omega⟩
      | true =>
        cases shapes with
        | nil => exact absurd rfl hs
        | cons top rest =>
          by_cases htop : top = shape
          · cases rest with
            | nil =>
              left
              simp [htop]
            | cons next more =>
              refine Or.inr ⟨(m - 1, next :: more), by simp [htop],
                ⟨m, rfl, hm.le, by simp, ?_⟩, by dsimp only; omega⟩
              simpa [htop] using hnearer (next :: more)
          · left
            simp [htop]

def groupStart (source : List Char) (position : Int) : Except Fault (Option Int) := do
  if ← follows Bracket.isClosing source position then partner source (position - 1)
  else return none

theorem groupStart_eq (hn : n ≤ source.length) : groupStart source n =
    .ok ((group? (before source n)).map fun rest => (rest.length : Int)) := by
  rw [groupStart, follows_eq Bracket.isClosing hn, ok_bind]
  rcases position_cases hn with rfl | ⟨m, c, rfl, hm, hget, hbefore⟩
  · rfl
  · have hi : ((m + 1 : Nat) : Int) - 1 = m := by omega
    have hlength : (before source m).length = m := by
      rw [before_length]
      omega
    rw [hbefore, hi, group?]
    cases hc : Bracket.ofChar? c with
    | none => simp [Bracket.isClosing, hc]
    | some b =>
      obtain ⟨shape, opens⟩ := b
      cases opens with
      | true => simp [Bracket.isClosing, hc]
      | false =>
        have hloop := @loop_partnerRound source m hm.le [shape] (by simp)
        have hclosing : (c :: before source m).head?.any Bracket.isClosing = true := by
          simp [Bracket.isClosing, hc]
        rw [hclosing, if_pos rfl, partner, if_pos ⟨by omega, by omega⟩, read_of_getElem? hget,
          ok_bind, hc]
        dsimp only
        rw [hloop]
        cases hd : Bracket.partnerDistance false [shape] (before source m) with
        | none => rfl
        | some k =>
          have hlt := Bracket.partnerDistance_lt hd
          simp only [Option.map_some, List.length_drop]
          congr 2
          omega

/-! Expressions. -/

/-- Takes a group or an identifier off the end of an expression, with the mark before it. -/
def expressionRound (source : List Char) (cursor : Int) :
    Except Fault (Round Int (Option Int)) := do
  match ← groupStart source cursor with
  | some opening =>
    return .again ((Matcher.literalStart source ['?', '.'] opening).getD opening)
  | none =>
    if ← follows Bracket.isClosing source cursor then return .done none
    else
      match ← identifierStart source cursor with
      | none => return .done none
      | some start =>
        match ← memberMarkStart source start with
        | some mark => return .again mark
        | none =>
          let new ← newStart source start
          return .done (some (new.getD start))

/-- The longest expression that ends at a position. -/
def scan (source : List Char) (position : Int) : Except Fault (Option Scan.Span) :=
  if 0 < position ∧ position ≤ source.length then do
    match ← loop (expressionRound source) (source.length + 1) position with
    | none => return none
    | some start =>
      return some ⟨start.toNat, position.toNat, Scan.slice source start.toNat position.toNat⟩
  else return none

theorem skipOptionalMark_eq_literal? (behind : List Char) :
    skipOptionalMark behind = (literal? ['?', '.'] behind).getD behind := by
  unfold skipOptionalMark
  split
  · rfl
  · rename_i hne
    cases hl : literal? ['?', '.'] behind with
    | none => rfl
    | some rest => exact absurd (literal?_eq_some.mp hl) (hne rest)

theorem skipOptionalMark_isSuffix (behind : List Char) : skipOptionalMark behind <:+ behind := by
  obtain ⟨o, -, ho⟩ := skipOptionalMark_eq behind
  exact ⟨o.reverse, ho.symm⟩

theorem identifier?_of_isClosing {behind : List Char}
    (h : behind.head?.any Bracket.isClosing = true) : identifier? behind = none := by
  cases behind with
  | nil => rfl
  | cons c behind => simp [identifier?, not_isNameChar_of_isClosing (by simpa using h)]

theorem loop_expressionRound (hn : n ≤ source.length) :
    loop (expressionRound source) (source.length + 1) n =
      .ok ((Scan.expression? (before source n)).map fun rest => (rest.length : Int)) := by
  refine loop_eq (fun (s : Int) (a : Option Int) => ∃ n : Nat, s = n ∧ n ≤ source.length ∧
    a = (Scan.expression? (before source n)).map fun rest => (rest.length : Int))
    Int.toNat ?_ ⟨n, rfl, hn, rfl⟩ (by rw [Int.toNat_natCast]; omega)
  rintro s a ⟨n, rfl, hn, rfl⟩
  have hlength : (before source n).length = n := by
    rw [before_length]
    omega
  rw [Scan.expression?_step, expressionRound, groupStart_eq hn, ok_bind]
  cases hg : group? (before source n) with
  | some rest =>
    obtain ⟨g, -, hshape⟩ := group?_eq_some.mp hg
    obtain ⟨hrest, hle⟩ := before_of_isSuffix hn ⟨g.reverse, hshape.symm⟩
    obtain ⟨hskip, hskiple⟩ := before_of_isSuffix hn
      ((skipOptionalMark_isSuffix rest).trans ⟨g.reverse, hshape.symm⟩)
    have hshorter := (skipOptionalMark_length rest).trans_lt (group?_length hg)
    have hmark : ((Matcher.literalStart source ['?', '.'] rest.length).getD rest.length) =
        ((skipOptionalMark rest).length : Int) := by
      rw [literalStart_eq _ (hle.trans hn), hrest, skipOptionalMark_eq_literal?]
      cases literal? ['?', '.'] rest <;> rfl
    refine Or.inr ⟨((skipOptionalMark rest).length : Int), ?_,
      ⟨(skipOptionalMark rest).length, rfl, hskiple.trans hn, by rw [hskip]⟩, by omega⟩
    rw [Option.map_some]
    dsimp only
    rw [hmark, pure_eq_ok]
  | none =>
    rw [Option.map_none]
    dsimp only
    rw [follows_eq _ hn, ok_bind]
    cases hc : (before source n).head?.any Bracket.isClosing with
    | true =>
      left
      rw [identifier?_of_isClosing hc]
      rfl
    | false =>
      rw [if_neg (by simp), identifierStart_eq hn, ok_bind]
      cases hi : identifier? (before source n) with
      | none => exact Or.inl rfl
      | some rest =>
        obtain ⟨hrest, hle⟩ := before_of_isSuffix hn (identifier?_isSuffix hi)
        rw [Option.map_some]
        dsimp only
        rw [memberMarkStart_eq (hle.trans hn), hrest, ok_bind]
        cases hm : memberMark? rest with
        | none =>
          left
          rw [Option.map_none]
          dsimp only
          rw [newStart_eq (hle.trans hn), hrest, ok_bind, pure_eq_ok]
          cases newKeyword? rest <;> rfl
        | some further =>
          obtain ⟨d, -, hd⟩ := memberMark?_eq_some hm
          obtain ⟨hfurther, hfurtherle⟩ := before_of_isSuffix hn
            (List.IsSuffix.trans ⟨d.reverse, hd.symm⟩ (identifier?_isSuffix hi))
          have hshorter := (memberMark?_length hm).trans (identifier?_length hi)
          exact Or.inr ⟨further.length, rfl,
            ⟨further.length, rfl, hfurtherle.trans hn, by rw [hfurther]⟩, by omega⟩

/-- Searching for an expression never goes wrong, and finds the expression that ends there. -/
theorem scan_eq (source : List Char) (position : Int) :
    scan source position = .ok (Scan.at? source position) := by
  rw [scan, Scan.at?]
  by_cases hp : 0 < position ∧ position ≤ source.length
  · obtain ⟨n, rfl⟩ := Int.eq_ofNat_of_zero_le hp.1.le
    have hn : n ≤ source.length := by exact_mod_cast hp.2
    rw [if_pos hp, if_pos hp, loop_expressionRound hn, Int.toNat_natCast, ok_bind]
    cases Scan.expression? (before source n) <;> rfl
  · rw [if_neg hp, if_neg hp]
    rfl

/-! The open call and the end of a word. -/

/-- Looks for the call around a cursor: the position, the groups closed on the way and the commas. -/
def callRound (source : List Char) (state : Int × Nat × Nat) :
    Except Fault (Round (Int × Nat × Nat) (Option OpenCall)) :=
  if 0 ≤ state.1 then do
    let c ← read source state.1
    let before := state.1 - 1
    return if Bracket.isClosing c then .again (before, state.2.1 + 1, state.2.2)
      else if Bracket.isOpening c then
        if 0 < state.2.1 then .again (before, state.2.1 - 1, state.2.2)
        else if c == '(' then .done (some ⟨state.1.toNat, state.2.2⟩)
        else .again (before, 0, 0)
      else if state.2.1 == 0 && c == ',' then .again (before, state.2.1, state.2.2 + 1)
      else if state.2.1 == 0 && c == ';' then .done none
      else .again (before, state.2.1, state.2.2)
  else return .done none

def openCall (source : List Char) (cursor : Int) : Except Fault (Option OpenCall) :=
  loop (callRound source) (source.length + 1) (min cursor source.length - 1, 0, 0)

theorem loop_callRound (hn : n ≤ source.length) (depth commas : Nat) :
    loop (callRound source) (source.length + 1) ((n : Int) - 1, depth, commas) =
      .ok (OpenCall.walk depth commas (before source n)) := by
  refine loop_eq (fun (s : Int × Nat × Nat) (a : Option OpenCall) => ∃ n : Nat,
    s.1 = (n : Int) - 1 ∧ n ≤ source.length ∧ a = OpenCall.walk s.2.1 s.2.2 (before source n))
    (fun s => (s.1 + 1).toNat) ?_ ⟨n, rfl, hn, rfl⟩ (by dsimp only; omega)
  rintro ⟨i, depth, commas⟩ a ⟨n, hi, hn, rfl⟩
  obtain rfl : i = (n : Int) - 1 := hi
  dsimp only
  rcases position_cases hn with rfl | ⟨m, c, rfl, hm, hget, hbefore⟩
  · exact Or.inl rfl
  · have hi : ((m + 1 : Nat) : Int) - 1 = m := by omega
    have hlength : (before source m).length = m := by
      rw [before_length]
      omega
    have hagain : ∀ d k, ∃ n : Nat, ((m : Int) - 1, d, k).1 = (n : Int) - 1 ∧ n ≤ source.length ∧
        OpenCall.walk d k (before source m) = OpenCall.walk d k (before source n) :=
      fun d k => ⟨m, rfl, hm.le, rfl⟩
    rw [hbefore, hi, callRound, if_pos (by dsimp only; omega), read_of_getElem? hget, ok_bind]
    simp only [OpenCall.walk, pure_eq_ok, Int.toNat_natCast]
    by_cases hclosing : Bracket.isClosing c = true
    · rw [if_pos hclosing, if_pos hclosing]
      exact Or.inr ⟨_, rfl, hagain _ _, by dsimp only; omega⟩
    · rw [if_neg hclosing, if_neg hclosing]
      by_cases hopening : Bracket.isOpening c = true
      · rw [if_pos hopening, if_pos hopening]
        cases depth with
        | succ d => exact Or.inr ⟨_, rfl, hagain _ _, by dsimp only; omega⟩
        | zero =>
          by_cases hround : (c == '(') = true
          · left
            simp [hround, hlength]
          · exact Or.inr ⟨(m - 1, 0, 0), by simp [hround], by simpa [hround] using hagain 0 0,
              by dsimp only; omega⟩
      · rw [if_neg hopening, if_neg hopening]
        by_cases hcomma : (depth == 0 && c == ',') = true
        · rw [if_pos hcomma, if_pos hcomma]
          exact Or.inr ⟨_, rfl, hagain _ _, by dsimp only; omega⟩
        · rw [if_neg hcomma, if_neg hcomma]
          by_cases hend : (depth == 0 && c == ';') = true
          · left
            rw [if_pos hend, if_pos hend]
          · rw [if_neg hend, if_neg hend]
            exact Or.inr ⟨_, rfl, hagain _ _, by dsimp only; omega⟩

theorem openCall_eq (source : List Char) (cursor : Int) :
    openCall source cursor = .ok (OpenCall.find? source cursor) := by
  have hsame : before source cursor.toNat = before source (min cursor.toNat source.length) := by
    rw [before, before, ← List.take_eq_take_min]
  rw [openCall, OpenCall.find?, hsame]
  by_cases hc : 0 ≤ cursor
  · have hmin : min cursor (source.length : Int) = (min cursor.toNat source.length : Nat) := by
      omega
    rw [hmin]
    exact loop_callRound (Nat.min_le_right _ _) 0 0
  · have hmin : min cursor.toNat source.length = 0 := by omega
    rw [hmin, loop, callRound, if_neg (by dsimp only; omega)]
    rfl

end Stepwise
end ScriptSense
