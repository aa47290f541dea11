import Mathlib.Data.List.Forall2
import Mathlib.Data.List.TakeWhile
import ScriptSense.Proofs.Disk.Matching
import ScriptSense.Proofs.Glob.Sets

/-! What a path pattern matches. A pattern is a list of segments, and a segment is a list of tokens;
on both levels a text is matched when it can be cut into blocks, one for each member of the list in
order, such that every member takes its block. A double star takes any segments, a star takes any
characters, and all other members take exactly one. Main statement: the search over the cuts finds
one whenever there is one. -/
namespace ScriptSense
namespace Glob

open Text

section Blocks

variable {α β : Type} {takes : α → List β → Prop} {item : α} {items : List α}

/-- A list is cut into blocks that the items take, one each and in order. -/
def Blocks (takes : α → List β → Prop) (items : List α) (whole : List β) : Prop :=
  ∃ blocks : List (List β), blocks.flatten = whole ∧ List.Forall₂ takes items blocks

theorem blocks_nil {whole : List β} : Blocks takes [] whole ↔ whole = [] := by
  constructor
  · rintro ⟨blocks, rfl, h⟩
    rw [List.forall₂_nil_left_iff.mp h, List.flatten_nil]
  · rintro rfl
    exact ⟨[], rfl, .nil⟩

theorem blocks_cons {whole : List β} : Blocks takes (item :: items) whole ↔
    ∃ block rest, whole = block ++ rest ∧ takes item block ∧ Blocks takes items rest := by
  constructor
  · rintro ⟨blocks, rfl, h⟩
    obtain ⟨block, more, hblock, hmore, rfl⟩ := List.forall₂_cons_left_iff.mp h
    exact ⟨block, more.flatten, rfl, hblock, more, rfl, hmore⟩
  · rintro ⟨block, _, rfl, hblock, more, rfl, hmore⟩
    exact ⟨block :: more, rfl, .cons hblock hmore⟩

theorem blocks_append {front back : List α} {whole : List β} :
    Blocks takes (front ++ back) whole ↔
      ∃ before after, whole = before ++ after ∧ Blocks takes front before ∧
        Blocks takes back after := by
  induction front generalizing whole with
  | nil => simp [blocks_nil]
  | cons item front ih =>
    simp only [List.cons_append, blocks_cons, ih]
    constructor
    · rintro ⟨block, _, rfl, hblock, before, after, rfl, hbefore, hafter⟩
      exact ⟨block ++ before, after, by simp, ⟨block, before, rfl, hblock, hbefore⟩, hafter⟩
    · rintro ⟨_, after, rfl, ⟨block, before, rfl, hblock, hbefore⟩, hafter⟩
      exact ⟨block, before ++ after, by simp, hblock, before, after, rfl, hbefore, hafter⟩

/-! An item that takes everything: its block is empty, or it takes one more. -/

theorem blocks_cons_all_nil (h : ∀ block, takes item block) :
    Blocks takes (item :: items) [] ↔ Blocks takes items [] := by
  rw [blocks_cons]
  constructor
  · rintro ⟨block, rest, he, -, hrest⟩
    rwa [(List.append_eq_nil_iff.mp he.symm).2] at hrest
  · intro hrest
    exact ⟨[], [], rfl, h [], hrest⟩

theorem blocks_cons_all_cons (h : ∀ block, takes item block) {b : β} {whole : List β} :
    Blocks takes (item :: items) (b :: whole) ↔
      Blocks takes items (b :: whole) ∨ Blocks takes (item :: items) whole := by
  rw [blocks_cons, blocks_cons]
  constructor
  · rintro ⟨block, rest, he, -, hrest⟩
    cases block with
    | nil => exact .inl (by rwa [he])
    | cons d block =>
      obtain ⟨-, rfl⟩ := List.cons.inj he
      exact .inr ⟨block, rest, rfl, h block, hrest⟩
  · rintro (hrest | ⟨block, rest, rfl, -, hrest⟩)
    · exact ⟨[], b :: whole, rfl, h [], hrest⟩
    · exact ⟨b :: block, rest, rfl, h _, hrest⟩

theorem blocks_replicate_all (h : ∀ block, takes item block) (k : Nat) (whole : List β) :
    Blocks takes (List.replicate (k + 1) item) whole := by
  induction k with
  | zero => exact ⟨[whole], by simp, .cons (h whole) .nil⟩
  | succ k ih =>
    rw [List.replicate_succ, blocks_cons]
    exact ⟨[], whole, rfl, h [], ih⟩

theorem blocks_collapse (h : ∀ block, takes item block) (front back : List α) (k : Nat)
    (whole : List β) :
    Blocks takes (front ++ List.replicate (k + 1) item ++ back) whole ↔
      Blocks takes (front ++ item :: back) whole := by
  have hrun : ∀ n rest, Blocks takes (List.replicate (n + 1) item ++ back) rest ↔
      ∃ before after, rest = before ++ after ∧ Blocks takes back after := by
    intro n rest
    simp only [blocks_append, blocks_replicate_all h, true_and]
  have hone : item :: back = List.replicate (0 + 1) item ++ back := rfl
  rw [List.append_assoc, hone, blocks_append, blocks_append]
  simp only [hrun]

/-! An item that takes single elements. -/

theorem blocks_cons_one_nil {p : β → Prop} (h : ∀ block, takes item block ↔ ∃ b, block = [b] ∧ p b) :
    ¬ Blocks takes (item :: items) [] := by
  rw [blocks_cons]
  rintro ⟨block, rest, he, hblock, -⟩
  obtain ⟨b, rfl, -⟩ := (h block).mp hblock
  cases he

theorem blocks_cons_one_cons {p : β → Prop}
    (h : ∀ block, takes item block ↔ ∃ b, block = [b] ∧ p b) {b : β} {whole : List β} :
    Blocks takes (item :: items) (b :: whole) ↔ p b ∧ Blocks takes items whole := by
  rw [blocks_cons]
  constructor
  · rintro ⟨block, rest, he, hblock, hrest⟩
    obtain ⟨d, rfl, hd⟩ := (h block).mp hblock
    obtain ⟨rfl, rfl⟩ := List.cons.inj he
    exact ⟨hd, hrest⟩
  · rintro ⟨hb, hrest⟩
    exact ⟨[b], whole, rfl, (h [b]).mpr ⟨b, rfl, hb⟩, hrest⟩

theorem Blocks.mono {takes' : α → List β → Prop} {whole : List β} (h : Blocks takes items whole)
    (hmono : ∀ item ∈ items, ∀ block, takes item block → takes' item block) :
    Blocks takes' items whole := by
  induction items generalizing whole with
  | nil => exact blocks_nil.mpr (blocks_nil.mp h)
  | cons item items ih =>
    obtain ⟨block, rest, rfl, hblock, hrest⟩ := blocks_cons.mp h
    exact blocks_cons.mpr ⟨block, rest, rfl, hmono item List.mem_cons_self block hblock,
      ih hrest fun i hi => hmono i (List.mem_cons_of_mem _ hi)⟩

end Blocks

/-! The tokens of a segment. -/

inductive Token where
  | star
  | any
  | set (inner : List Char)
  | char (c : Char)
  deriving DecidableEq, Repr

def Token.Takes (accepts : List Char → Char → Bool) : Token → List Char → Prop
  | star, _ => True
  | any, block => ∃ c, block = [c]
  | set inner, block => ∃ c, block = [c] ∧ accepts inner c = true
  | char d, block => block = [d]

/-- The text of a set: a closing bracket stands at most in first place, after the exclamation mark
if there is one. -/
def IsSet (inner : List Char) : Prop :=
  let body := if inner.head? = some '!' then inner.tail else inner
  body ≠ [] ∧ ']' ∉ body.tail

/-- How a segment is read. A square bracket that no set begins at stands for itself. -/
inductive Reads : List Char → List Token → Prop
  | nil : Reads [] []
  | star {rest tokens} : Reads rest tokens → Reads ('*' :: rest) (.star :: tokens)
  | any {rest tokens} : Reads rest tokens → Reads ('?' :: rest) (.any :: tokens)
  | set {inner rest tokens} : IsSet inner → Reads rest tokens →
      Reads ('[' :: (inner ++ ']' :: rest)) (.set inner :: tokens)
  | unclosed {rest tokens} : (∀ inner after, IsSet inner → rest ≠ inner ++ ']' :: after) →
      Reads rest tokens → Reads ('[' :: rest) (.char '[' :: tokens)
  | char {c rest tokens} : c ≠ '*' → c ≠ '?' → c ≠ '[' → Reads rest tokens →
      Reads (c :: rest) (.char c :: tokens)

/-- A text is taken by a segment, token by token. -/
def Fits (accepts : List Char → Char → Bool) (segment part : List Char) : Prop :=
  ∃ tokens, Reads segment tokens ∧ Blocks (Token.Takes accepts) tokens part

/-- A double star takes any path segments, every other segment takes one that fits it. -/
def Takes (accepts : List Char → Char → Bool) (segment : List Char) (block : List (List Char)) :
    Prop :=
  segment ≠ doubleStar → ∃ part, block = [part] ∧ Fits accepts segment part

/-- No set of a pattern has an exclamation mark that is taken for a leading one. -/
def SetsAsWritten (pattern : List Char) : Prop :=
  ∀ segment ∈ splitAt '/' pattern, ∃ tokens, Reads segment tokens ∧
    ∀ inner, .set inner ∈ tokens → refused? inner = none

/-! The pieces are the tokens. -/

theorem takeWhile_closed {body : List Char} (h : ']' ∉ body) (after : List Char) :
    (body ++ ']' :: after).takeWhile (· != ']') = body := by
  have hbody : ∀ c ∈ body, (c != ']') = true := by
    intro c hc
    have hne : c ≠ ']' := by
      rintro rfl
      exact h hc
    simpa using hne
  rw [List.takeWhile_append_of_pos hbody, List.takeWhile_cons_of_neg (by simp), List.append_nil]

/-- How much of the text of a set may hold a closing bracket. -/
def lead (rest : List Char) : Nat :=
  let mark := if rest.head? = some '!' then 1 else 0
  if (rest.drop mark).head? = some ']' then mark + 1 else mark

theorem setText?_eq_some_iff_lead (rest inner after : List Char) :
    setText? rest = some (inner, after) ↔
      ∃ body, ']' ∉ body ∧ inner = rest.take (lead rest) ++ body ∧
        rest.drop (lead rest) = body ++ ']' :: after := by
  constructor
  · intro h
    simp only [setText?] at h
    generalize hb : rest.drop _ = tail at h
    have htail : (rest.drop (lead rest)).drop
        ((rest.drop (lead rest)).takeWhile (· != ']')).length = tail := by
      rw [List.drop_drop]
      exact hb
    by_cases hm : ']' ∈ rest.drop (lead rest)
    · obtain ⟨body, more, hrest, hbody⟩ := List.eq_append_cons_of_mem hm
      have htaken : (rest.drop (lead rest)).takeWhile (· != ']') = body := by
        rw [hrest, takeWhile_closed hbody]
      rw [htaken, hrest, List.drop_left] at htail
      subst htail
      have hpair := Prod.mk.inj (Option.some.inj h)
      refine ⟨body, hbody, ?_, by rw [hrest, hpair.2]⟩
      rw [← htaken]
      exact hpair.1.symm
    · have hall : (rest.drop (lead rest)).takeWhile (· != ']') = rest.drop (lead rest) := by
        rw [List.takeWhile_eq_self_iff]
        intro c hc
        have hne : c ≠ ']' := by
          rintro rfl
          exact hm hc
        simpa using hne
      rw [hall, List.drop_length] at htail
      subst htail
      cases h
  · rintro ⟨body, hbody, rfl, hrest⟩
    have htaken : (rest.drop (lead rest)).takeWhile (· != ']') = body := by
      rw [hrest, takeWhile_closed hbody]
    simp only [setText?]
    generalize hb : rest.drop _ = tail
    have htail : (rest.drop (lead rest)).drop
        ((rest.drop (lead rest)).takeWhile (· != ']')).length = tail := by
      rw [List.drop_drop]
      exact hb
    rw [htaken, hrest, List.drop_left] at htail
    subst htail
    exact congrArg (fun taken => some (rest.take (lead rest) ++ taken, after)) htaken

theorem isSet_iff_lead (inner after : List Char) :
    IsSet inner ↔ ∃ body, ']' ∉ body ∧
      inner = (inner ++ ']' :: after).take (lead (inner ++ ']' :: after)) ++ body := by
  cases inner with
  | nil => simp [IsSet, lead]
  | cons c body =>
    by_cases hmark : c = '!'
    · subst hmark
      cases body with
      | nil => simp [IsSet, lead]
      | cons d body =>
        by_cases hd : d = ']'
        · simp [IsSet, lead, hd]
        · simp [IsSet, lead, hd, Ne.symm hd]
    · by_cases hc : c = ']'
      · simp [IsSet, lead, hc]
      · simp [IsSet, lead, hmark, hc, Ne.symm hc]

theorem setText?_eq_some_iff (rest inner after : List Char) :
    setText? rest = some (inner, after) ↔ IsSet inner ∧ rest = inner ++ ']' :: after := by
  rw [setText?_eq_some_iff_lead]
  constructor
  · rintro ⟨body, hbody, rfl, hrest⟩
    have hwhole : rest = rest.take (lead rest) ++ body ++ ']' :: after := by
      rw [List.append_assoc, ← hrest, List.take_append_drop]
    refine ⟨(isSet_iff_lead _ after).mpr ⟨body, hbody, ?_⟩, hwhole⟩
    rw [← hwhole]
  · rintro ⟨hset, rfl⟩
    obtain ⟨body, hbody, hinner⟩ := (isSet_iff_lead inner after).mp hset
    refine ⟨body, hbody, hinner, ?_⟩
    generalize lead (inner ++ ']' :: after) = k at hinner ⊢
    have hcut : (inner ++ ']' :: after).take k ++ (inner ++ ']' :: after).drop k =
        (inner ++ ']' :: after).take k ++ (body ++ ']' :: after) := by
      rw [List.take_append_drop, ← List.append_assoc, ← hinner]
    exact List.append_cancel_left hcut

def Token.piece : Token → Piece
  | star => .star
  | any => .any
  | set inner => setOf inner
  | char c => .char c

theorem Reads.pieces_eq {segment : List Char} {tokens : List Token} (h : Reads segment tokens) :
    pieces segment = tokens.map Token.piece := by
  induction h with
  | nil => simp [pieces]
  | star _ ih => simp [pieces, ih, Token.piece]
  | any _ ih => simp [pieces, ih, Token.piece]
  | @set inner rest tokens hset _ ih =>
    have htext : setText? (inner ++ ']' :: rest) = some (inner, rest) :=
      (setText?_eq_some_iff _ _ _).mpr ⟨hset, rfl⟩
    rw [pieces]
    split
    · rename_i hs
      rw [htext] at hs
      cases hs
      simp [ih, Token.piece]
    · rename_i hs
      rw [htext] at hs
      cases hs
  | @unclosed rest tokens hopen _ ih =>
    rw [pieces]
    split
    · rename_i inner after hs
      obtain ⟨hset, he⟩ := (setText?_eq_some_iff _ _ _).mp hs
      exact absurd he (hopen inner after hset)
    · simp [ih, Token.piece]
  | char hstar hany hopen _ ih =>
    rw [pieces_char hstar hany hopen, ih, List.map_cons, Token.piece]

theorem exists_reads (segment : List Char) : ∃ tokens, Reads segment tokens := by
  induction segment using pieces.induct with
  | case1 => exact ⟨_, .nil⟩
  | case2 rest ih => exact ⟨_, .star ih.choose_spec⟩
  | case3 rest ih => exact ⟨_, .any ih.choose_spec⟩
  | case4 rest inner after hs ih =>
    obtain ⟨hset, rfl⟩ := (setText?_eq_some_iff _ _ _).mp hs
    exact ⟨_, .set hset ih.choose_spec⟩
  | case5 rest hs ih =>
    refine ⟨_, .unclosed (fun inner after hset he => ?_) ih.choose_spec⟩
    rw [(setText?_eq_some_iff _ _ _).mpr ⟨hset, he⟩] at hs
    cases hs
  | case6 c rest hstar hany hopen ih => exact ⟨_, .char hstar hany hopen ih.choose_spec⟩

theorem Reads.unique {segment : List Char} {tokens others : List Token} (h : Reads segment tokens)
    (h' : Reads segment others) : tokens = others := by
  induction h generalizing others with
  | nil =>
    cases h'
    rfl
  | star _ ih =>
    cases h' with
    | star h' => rw [ih h']
    | char hne => exact absurd rfl hne
  | any _ ih =>
    cases h' with
    | any h' => rw [ih h']
    | char _ hne => exact absurd rfl hne
  | @set inner rest tokens hset _ ih =>
    generalize hs : '[' :: (inner ++ ']' :: rest) = segment at h'
    cases h' with
    | @set inner' rest' _ hset' h' =>
      have htext := (setText?_eq_some_iff _ _ _).mpr ⟨hset, (List.cons.inj hs).2.symm⟩
      rw [(setText?_eq_some_iff _ _ _).mpr ⟨hset', rfl⟩] at htext
      cases htext
      rw [ih h']
    | unclosed hopen => exact absurd (List.cons.inj hs).2.symm (hopen inner rest hset)
    | char _ _ hne => exact absurd (List.cons.inj hs).1.symm hne
    | _ => simp at hs
  | @unclosed rest tokens hopen _ ih =>
    generalize hs : '[' :: rest = segment at h'
    cases h' with
    | @set inner' rest' _ hset' h' => exact absurd (List.cons.inj hs).2 (hopen inner' rest' hset')
    | unclosed _ h' =>
      cases hs
      rw [ih h']
    | char _ _ hne => exact absurd (List.cons.inj hs).1.symm hne
    | _ => simp at hs
  | char hstar hany hset _ ih =>
    cases h' with
    | char _ _ _ h' => rw [ih h']
    | star => exact absurd rfl hstar
    | any => exact absurd rfl hany
    | set => exact absurd rfl hset
    | unclosed => exact absurd rfl hset

/-! A segment covers a text as its tokens take it. -/

theorem coverage_cons (c : Char) (text : List Char) (pattern : List Piece) :
    coverage (c :: text) pattern = covers pattern (c :: text) :: coverage text pattern := by
  obtain ⟨b, bs, hb⟩ := List.exists_cons_of_ne_nil (coverage_ne_nil (c :: text) pattern)
  have htail := tail_coverage_cons c text pattern
  rw [hb, List.tail_cons] at htail
  simp [covers, hb, htail]

theorem coverage_nil (pattern : List Piece) : coverage [] pattern = [covers pattern []] := by
  induction pattern with
  | nil => rfl
  | cons piece more ih =>
    by_cases hp : piece = .star
    · have hstar : coverage [] (piece :: more) = [covers more []] := by
        rw [hp, coverage, ih]
        simp [orLater]
      rw [covers, hstar]
      simp
    · simp [covers, coverage_step hp]

theorem any_coverage (text : List Char) (more : List Piece) :
    (coverage text more).any id = covers (.star :: more) text := by
  obtain ⟨b, bs, hb⟩ := List.exists_cons_of_ne_nil (coverage_ne_nil text more)
  simp [covers, coverage, hb, orLater]

theorem covers_star_nil (more : List Piece) : covers (.star :: more) [] = covers more [] := by
  rw [← any_coverage, coverage_nil]
  simp

theorem covers_star_cons (more : List Piece) (c : Char) (text : List Char) :
    covers (.star :: more) (c :: text) = (covers more (c :: text) || covers (.star :: more) text) := by
  rw [← any_coverage, ← any_coverage, coverage_cons]
  rfl

theorem Token.piece_ne_star {token : Token} (h : token ≠ .star) : token.piece ≠ .star := by
  cases token with
  | star => exact absurd rfl h
  | any => simp [piece]
  | char c => simp [piece]
  | set inner =>
    simp only [piece, setOf]
    split <;> simp

theorem Token.takes_iff {token : Token} (h : token ≠ .star) (block : List Char) :
    token.Takes taken block ↔ ∃ c, block = [c] ∧ token.piece.accepts c = true := by
  cases token with
  | star => exact absurd rfl h
  | any => simp [Takes, piece, Piece.accepts]
  | set inner => simp only [Takes, piece, setOf_accepts]
  | char d => simp [Takes, piece, Piece.accepts]

theorem covers_iff_blocks (tokens : List Token) (text : List Char) :
    covers (tokens.map Token.piece) text = true ↔ Blocks (Token.Takes taken) tokens text := by
  induction tokens generalizing text with
  | nil => cases text <;> simp [covers, coverage, blocks_nil]
  | cons token tokens ih =>
    rw [List.map_cons]
    by_cases hstar : token = .star
    · subst hstar
      have hall : ∀ block, Token.Takes taken .star block := fun _ => trivial
      change covers (.star :: tokens.map Token.piece) text = true ↔ _
      induction text with
      | nil => rw [covers_star_nil, blocks_cons_all_nil hall, ih]
      | cons c text ihtext =>
        rw [covers_star_cons, Bool.or_eq_true, blocks_cons_all_cons hall, ih, ihtext]
    · have hpiece := token.piece_ne_star hstar
      cases text with
      | nil =>
        rw [covers_nil hpiece]
        simpa using blocks_cons_one_nil (token.takes_iff hstar)
      | cons c text =>
        rw [covers_cons hpiece, Bool.and_eq_true, blocks_cons_one_cons (Token.takes_iff hstar), ih]

theorem segmentMatches_iff_fits (segment part : List Char) :
    segmentMatches segment part = true ↔ Fits taken segment part := by
  constructor
  · intro h
    obtain ⟨tokens, hread⟩ := exists_reads segment
    rw [segmentMatches, hread.pieces_eq, covers_iff_blocks] at h
    exact ⟨tokens, hread, h⟩
  · rintro ⟨tokens, hread, h⟩
    rw [segmentMatches, hread.pieces_eq, covers_iff_blocks]
    exact h

theorem takes_doubleStar (accepts : List Char → Char → Bool) (block : List (List Char)) :
    Takes accepts doubleStar block := fun h => absurd rfl h

theorem takes_iff_of_ne {segment : List Char} (h : segment ≠ doubleStar)
    (accepts : List Char → Char → Bool) (block : List (List Char)) :
    Takes accepts segment block ↔ ∃ part, block = [part] ∧ Fits accepts segment part :=
  ⟨fun ht => ht h, fun ht _ => ht⟩

theorem segmentsMatch_iff_blocks (segments parts : List (List Char)) :
    segmentsMatch segments parts = true ↔ Blocks (Takes taken) segments parts := by
  fun_induction segmentsMatch segments parts with
  | case1 parts => rw [blocks_nil, List.isEmpty_iff]
  | case2 head rest ih =>
    by_cases hhead : head = doubleStar
    · subst hhead
      rw [blocks_cons_all_nil (takes_doubleStar taken), ← ih]
      simp
    · simpa [hhead] using blocks_cons_one_nil (takes_iff_of_ne hhead taken)
  | case3 head rest part parts hhead ih₁ ih₂ =>
    obtain rfl : head = doubleStar := by simpa using hhead
    rw [Bool.or_eq_true, ih₁, ih₂, blocks_cons_all_cons (takes_doubleStar taken)]
  | case4 head rest part parts hhead ih =>
    rw [Bool.and_eq_true, ih, segmentMatches_iff_fits,
      blocks_cons_one_cons (takes_iff_of_ne (by simpa using hhead) taken)]

theorem fits_congr {segment : List Char} {tokens : List Token} (hread : Reads segment tokens)
    (hsets : ∀ inner, .set inner ∈ tokens → refused? inner = none) (part : List Char) :
    Fits taken segment part ↔ Fits listed segment part := by
  have hsame : ∀ token ∈ tokens, ∀ block : List Char,
      token.Takes taken block ↔ token.Takes listed block := by
    intro token hmem block
    cases token with
    | set inner =>
      have hlisted := (taken_eq_listed_iff inner).mpr (hsets inner hmem)
      simp only [Token.Takes, hlisted]
    | _ => rfl
  constructor
  · rintro ⟨others, hothers, hblocks⟩
    obtain rfl := hread.unique hothers
    exact ⟨tokens, hread, hblocks.mono fun token hmem block => (hsame token hmem block).mp⟩
  · rintro ⟨others, hothers, hblocks⟩
    obtain rfl := hread.unique hothers
    exact ⟨tokens, hread, hblocks.mono fun token hmem block => (hsame token hmem block).mpr⟩

theorem SetsAsWritten.blocks_iff {pattern : List Char} (h : SetsAsWritten pattern)
    (parts : List (List Char)) : Blocks (Takes taken) (splitAt '/' pattern) parts ↔
      Blocks (Takes listed) (splitAt '/' pattern) parts := by
  have hsame : ∀ segment ∈ splitAt '/' pattern, ∀ block,
      Takes taken segment block ↔ Takes listed segment block := by
    intro segment hmem block
    obtain ⟨tokens, hread, hsets⟩ := h segment hmem
    simp only [Takes, fits_congr hread hsets]
  exact ⟨fun hb => hb.mono fun segment hmem block => (hsame segment hmem block).mp,
    fun hb => hb.mono fun segment hmem block => (hsame segment hmem block).mpr⟩

/-- A pattern matches the paths that can be cut into one block for each of its segments, a double
star taking any and every other segment one that fits it. A set takes what it lists unless an
exclamation mark follows backward ranges at its beginning, and a run of double stars is as good as
one. -/
theorem isMatch_iff_blocks (pattern path : List Char) :
    (isMatch pattern path = true ↔
      Blocks (Takes taken) (splitAt '/' pattern) (splitAt '/' path)) ∧
    (SetsAsWritten pattern → (isMatch pattern path = true ↔
      Blocks (Takes listed) (splitAt '/' pattern) (splitAt '/' path))) ∧
    (∀ segment, ∃! tokens, Reads segment tokens) ∧
    (∀ inner, (∀ c, taken inner c = listed inner c) ↔ refused? inner = none) ∧
    ∀ (other : List Char) (front back : List (List Char)) (k : Nat),
      splitAt '/' pattern = front ++ List.replicate (k + 1) doubleStar ++ back →
      splitAt '/' other = front ++ doubleStar :: back →
      isMatch pattern path = isMatch other path := by
  have hmatch : ∀ pattern, isMatch pattern path = true ↔
      Blocks (Takes taken) (splitAt '/' pattern) (splitAt '/' path) :=
    fun pattern => segmentsMatch_iff_blocks _ _
  refine ⟨hmatch pattern, fun h => ?_, fun segment => ?_, taken_eq_listed_iff, ?_⟩
  · rw [hmatch, h.blocks_iff]
  · obtain ⟨tokens, hread⟩ := exists_reads segment
    exact ⟨tokens, hread, fun others hothers => hothers.unique hread⟩
  · intro other front back k hrun hone
    rw [Bool.eq_iff_iff, hmatch, hmatch, hrun, hone, blocks_collapse (takes_doubleStar taken)]

/-- A set after two double stars. -/
theorem isMatch_runThenSet :
    SetsAsWritten "a/**/**/[!b-d]".toList ∧
    (isMatch "a/**/**/[!b-d]".toList "a/x/e".toList = true ↔
      Blocks (Takes listed) (splitAt '/' "a/**/**/[!b-d]".toList) (splitAt '/' "a/x/e".toList)) ∧
    isMatch "a/**/**/[!b-d]".toList "a/x/e".toList =
      isMatch "a/**/[!b-d]".toList "a/x/e".toList := by
  have hsets : SetsAsWritten "a/**/**/[!b-d]".toList := by
    have hsplit : splitAt '/' "a/**/**/[!b-d]".toList =
        ["a".toList, doubleStar, doubleStar, "[!b-d]".toList] := by decide
    intro segment hmem
    rw [hsplit] at hmem
    simp only [List.mem_cons, List.not_mem_nil, or_false] at hmem
    rcases hmem with rfl | rfl | rfl | rfl
    · exact ⟨[.char 'a'], .char (by decide) (by decide) (by decide) .nil, by simp⟩
    · exact ⟨[.star, .star], .star (.star .nil), by simp⟩
    · exact ⟨[.star, .star], .star (.star .nil), by simp⟩
    · have hread : Reads ('[' :: ("!b-d".toList ++ ']' :: [])) [.set "!b-d".toList] :=
        .set (by unfold IsSet; decide) .nil
      exact ⟨_, hread, by simp [refused?]⟩
  obtain ⟨-, hlisted, -, -, hrun⟩ :=
    isMatch_iff_blocks "a/**/**/[!b-d]".toList "a/x/e".toList
  exact ⟨hsets, hlisted hsets, hrun "a/**/[!b-d]".toList ["a".toList] ["[!b-d]".toList] 1
    (by decide) (by decide)⟩

/-- The exclamation mark after a range that runs backward turns the set around. -/
theorem isMatch_backwardThenMark_not_listed :
    ¬ (isMatch "[b-a!c]".toList "c".toList = true ↔
      Blocks (Takes listed) (splitAt '/' "[b-a!c]".toList) (splitAt '/' "c".toList)) := by
  have hread : Reads ('[' :: ("b-a!c".toList ++ ']' :: [])) [.set "b-a!c".toList] :=
    .set (by unfold IsSet; decide) .nil
  have hfits : Fits listed "[b-a!c]".toList "c".toList :=
    ⟨_, hread, ["c".toList], rfl, .cons ⟨'c', rfl, by decide⟩ .nil⟩
  have hlisted : Blocks (Takes listed) (splitAt '/' "[b-a!c]".toList) (splitAt '/' "c".toList) :=
    ⟨[["c".toList]], rfl, .cons (fun _ => ⟨_, rfl, hfits⟩) .nil⟩
  have hpieces : pieces "[b-a!c]".toList = [setOf "b-a!c".toList] := hread.pieces_eq
  have hcovers : covers [setOf "b-a!c".toList] "c".toList = false := by decide
  have hpattern : splitAt '/' "[b-a!c]".toList = ["[b-a!c]".toList] := by decide
  have hpath : splitAt '/' "c".toList = ["c".toList] := by decide
  have hne : ("[b-a!c]".toList == doubleStar) = false := by decide
  have hmatch : isMatch "[b-a!c]".toList "c".toList = false := by
    rw [isMatch, hpattern, hpath, segmentsMatch, hne, segmentMatches, hpieces, hcovers]
    rfl
  rw [hmatch]
  exact fun h => absurd (h.mpr hlisted) Bool.false_ne_true

end Glob
end ScriptSense
