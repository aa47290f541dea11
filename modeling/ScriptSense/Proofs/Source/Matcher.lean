import ScriptSense.Proofs.Source.Stepwise

/-! Matchers as functions of the text behind a position. Each matcher takes a piece off the end of
that text; what remains says where the match starts. Nothing ahead of the position is read, except
that a window of negative width, which can hold the empty text only, lies within the source just at
its very end. Main statement: from every position in the text every matcher answers, also when it is
carried out character by character, with a start between the beginning of the text and the position,
and unless it looks for the empty text in a negative window, the text after the position does not
matter. -/
namespace ScriptSense
namespace Matcher

open Text Backward

/-- How many characters a window holds that ends `n` characters into a text of `total`. A window
beyond its end is none. -/
def room? (total n : Nat) (window : Int) : Option Nat :=
  let first := min ((n : Int) - window).toNat total
  if first ≤ n then some (n - first) else none

def back? (total : Nat) : Matcher → List Char → Option (List Char)
  | literal text, behind => literal? text behind
  | word text, behind => word? text behind
  | identifier, behind => identifier? behind
  | whitespace required, behind =>
    let rest := skipBlanks behind
    if required && rest.length == behind.length then none else some rest
  | bracketed, behind => group? behind
  | digits window, behind => (room? total behind.length window).bind (digitRun? · behind)
  | windowed text window, behind =>
    (room? total behind.length window).bind (literalWithin? text · behind)
  | receiverTail window, behind =>
    (room? total behind.length window).bind (receiverTail? · behind)
  | exceptAfter inner chars, behind =>
    (inner.back? total behind).filter fun rest => !(rest.head?.any chars.contains)
  | seq first second, behind => (second.back? total behind).bind (first.back? total)
  | alt first second, behind => (first.back? total behind).or (second.back? total behind)
  | maybe inner, behind => some ((inner.back? total behind).getD behind)

end Matcher

namespace Backward

theorem take_congr {s t : List Char} {n m : Nat} (h : s.take n = t.take n) (hm : m ≤ n) :
    s.take m = t.take m := by
  calc
    s.take m = (s.take n).take m := by rw [List.take_take, Nat.min_eq_left hm]
    _ = (t.take n).take m := by rw [h]
    _ = t.take m := by rw [List.take_take, Nat.min_eq_left hm]

theorem before_congr {s t : List Char} {n m : Nat} (h : s.take n = t.take n) (hm : m ≤ n) :
    before s m = before t m := by rw [before, before, take_congr h hm]

theorem group?_isSuffix {behind rest : List Char} (h : group? behind = some rest) :
    rest <:+ behind := by
  obtain ⟨g, -, rfl⟩ := group?_eq_some.mp h
  exact List.suffix_append _ _

theorem receiverTail?_suffix {window : Nat} {behind rest : List Char}
    (h : receiverTail? window behind = some rest) : ∃ c, c :: rest <:+ behind := by
  have hmark : skipBlanks (behind.drop (behind.takeWhile Text.isNameChar).length) <:+ behind :=
    (skipBlanks_isSuffix _).trans (List.drop_suffix _ _)
  simp only [receiverTail?] at h
  split at h
  · cases h
  · generalize skipBlanks (behind.drop (behind.takeWhile Text.isNameChar).length) = mark at h hmark
    split at h
    · split at h
      · cases h
        exact ⟨'?', (List.suffix_cons _ _).trans hmark⟩
      · split at h
        · cases h
          exact ⟨'.', hmark⟩
        · cases h
    · split at h
      · cases h
        exact ⟨'.', hmark⟩
      · cases h
    · cases h

theorem receiverTail?_length {window : Nat} {behind rest : List Char}
    (h : receiverTail? window behind = some rest) : rest.length < behind.length := by
  obtain ⟨c, hc⟩ := receiverTail?_suffix h
  exact hc.length_le

theorem receiverTail?_zero (behind : List Char) : receiverTail? 0 behind = none := by
  simp only [receiverTail?]
  split
  · rfl
  · split <;> simp

end Backward

namespace Matcher

open Text Backward

variable {total : Nat} {behind rest : List Char}

theorem back?_isSuffix {m : Matcher} (h : m.back? total behind = some rest) : rest <:+ behind := by
  induction m generalizing behind rest with
  | literal text => exact literal?_isSuffix h
  | word text =>
    rw [back?, word?, Option.filter_eq_some_iff] at h
    exact literal?_isSuffix h.1
  | identifier => exact identifier?_isSuffix h
  | whitespace required =>
    simp only [back?] at h
    split at h
    · cases h
    · cases h
      exact skipBlanks_isSuffix behind
  | bracketed => exact group?_isSuffix h
  | digits window =>
    obtain ⟨room, -, hrun⟩ := Option.bind_eq_some_iff.mp h
    simp only [digitRun?] at hrun
    split at hrun
    · cases hrun
    · cases hrun
      exact List.drop_suffix _ _
  | windowed text window =>
    obtain ⟨room, -, hliteral⟩ := Option.bind_eq_some_iff.mp h
    rw [literalWithin?] at hliteral
    split at hliteral
    · exact literal?_isSuffix hliteral
    · cases hliteral
  | receiverTail window =>
    obtain ⟨room, -, htail⟩ := Option.bind_eq_some_iff.mp h
    obtain ⟨c, hc⟩ := receiverTail?_suffix htail
    exact (List.suffix_cons c _).trans hc
  | exceptAfter inner chars ih =>
    rw [back?, Option.filter_eq_some_iff] at h
    exact ih h.1
  | seq first second ihfirst ihsecond =>
    obtain ⟨between, hsecond, hfirst⟩ := Option.bind_eq_some_iff.mp h
    exact (ihfirst hfirst).trans (ihsecond hsecond)
  | alt first second ihfirst ihsecond =>
    rcases Option.or_eq_some_iff.mp h with hfirst | ⟨-, hsecond⟩
    · exact ihfirst hfirst
    · exact ihsecond hsecond
  | maybe inner ih =>
    obtain rfl : (inner.back? total behind).getD behind = rest := Option.some.inj h
    cases hb : inner.back? total behind with
    | none => exact List.suffix_rfl
    | some rest => exact ih hb

/-! The answer of a matcher. -/

variable {source : List Char} {n : Nat}

theorem inWindow_eq (hn : n ≤ source.length) (window : Int)
    (find : Nat → List Char → Option (List Char)) : inWindow source n window find =
      ((room? source.length n window).bind (find · (before source n))).map
        fun rest => (rest.length : Int) := by
  have hlast : min (n : Int).toNat source.length = n := by omega
  simp only [inWindow, room?, hlast]
  split <;> rfl

theorem reading_eq (hn : n ≤ source.length) (read : List Char → Option Int) :
    reading source n read = .ok (read (before source n)) := by
  rw [reading]
  by_cases hz : (n : Int) ≤ 0
  · have hzero : n = 0 := by omega
    rw [if_pos hz, hzero]
    rfl
  · rw [if_neg hz, if_pos (by omega), Int.toNat_natCast]

theorem start_eq (m : Matcher) (hn : n ≤ source.length) : m.start source n =
    .ok ((m.back? source.length (before source n)).map fun rest => (rest.length : Int)) := by
  have hlength : (before source n).length = n := by
    rw [before_length]
    omega
  induction m generalizing n with
  | literal text => exact congrArg Except.ok (Stepwise.literalStart_eq text hn)
  | word text =>
    rw [start, Stepwise.literalStart_eq text hn, back?, word?]
    cases hl : literal? text (before source n) with
    | none => rfl
    | some rest =>
      obtain ⟨hrest, -⟩ := Stepwise.before_of_isSuffix hn (literal?_isSuffix hl)
      simp only [Option.map_some, Option.filter_some, Int.toNat_natCast, hrest]
      split <;> rfl
  | identifier => exact reading_eq hn _
  | whitespace required =>
    have hle := (skipBlanks_isSuffix (before source n)).length_le
    have hnone : n - (skipBlanks (before source n)).length = 0 ↔
        (skipBlanks (before source n)).length = n := by omega
    have hstart : (n : Int) - ((n - (skipBlanks (before source n)).length : Nat) : Int) =
        ((skipBlanks (before source n)).length : Int) := by omega
    rw [start, reading_eq hn]
    simp only [back?, hlength, Bool.and_eq_true, beq_iff_eq, hnone, hstart]
    split <;> rfl
  | bracketed => exact reading_eq hn _
  | digits window =>
    rw [start, inWindow_eq hn, back?, hlength]
  | windowed text window =>
    rw [start, inWindow_eq hn, back?, hlength]
  | receiverTail window =>
    rw [start, inWindow_eq hn, back?, hlength]
  | exceptAfter inner chars ih =>
    rw [start, ih hn hlength, back?]
    cases hi : inner.back? source.length (before source n) with
    | none => rfl
    | some rest =>
      obtain ⟨hrest, hle⟩ := Stepwise.before_of_isSuffix hn (back?_isSuffix hi)
      simp only [Option.map_some, Stepwise.ok_bind, Stepwise.pure_eq_ok, Option.filter_some]
      rcases Stepwise.position_cases (hle.trans hn) with hz | ⟨m, c, hm, -, hget, hbefore⟩
      · obtain rfl := List.eq_nil_of_length_eq_zero hz
        simp
      · have hpos : ¬(rest.length : Int) ≤ 0 := by omega
        have hindex : (rest.length : Int).toNat - 1 = m := by omega
        have hhead : rest.head?.any chars.contains = chars.contains c := by
          rw [← hrest, hm, hbefore]
          rfl
        rw [if_neg hpos, hindex, hget, hhead]
        dsimp only
        cases chars.contains c <;> rfl
  | seq first second ihfirst ihsecond =>
    rw [start, ihsecond hn hlength, back?]
    cases hs : second.back? source.length (before source n) with
    | none => rfl
    | some rest =>
      obtain ⟨hrest, hle⟩ := Stepwise.before_of_isSuffix hn (back?_isSuffix hs)
      have hfirst := ihfirst (hle.trans hn) (by rw [hrest])
      rw [hrest] at hfirst
      exact hfirst
  | alt first second ihfirst ihsecond =>
    rw [start, ihfirst hn hlength, back?]
    cases first.back? source.length (before source n) with
    | none => exact ihsecond hn hlength
    | some rest => rfl
  | maybe inner ih =>
    rw [start, ih hn hlength, back?]
    cases inner.back? source.length (before source n) with
    | none => simp [hlength]
    | some rest => rfl

end Matcher

namespace Stepwise

open Text Backward

/-- Where the match that ends at a position starts, looked for character by character. Literals and
windowed patterns are compared as a whole. -/
def matchStart (source : List Char) : Matcher → Int → Except Fault (Option Int)
  | .literal text, position => return Matcher.literalStart source text position
  | .word text, position => wordStart text source position
  | .identifier, position => identifierStart source position
  | .whitespace required, position => do
    let start ← backWhile isBlank source position
    return if required && start == position then none else some start
  | .bracketed, position => groupStart source position
  | .digits window, position =>
    return Matcher.inWindow source position window Matcher.digitRun?
  | .windowed text window, position =>
    return Matcher.inWindow source position window (Matcher.literalWithin? text)
  | .receiverTail window, position => return Matcher.inWindow source position window receiverTail?
  | .exceptAfter inner chars, position => do
    match ← matchStart source inner position with
    | none => return none
    | some start =>
      let excluded ← follows chars.contains source start
      return if excluded then none else some start
  | .seq first second, position => do
    match ← matchStart source second position with
    | none => return none
    | some start => matchStart source first start
  | .alt first second, position => do
    match ← matchStart source first position with
    | some start => return some start
    | none => matchStart source second position
  | .maybe inner, position => do
    match ← matchStart source inner position with
    | some start => return some start
    | none => return some position

variable {source : List Char} {n : Nat}

theorem matchStart_eq (m : Matcher) (hn : n ≤ source.length) : matchStart source m n =
    .ok ((m.back? source.length (before source n)).map fun rest => (rest.length : Int)) := by
  have hlength : (before source n).length = n := by
    rw [before_length]
    omega
  induction m generalizing n with
  | literal text => exact congrArg Except.ok (literalStart_eq text hn)
  | word text => exact wordStart_eq text hn
  | identifier => exact identifierStart_eq hn
  | whitespace required =>
    rw [matchStart, backWhile_eq isBlank hn]
    simp only [Matcher.back?, hlength, skipBlanks, ok_bind, pure_eq_ok, Bool.and_eq_true,
      beq_iff_eq, Int.natCast_inj]
    split <;> rfl
  | bracketed => exact groupStart_eq hn
  | digits window =>
    rw [matchStart, Matcher.inWindow_eq hn, Matcher.back?, hlength]
    rfl
  | windowed text window =>
    rw [matchStart, Matcher.inWindow_eq hn, Matcher.back?, hlength]
    rfl
  | receiverTail window =>
    rw [matchStart, Matcher.inWindow_eq hn, Matcher.back?, hlength]
    rfl
  | exceptAfter inner chars ih =>
    rw [matchStart, ih hn hlength, Matcher.back?]
    cases hi : inner.back? source.length (before source n) with
    | none => rfl
    | some rest =>
      obtain ⟨hrest, hle⟩ := before_of_isSuffix hn (Matcher.back?_isSuffix hi)
      simp only [Option.map_some, ok_bind]
      rw [follows_eq _ (hle.trans hn), hrest, ok_bind, pure_eq_ok, Option.filter_some]
      cases rest.head?.any chars.contains <;> rfl
  | seq first second ihfirst ihsecond =>
    rw [matchStart, ihsecond hn hlength, Matcher.back?]
    cases hs : second.back? source.length (before source n) with
    | none => rfl
    | some rest =>
      obtain ⟨hrest, hle⟩ := before_of_isSuffix hn (Matcher.back?_isSuffix hs)
      have hfirst := ihfirst (hle.trans hn) (by rw [hrest])
      rw [hrest] at hfirst
      exact hfirst
  | alt first second ihfirst ihsecond =>
    rw [matchStart, ihfirst hn hlength, Matcher.back?]
    cases first.back? source.length (before source n) with
    | none => exact ihsecond hn hlength
    | some rest => rfl
  | maybe inner ih =>
    rw [matchStart, ih hn hlength, Matcher.back?]
    cases inner.back? source.length (before source n) with
    | none => simp [hlength]
    | some rest => rfl

end Stepwise

namespace Matcher

open Text Backward

/-! What the text after the position can change. -/

/-- Nowhere is the empty text looked for in a window of negative width. -/
def LooksBack : Matcher → Prop
  | windowed text window => text ≠ [] ∨ 0 ≤ window
  | exceptAfter inner _ => inner.LooksBack
  | seq first second => first.LooksBack ∧ second.LooksBack
  | alt first second => first.LooksBack ∧ second.LooksBack
  | maybe inner => inner.LooksBack
  | _ => True

theorem exists_combined {ms : List Matcher} (h : ms ≠ []) :
    (∃ m, seqOf ms = .ok m ∧ (m.LooksBack ↔ ∀ k ∈ ms, k.LooksBack)) ∧
    ∃ m, altOf ms = .ok m ∧ (m.LooksBack ↔ ∀ k ∈ ms, k.LooksBack) := by
  induction ms with
  | nil => exact absurd rfl h
  | cons k ms ih =>
    cases ms with
    | nil => exact ⟨⟨k, rfl, by simp⟩, ⟨k, rfl, by simp⟩⟩
    | cons l ms =>
      obtain ⟨⟨s, hs, hseq⟩, ⟨a, ha, halt⟩⟩ := ih (by simp)
      have hall : (k.LooksBack ∧ ∀ m ∈ l :: ms, m.LooksBack) ↔ ∀ m ∈ k :: l :: ms, m.LooksBack :=
        List.forall_mem_cons.symm
      refine ⟨⟨seq k s, ?_, by rw [LooksBack, hseq, hall]⟩,
        ⟨alt k a, ?_, by rw [LooksBack, halt, hall]⟩⟩
      · change (seqOf (l :: ms)).map (seq k) = _
        rw [hs]
        rfl
      · change (altOf (l :: ms)).map (alt k) = _
        rw [ha]
        rfl

variable {source behind : List Char} {n total other : Nat} {window : Int}

/-- A window of negative width lies within the text only at its end, and is empty there. -/
theorem room?_of_neg (hn : n ≤ total) (hw : window < 0) :
    room? total n window = if n = total then some 0 else none := by
  simp only [room?]
  by_cases he : n = total
  · rw [if_pos he, if_pos (by omega)]
    congr 1
    omega
  · rw [if_neg he, if_neg (by omega)]

/-- What is found in a window does not depend on the text after it, if its width is not negative or
nothing is found in an empty one. -/
theorem bind_room?_congr {find : Nat → List Char → Option (List Char)}
    (h : 0 ≤ window ∨ ∀ behind, find 0 behind = none) (hn : n ≤ total) (hother : n ≤ other) :
    (room? total n window).bind (find · behind) = (room? other n window).bind (find · behind) := by
  by_cases hw : 0 ≤ window
  · have hfirst : min ((n : Int) - window).toNat total = min ((n : Int) - window).toNat other := by
      omega
    simp only [room?, hfirst]
  · have hzero : ∀ t, n ≤ t → (room? t n window).bind (find · behind) = none := by
      intro t ht
      rw [room?_of_neg ht (by omega)]
      split
      · exact (h.resolve_left hw) behind
      · rfl
    rw [hzero total hn, hzero other hother]

theorem digitRun?_zero (behind : List Char) : digitRun? 0 behind = none := by simp [digitRun?]

theorem literalWithin?_zero {text : List Char} (h : text ≠ []) (behind : List Char) :
    literalWithin? text 0 behind = none := by
  rw [literalWithin?, if_neg]
  rw [Nat.le_zero, List.length_eq_zero_iff]
  exact h

theorem back?_congr {m : Matcher} (h : m.LooksBack) (hn : behind.length ≤ total)
    (hother : behind.length ≤ other) : m.back? total behind = m.back? other behind := by
  induction m generalizing behind with
  | digits window => exact bind_room?_congr (.inr digitRun?_zero) hn hother
  | windowed text window =>
    exact bind_room?_congr (h.symm.imp_right literalWithin?_zero) hn hother
  | receiverTail window => exact bind_room?_congr (.inr receiverTail?_zero) hn hother
  | exceptAfter inner chars ih => rw [back?, back?, ih h hn hother]
  | seq first second ihfirst ihsecond =>
    rw [back?, back?, ihsecond h.2 hn hother]
    refine Option.bind_congr fun rest hrest => ?_
    have hle := (back?_isSuffix hrest).length_le
    exact ihfirst h.1 (hle.trans hn) (hle.trans hother)
  | alt first second ihfirst ihsecond =>
    rw [back?, back?, ihfirst h.1 hn hother, ihsecond h.2 hn hother]
  | maybe inner ih => rw [back?, back?, ih h hn hother]
  | _ => rfl

/-- The empty text is found in a window of negative width only at the very end of the source. -/
theorem start_windowed_nil (hn : n ≤ source.length) (hw : window < 0) :
    (windowed [] window).start source n =
      .ok (if (n : Int) = source.length then some (n : Int) else none) := by
  have hlength : (before source n).length = n := by
    rw [before_length]
    omega
  rw [start_eq _ hn, back?, hlength, room?_of_neg hn hw]
  by_cases he : n = source.length
  · have hnil : literalWithin? [] 0 (before source n) = some (before source n) := by
      simp [literalWithin?, literal?]
    rw [if_pos he, if_pos (by omega), Option.bind_some, hnil, Option.map_some, hlength]
  · rw [if_neg he, if_neg (by omega)]
    rfl

theorem start_replaced {m : Matcher} (h : m.LooksBack) (hn : n ≤ source.length)
    (after : List Char) : m.start (source.take n ++ after) n = m.start source n := by
  have hbound : n ≤ (source.take n ++ after).length := by
    rw [List.length_append, List.length_take]
    omega
  have htake : (source.take n ++ after).take n = source.take n := by
    rw [List.take_append_of_le_length (by rw [List.length_take]; omega), List.take_take,
      Nat.min_self]
  have hle : (before source n).length ≤ n := by
    rw [before_length]
    exact Nat.min_le_left _ _
  rw [start_eq m hbound, start_eq m hn, before_congr htake le_rfl,
    back?_congr h (hle.trans hbound) (hle.trans hn)]

/-- Lists of matchers but the empty one can be combined. From every position in the text a matcher
answers, also when it is carried out character by character, with a start between the beginning of
the text and the position. The answer stays the same when the text after the position is replaced,
unless the empty text is looked for in a window of negative width: such a window has nothing in it but
the end of the source. -/
theorem start_within_looking_back :
    (∀ ms : List Matcher, ms ≠ [] →
      (∃ m, seqOf ms = .ok m ∧ (m.LooksBack ↔ ∀ k ∈ ms, k.LooksBack)) ∧
      ∃ m, altOf ms = .ok m ∧ (m.LooksBack ↔ ∀ k ∈ ms, k.LooksBack)) ∧
    ∀ (m : Matcher) (source : List Char) (position : Int), 0 ≤ position →
      position ≤ source.length →
      (∃ found, m.start source position = .ok found ∧
        Stepwise.matchStart source m position = .ok found ∧
        (∀ s, found = some s → 0 ≤ s ∧ s ≤ position) ∧
        (m.LooksBack →
          ∀ after, m.start (source.take position.toNat ++ after) position = .ok found)) ∧
      ∀ window < 0, (windowed [] window).start source position =
        .ok (if position = source.length then some position else none) := by
  refine ⟨fun ms h => exists_combined h, fun m source position hpos hle => ?_⟩
  obtain ⟨n, rfl⟩ := Int.eq_ofNat_of_zero_le hpos
  have hn : n ≤ source.length := by omega
  refine ⟨⟨_, start_eq m hn, Stepwise.matchStart_eq m hn, ?_, ?_⟩,
    fun window hw => start_windowed_nil hn hw⟩
  · intro s hs
    obtain ⟨rest, hrest, rfl⟩ := Option.map_eq_some_iff.mp hs
    have hlength := (back?_isSuffix hrest).length_le
    rw [before_length] at hlength
    omega
  · intro h after
    rw [Int.toNat_natCast, start_replaced h hn, start_eq m hn]

def callEnd : Matcher := .seq .identifier (.seq (.maybe (.literal ['?', '.'])) .bracketed)

theorem start_callEnd : callEnd.LooksBack ∧
    ∀ after, callEnd.start ("g.f?.(x)".toList ++ after) 8 = .ok (some 2) := by
  have hlooks : callEnd.LooksBack := ⟨trivial, trivial, trivial⟩
  obtain ⟨⟨found, hstart, -, -, hafter⟩, -⟩ :=
    start_within_looking_back.2 callEnd "g.f?.(x)".toList 8 (by decide) (by decide)
  have hfound : callEnd.start "g.f?.(x)".toList 8 = .ok (some 2) := by decide
  refine ⟨hlooks, fun after => ?_⟩
  rw [← hfound, hstart]
  exact hafter hlooks after

/-- In a window of negative width the empty text is found at the end of a source, and no longer when
something follows. -/
theorem start_windowed_nil_ahead : ¬∀ (source after : List Char) (position : Int), 0 ≤ position →
    position ≤ source.length → (windowed [] (-1)).start (source.take position.toNat ++ after)
      position = (windowed [] (-1)).start source position := by
  intro h
  have hsame := h ['a', 'b'] [] 1 (by decide) (by decide)
  exact absurd hsame (by decide)

end Matcher
end ScriptSense
