import ScriptSense.Bracket

/-! Partners of brackets. A text is properly nested if its brackets answer each other group by group,
shape by shape; this can be read in either direction. The partner of a bracket is the one with which
it encloses a properly nested text, so that searching forward and searching backward undo each
other. -/
namespace ScriptSense
namespace Bracket

/-- Texts whose brackets are properly nested when they are read in the direction in which brackets
that point as `opens` says begin a group. -/
inductive Nested (opens : Bool) : List Char → Prop
  | nil : Nested opens []
  | plain {c : Char} {text : List Char} (hc : ofChar? c = none) (ht : Nested opens text) :
    Nested opens (c :: text)
  | group {first last : Char} {shape : Shape} {inner more : List Char}
    (hfirst : ofChar? first = some ⟨shape, opens⟩) (hlast : ofChar? last = some ⟨shape, !opens⟩)
    (hinner : Nested opens inner) (hmore : Nested opens more) :
    Nested opens (first :: (inner ++ last :: more))

namespace Nested

variable {opens : Bool} {t u : List Char}

theorem append (ht : Nested opens t) (hu : Nested opens u) : Nested opens (t ++ u) := by
  induction ht with
  | nil => exact hu
  | plain hc _ ih => exact .plain hc ih
  | group hfirst hlast hinner _ _ ih =>
    rw [List.cons_append, List.append_assoc, List.cons_append]
    exact .group hfirst hlast hinner ih

theorem reverse (h : Nested opens t) : Nested (!opens) t.reverse := by
  induction h with
  | nil => exact .nil
  | plain hc _ ih =>
    rw [List.reverse_cons]
    exact ih.append (.plain hc .nil)
  | @group first last shape inner more hfirst hlast _ _ ihinner ihmore =>
    have hshape : (first :: (inner ++ last :: more)).reverse =
        more.reverse ++ last :: (inner.reverse ++ first :: []) := by simp
    rw [hshape]
    exact ihmore.append (.group hlast (by rw [Bool.not_not]; exact hfirst) ihinner .nil)

theorem partnerDistance (h : Nested opens t) (top : Shape) (below : List Shape) (more : List Char) :
    Bracket.partnerDistance opens (top :: below) (t ++ more) =
      (Bracket.partnerDistance opens (top :: below) more).map (· + t.length) := by
  induction h generalizing top below more with
  | nil => simp
  | @plain c text hc _ ih =>
    rw [List.cons_append, Bracket.partnerDistance]
    simp only [hc]
    rw [ih, Option.map_map]
    rfl
  | @group first last shape inner further hfirst hlast _ _ ihinner ihfurther =>
    have hturn : (!opens) ≠ opens := by cases opens <;> decide
    rw [List.cons_append, List.append_assoc, List.cons_append, Bracket.partnerDistance]
    simp only [hfirst, if_true]
    rw [ihinner, Bracket.partnerDistance]
    simp only [hlast, hturn, if_false, ne_eq, not_true_eq_false, List.isEmpty_cons,
      Bool.false_eq_true]
    rw [ihfurther]
    simp only [Option.map_map, List.length_cons, List.length_append]
    congr 1
    funext n
    simp only [Function.comp_apply]
    omega

end Nested

/-- Texts that answer the shapes of a stack, innermost first, and end with the last answer. -/
def Answers (opens : Bool) : List Shape → List Char → Prop
  | [], text => text = []
  | top :: below, text => ∃ inner last more, text = inner ++ last :: more ∧ Nested opens inner ∧
    ofChar? last = some ⟨top, !opens⟩ ∧ Answers opens below more

theorem Answers.plain {opens : Bool} {top : Shape} {below : List Shape} {text : List Char} {c : Char}
    (hc : ofChar? c = none) (h : Answers opens (top :: below) text) :
    Answers opens (top :: below) (c :: text) := by
  obtain ⟨inner, last, more, rfl, hinner, hlast, hmore⟩ := h
  exact ⟨c :: inner, last, more, rfl, .plain hc hinner, hlast, hmore⟩

theorem Answers.group {opens : Bool} {top shape : Shape} {below : List Shape} {text : List Char}
    {c : Char} (hc : ofChar? c = some ⟨shape, opens⟩)
    (h : Answers opens (shape :: top :: below) text) :
    Answers opens (top :: below) (c :: text) := by
  obtain ⟨inner, answer, rest, rfl, hinner, hanswer, further, last, more, rfl, hfurther, hlast,
    hmore⟩ := h
  refine ⟨c :: (inner ++ answer :: further), last, more, by simp, ?_, hlast, hmore⟩
  exact .group hc hanswer hinner hfurther

/-- What a search has run over when it ends answers the stack that it began with. -/
theorem answers_of_partnerDistance {opens : Bool} {top : Shape} {below : List Shape}
    {text : List Char} {n : Nat} (h : partnerDistance opens (top :: below) text = some n) :
    Answers opens (top :: below) (text.take (n + 1)) := by
  induction text generalizing top below n with
  | nil => simp [partnerDistance] at h
  | cons c cs ih =>
    simp only [partnerDistance] at h
    split at h
    · rename_i hc
      obtain ⟨k, hk, rfl⟩ := Option.map_eq_some_iff.mp h
      exact (ih hk).plain hc
    · rename_i b hc
      obtain ⟨shape, direction⟩ := b
      by_cases hd : direction = opens
      · rw [if_pos hd] at h
        obtain ⟨k, hk, rfl⟩ := Option.map_eq_some_iff.mp h
        exact (ih hk).group (hd ▸ hc)
      · rw [if_neg hd] at h
        have hturn : direction = !opens := by cases direction <;> cases opens <;> simp_all
        by_cases htop : top = shape
        · subst htop hturn
          cases below with
          | nil =>
            obtain rfl : 0 = n := by simpa using h
            exact ⟨[], c, [], by simp, .nil, hc, rfl⟩
          | cons next further =>
            have hgo : (partnerDistance opens (next :: further) cs).map (· + 1) = some n := by
              simpa using h
            obtain ⟨k, hk, rfl⟩ := Option.map_eq_some_iff.mp hgo
            exact ⟨[], c, cs.take (k + 1), by simp, .nil, hc, ih hk⟩
        · simp [htop] at h

theorem partnerDistance_eq_some_iff {opens : Bool} {shape : Shape} {text : List Char} {n : Nat} :
    partnerDistance opens [shape] text = some n ↔ ∃ inner last more,
      text = inner ++ last :: more ∧ inner.length = n ∧ Nested opens inner ∧
      ofChar? last = some ⟨shape, !opens⟩ := by
  constructor
  · intro h
    have hlt := partnerDistance_lt h
    obtain ⟨inner, last, more, htake, hinner, hlast, rfl⟩ := answers_of_partnerDistance h
    have hlength : inner.length = n := by
      have := congrArg List.length htake
      simp only [List.length_take, List.length_append, List.length_cons, List.length_nil] at this
      omega
    refine ⟨inner, last, text.drop (n + 1), ?_, hlength, hinner, hlast⟩
    calc text = text.take (n + 1) ++ text.drop (n + 1) := (List.take_append_drop _ _).symm
      _ = inner ++ last :: text.drop (n + 1) := by rw [htake]; simp
  · rintro ⟨inner, last, more, rfl, rfl, hinner, hlast⟩
    have hturn : (!opens) ≠ opens := by cases opens <;> decide
    rw [hinner.partnerDistance, partnerDistance]
    simp [hlast, hturn]

/-- The opening bracket at `a` and the closing bracket at `b` have one shape, and what stands between
them is properly nested. -/
def Encloses (source : List Char) (a b : Nat) : Prop :=
  ∃ before first inner last after shape, source = before ++ first :: (inner ++ last :: after) ∧
    a = before.length ∧ b = before.length + 1 + inner.length ∧
    ofChar? first = some ⟨shape, true⟩ ∧ ofChar? last = some ⟨shape, false⟩ ∧ Nested true inner

variable {source : List Char} {i j : Nat}

theorem partnerAt?_opening {before after : List Char} {c : Char} {shape : Shape}
    (hc : ofChar? c = some ⟨shape, true⟩) : partnerAt? (before ++ c :: after) before.length =
      (partnerDistance true [shape] after).map (before.length + 1 + ·) := by
  simp [partnerAt?, hc]

theorem partnerAt?_closing {before after : List Char} {c : Char} {shape : Shape}
    (hc : ofChar? c = some ⟨shape, false⟩) : partnerAt? (before ++ c :: after) before.length =
      (partnerDistance false [shape] before.reverse).map (before.length - 1 - ·) := by
  simp [partnerAt?, hc]

theorem Encloses.partnerAt? (h : Encloses source i j) :
    Bracket.partnerAt? source i = some j ∧ Bracket.partnerAt? source j = some i := by
  obtain ⟨before, first, inner, last, after, shape, rfl, rfl, rfl, hfirst, hlast, hinner⟩ := h
  constructor
  · have hahead : partnerDistance true [shape] (inner ++ last :: after) = some inner.length :=
      partnerDistance_eq_some_iff.mpr ⟨inner, last, after, rfl, rfl, hinner, hlast⟩
    rw [partnerAt?_opening hfirst, hahead, Option.map_some]
  · have hbehind : partnerDistance false [shape] (before ++ first :: inner).reverse =
        some inner.length := by
      refine partnerDistance_eq_some_iff.mpr
        ⟨inner.reverse, first, before.reverse, by simp, by simp, hinner.reverse, hfirst⟩
    have hsource : before ++ first :: (inner ++ last :: after) =
        (before ++ first :: inner) ++ last :: after := by simp
    have hposition : before.length + 1 + inner.length = (before ++ first :: inner).length := by
      simp only [List.length_append, List.length_cons]
      omega
    rw [hsource, hposition, partnerAt?_closing hlast, hbehind, Option.map_some]
    congr 1
    simp only [List.length_append, List.length_cons]
    omega

theorem encloses_of_partnerAt? (h : partnerAt? source i = some j) :
    Encloses source i j ∨ Encloses source j i := by
  cases hdrop : source.drop i with
  | nil => simp [partnerAt?, hdrop] at h
  | cons c after =>
    have hlt : i < source.length := by
      have := congrArg List.length hdrop
      simp only [List.length_drop, List.length_cons] at this
      omega
    obtain ⟨before, rfl, rfl⟩ : ∃ before, source = before ++ c :: after ∧ i = before.length := by
      refine ⟨source.take i, by rw [← hdrop, List.take_append_drop], ?_⟩
      rw [List.length_take]
      omega
    cases hc : ofChar? c with
    | none => simp [partnerAt?, hc] at h
    | some b =>
      obtain ⟨shape, direction⟩ := b
      cases direction with
      | true =>
        rw [partnerAt?_opening hc] at h
        obtain ⟨n, hn, rfl⟩ := Option.map_eq_some_iff.mp h
        obtain ⟨inner, last, more, rfl, rfl, hinner, hlast⟩ := partnerDistance_eq_some_iff.mp hn
        exact Or.inl ⟨before, c, inner, last, more, shape, rfl, rfl, rfl, hc, hlast, hinner⟩
      | false =>
        rw [partnerAt?_closing hc] at h
        obtain ⟨n, hn, rfl⟩ := Option.map_eq_some_iff.mp h
        obtain ⟨inner, first, more, hbefore, rfl, hinner, hfirst⟩ :=
          partnerDistance_eq_some_iff.mp hn
        obtain rfl : before = more.reverse ++ first :: inner.reverse := by
          rw [← List.reverse_reverse before, hbefore]
          simp
        refine Or.inr ⟨more.reverse, first, inner.reverse, c, after, shape, by simp, ?_, ?_, hfirst,
          hc, hinner.reverse⟩
        · simp only [List.length_append, List.length_cons, List.length_reverse]
          omega
        · simp only [List.length_append, List.length_cons, List.length_reverse]
          omega

theorem partnerAt?_eq_some_iff :
    partnerAt? source i = some j ↔ Encloses source i j ∨ Encloses source j i :=
  ⟨encloses_of_partnerAt?, fun h => h.elim (·.partnerAt?.1) (·.partnerAt?.2)⟩

/-- A position of the text that holds a bracket. -/
def Holds (source : List Char) (position : Int) : Prop :=
  ∃ (n : Nat) (c : Char) (b : Bracket),
    position = n ∧ source[n]? = some c ∧ ofChar? c = some b

theorem partner?_of_holds (h : Holds source i) : partner? source i = .ok (partnerAt? source i) := by
  obtain ⟨n, c, b, hn, hget, hc⟩ := h
  obtain rfl : i = n := Int.ofNat_inj.mp hn
  simp [partner?, hget, hc]

theorem partner?_of_not_holds {position : Int} (h : ¬Holds source position) :
    partner? source position = .error ⟨position⟩ := by
  rw [partner?]
  split
  · rename_i hpos
    obtain ⟨n, rfl⟩ := Int.eq_ofNat_of_zero_le hpos
    rw [Int.toNat_natCast]
    cases hget : source[n]? with
    | none => rfl
    | some c =>
      cases hc : ofChar? c with
      | none => simp [hc]
      | some b => exact absurd ⟨n, c, b, rfl, hget, hc⟩ h
  · rfl

theorem Encloses.holds (h : Encloses source i j) : Holds source i ∧ Holds source j := by
  obtain ⟨before, first, inner, last, after, shape, rfl, rfl, rfl, hfirst, hlast, -⟩ := h
  refine ⟨⟨_, first, _, rfl, by simp, hfirst⟩, ⟨_, last, _, rfl, ?_, hlast⟩⟩
  have hsource : before ++ first :: (inner ++ last :: after) =
      (before ++ first :: inner) ++ last :: after := by simp
  have hposition : before.length + 1 + inner.length = (before ++ first :: inner).length := by
    simp only [List.length_append, List.length_cons]
    omega
  rw [hsource, hposition]
  simp

theorem partner?_eq_some_iff :
    partner? source i = .ok (some j) ↔ Encloses source i j ∨ Encloses source j i := by
  rw [← partnerAt?_eq_some_iff]
  by_cases h : Holds source i
  · rw [partner?_of_holds h, Except.ok.injEq]
  · rw [partner?_of_not_holds h]
    constructor
    · intro he
      cases he
    · intro he
      rcases partnerAt?_eq_some_iff.mp he with he | he
      · exact absurd he.holds.1 h
      · exact absurd he.holds.2 h

/-- The partner of a bracket is the bracket with which it encloses a properly nested text; a bracket
that encloses none with any other has no partner, and only brackets can be asked about. Partners are
partners of each other. -/
theorem partner?_encloses_and_symm (source : List Char) :
    (∀ i j : Nat, partner? source i = .ok (some j) ↔
      Encloses source i j ∨ Encloses source j i) ∧
    (∀ i : Nat, partner? source i = .ok none ↔
      Holds source i ∧ ∀ j, ¬(Encloses source i j ∨ Encloses source j i)) ∧
    (∀ position : Int, partner? source position = .error ⟨position⟩ ↔ ¬Holds source position) ∧
    ∀ i j : Nat, partner? source i = .ok (some j) ↔ partner? source j = .ok (some i) := by
  refine ⟨fun i j => partner?_eq_some_iff, fun i => ?_, fun position => ?_, fun i j => ?_⟩
  · by_cases h : Holds source i
    · rw [partner?_of_holds h, Except.ok.injEq, Option.eq_none_iff_forall_ne_some]
      simp only [ne_eq, partnerAt?_eq_some_iff, h, true_and]
    · rw [partner?_of_not_holds h]
      simp [h]
  · constructor
    · rintro he ⟨n, c, b, rfl, hget, hc⟩
      simp [partner?, hget, hc] at he
    · exact partner?_of_not_holds
  · rw [partner?_eq_some_iff, partner?_eq_some_iff, or_comm]

-- groups that overlap have no partners, and neither has a group around them
example : (List.range 8).map (partnerAt? "{([)]}()".toList) =
    [none, none, none, none, none, none, some 7, some 6] := by decide

end Bracket
end ScriptSense
