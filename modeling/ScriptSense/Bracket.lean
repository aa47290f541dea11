/-! Brackets and their partners. A search starts at a bracket and runs away from it, forward from an
opening bracket and backward from a closing one; both directions are one function on the list of
characters met on the way. Strings and comments are not recognised. -/
namespace ScriptSense

inductive Shape where
  | round
  | square
  | curly
  deriving DecidableEq, Repr

structure Bracket where
  shape : Shape
  opens : Bool
  deriving DecidableEq, Repr

namespace Bracket

def ofChar? : Char → Option Bracket
  | '(' => some ⟨.round, true⟩
  | ')' => some ⟨.round, false⟩
  | '[' => some ⟨.square, true⟩
  | ']' => some ⟨.square, false⟩
  | '\x7b' => some ⟨.curly, true⟩
  | '\x7d' => some ⟨.curly, false⟩
  | _ => none

def isOpening (c : Char) : Bool := (ofChar? c).any (·.opens)

def isClosing (c : Char) : Bool := (ofChar? c).any (!·.opens)

/-- Runs over `text` with the shapes still to be answered, innermost first. Brackets that point like
the start (`opens`) are pushed, the others answer the innermost one. The result is the number of
characters before the answer to the outermost shape; a wrong shape ends the search. -/
def partnerDistance (opens : Bool) : List Shape → List Char → Option Nat
  | _, [] => none
  | stack, c :: cs =>
    match ofChar? c with
    | none => (partnerDistance opens stack cs).map (· + 1)
    | some b =>
      if b.opens = opens then (partnerDistance opens (b.shape :: stack) cs).map (· + 1)
      else
        match stack with
        | [] => none
        | top :: rest =>
          if top ≠ b.shape then none
          else if rest.isEmpty then some 0
          else (partnerDistance opens rest cs).map (· + 1)

theorem partnerDistance_lt {opens : Bool} {stack : List Shape} {text : List Char} {n : Nat}
    (h : partnerDistance opens stack text = some n) : n < text.length := by
  induction text generalizing stack n with
  | nil => simp [partnerDistance] at h
  | cons c cs ih =>
    simp only [partnerDistance] at h
    split at h
    · obtain ⟨k, hk, rfl⟩ := Option.map_eq_some_iff.1 h
      have := ih hk
      simp only [List.length_cons]; omega
    · split at h
      · obtain ⟨k, hk, rfl⟩ := Option.map_eq_some_iff.1 h
        have := ih hk
        simp only [List.length_cons]; omega
      · split at h
        · cases h
        · split at h
          · cases h
          · split at h
            · cases h; simp
            · obtain ⟨k, hk, rfl⟩ := Option.map_eq_some_iff.1 h
              have := ih hk
              simp only [List.length_cons]; omega

/-- The position asked about holds no bracket. -/
structure Missing where
  position : Int
  deriving DecidableEq, Repr

def Missing.message (e : Missing) : String :=
  "No bracket at position " ++ toString e.position

/-- The position of the partner of the bracket at `i`, if there is a bracket and it has one. -/
def partnerAt? (source : List Char) (i : Nat) : Option Nat :=
  match source.drop i with
  | [] => none
  | c :: after =>
    match ofChar? c with
    | none => none
    | some ⟨shape, true⟩ => (partnerDistance true [shape] after).map (i + 1 + ·)
    | some ⟨shape, false⟩ =>
      (partnerDistance false [shape] (source.take i).reverse).map (i - 1 - ·)

def partner? (source : List Char) (position : Int) : Except Missing (Option Nat) :=
  if 0 ≤ position then
    match source[position.toNat]? with
    | none => .error ⟨position⟩
    | some c =>
      if (ofChar? c).isSome then .ok (partnerAt? source position.toNat) else .error ⟨position⟩
  else .error ⟨position⟩

end Bracket
end ScriptSense
