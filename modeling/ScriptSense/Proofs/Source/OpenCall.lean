import Mathlib.Data.List.Induction
import ScriptSense.Source.OpenCall

/-! The call around the cursor, told by reading forward. A reader that keeps the open brackets on a
stack, and with each of them what it met while that bracket was the innermost one, has the call on
its stack at the cursor. Walking backward with two counters gives the same call: a closing bracket
that is passed on the way stands for a frame that is gone from the stack. -/
namespace ScriptSense
namespace OpenCall

/-- An open bracket, and what was read while it was the innermost one. -/
structure Frame where
  bracket : Char
  position : Nat
  commas : Nat
  /-- Whether a semicolon was read. -/
  severed : Bool
  deriving DecidableEq, Repr

def onTop (change : Frame → Frame) : List Frame → List Frame
  | [] => []
  | frame :: frames => change frame :: frames

/-- Reads one character with the open brackets on a stack, innermost first. A closing bracket closes
the innermost one, whatever the two look like. -/
def step (frames : List Frame) (position : Nat) (c : Char) : List Frame :=
  if Bracket.isOpening c then ⟨c, position, 0, false⟩ :: frames
  else if Bracket.isClosing c then frames.tail
  else if c = ',' then onTop (fun frame => { frame with commas := frame.commas + 1 }) frames
  else if c = ';' then onTop (fun frame => { frame with severed := true }) frames
  else frames

def run (frames : List Frame) (position : Nat) : List Char → List Frame
  | [] => frames
  | c :: text => run (step frames position c) (position + 1) text

/-- The brackets that a text leaves open. -/
def openAfter (text : List Char) : List Frame := run [] 0 text

/-- A call on a stack: its bracket is the innermost round one, and no semicolon was read since. -/
def On (call : OpenCall) (frames : List Frame) : Prop :=
  ∃ inner frame outer, frames = inner ++ frame :: outer ∧
    frame.bracket = '(' ∧ frame.position = call.bracket ∧ frame.commas = call.argument ∧
    frame.severed = false ∧ ∀ other ∈ inner, other.bracket ≠ '(' ∧ other.severed = false

theorem run_append (frames : List Frame) (position : Nat) (text more : List Char) :
    run frames position (text ++ more) =
      run (run frames position text) (position + text.length) more := by
  induction text generalizing frames position with
  | nil => rfl
  | cons c text ih =>
    have hposition : position + 1 + text.length = position + (c :: text).length := by
      rw [List.length_cons]
      omega
    rw [List.cons_append, run, ih, hposition]
    rfl

theorem openAfter_concat (text : List Char) (c : Char) :
    openAfter (text ++ [c]) = step (openAfter text) text.length c := by
  have happend := run_append [] 0 text [c]
  rwa [Nat.zero_add] at happend

theorem not_isClosing_of_isOpening {c : Char} (h : Bracket.isOpening c = true) :
    Bracket.isClosing c = false := by
  rw [Bracket.isOpening] at h
  rw [Bracket.isClosing]
  cases hb : Bracket.ofChar? c with
  | none => rfl
  | some b =>
    rw [hb] at h
    have hopens : b.opens = true := h
    simp [hopens]

theorem drop_onTop (change : Frame → Frame) (frames : List Frame) (depth : Nat) :
    (onTop change frames).drop (depth + 1) = frames.drop (depth + 1) := by
  cases frames <;> rfl

/-- The call on a stack, with `commas` more in its innermost frame. -/
def innermost? (commas : Nat) : List Frame → Option OpenCall
  | [] => none
  | frame :: frames =>
    if frame.severed then none
    else if frame.bracket = '(' then some ⟨frame.position, frame.commas + commas⟩
    else innermost? 0 frames

theorem innermost?_comma (commas : Nat) (frames : List Frame) :
    innermost? commas (onTop (fun frame => { frame with commas := frame.commas + 1 }) frames) =
      innermost? (commas + 1) frames := by
  cases frames with
  | nil => rfl
  | cons frame frames =>
    have hsum : frame.commas + 1 + commas = frame.commas + (commas + 1) := by omega
    simp only [onTop, innermost?, hsum]

theorem innermost?_severed (commas : Nat) (frames : List Frame) :
    innermost? commas (onTop (fun frame => { frame with severed := true }) frames) = none := by
  cases frames <;> rfl

/-- What is found backward from the end of a text: each group that is still to be opened takes one
frame off the stack of the text. -/
theorem walk_reverse (text : List Char) (depth commas : Nat) :
    walk depth commas text.reverse = innermost? commas ((openAfter text).drop depth) := by
  induction text using List.reverseRecOn generalizing depth commas with
  | nil =>
    rw [openAfter, run, List.drop_nil]
    rfl
  | append_singleton text c ih =>
    rw [List.reverse_concat, openAfter_concat, walk.eq_def, step]
    by_cases hopening : Bracket.isOpening c = true
    · have hclosing := not_isClosing_of_isOpening hopening
      simp only [hclosing, hopening, if_true, Bool.false_eq_true, if_false]
      cases depth with
      | zero =>
        by_cases hround : c = '('
        · simp [innermost?, hround]
        · simp [innermost?, hround, ih]
      | succ depth => exact ih depth commas
    · by_cases hclosing : Bracket.isClosing c = true
      · have hdrop : (openAfter text).tail.drop depth = (openAfter text).drop (depth + 1) := by
          rw [← List.drop_one, List.drop_drop, Nat.add_comm]
        simp only [hopening, hclosing, if_true, Bool.false_eq_true, if_false, hdrop]
        exact ih (depth + 1) commas
      · simp only [hopening, hclosing, Bool.false_eq_true, if_false]
        -- other characters count only where no group is still to be opened
        cases depth with
        | zero =>
          by_cases hcomma : c = ','
          · simp [hcomma, ih, innermost?_comma]
          · by_cases hsemicolon : c = ';'
            · simp [hsemicolon, innermost?_severed]
            · simp [hcomma, hsemicolon, ih]
        | succ depth =>
          by_cases hcomma : c = ','
          · simp [hcomma, ih, drop_onTop]
          · by_cases hsemicolon : c = ';'
            · simp [hsemicolon, ih, drop_onTop]
            · simp [hcomma, hsemicolon, ih]

theorem innermost?_eq_some_iff (frames : List Frame) (call : OpenCall) :
    innermost? 0 frames = some call ↔ call.On frames := by
  induction frames with
  | nil =>
    constructor
    · intro h
      cases h
    · rintro ⟨inner, frame, outer, hframes, -⟩
      simp at hframes
  | cons top frames ih =>
    rw [innermost?]
    constructor
    · intro h
      by_cases hsevered : top.severed = true
      · simp [hsevered] at h
      · rw [Bool.not_eq_true] at hsevered
        by_cases hround : top.bracket = '('
        · obtain rfl : ⟨top.position, top.commas⟩ = call := by simpa [hsevered, hround] using h
          exact ⟨[], top, frames, rfl, hround, rfl, rfl, hsevered, by simp⟩
        · have hbelow : innermost? 0 frames = some call := by simpa [hsevered, hround] using h
          obtain ⟨inner, frame, outer, rfl, hbracket, hposition, hcommas, hwhole, hinner⟩ :=
            ih.mp hbelow
          refine ⟨top :: inner, frame, outer, rfl, hbracket, hposition, hcommas, hwhole, ?_⟩
          intro other hother
          rcases List.mem_cons.mp hother with rfl | hother
          · exact ⟨hround, hsevered⟩
          · exact hinner other hother
    · rintro ⟨inner, frame, outer, hframes, hbracket, hposition, hcommas, hwhole, hinner⟩
      cases inner with
      | nil =>
        obtain ⟨rfl, rfl⟩ := List.cons.inj hframes
        simp [hwhole, hbracket, hposition, hcommas]
      | cons other inner =>
        obtain ⟨rfl, rfl⟩ := List.cons.inj hframes
        obtain ⟨hround, hsevered⟩ := hinner top (by simp)
        have hbelow : innermost? 0 (inner ++ frame :: outer) = some call := by
          apply ih.mpr
          exact ⟨inner, frame, outer, rfl, hbracket, hposition, hcommas, hwhole,
            fun f hf => hinner f (List.mem_cons_of_mem top hf)⟩
        simpa [hsevered, hround] using hbelow

/-- The call around the cursor is the one on the stack of the text before the cursor; where there is
none on the stack, none is found. -/
theorem find?_eq_some_iff_on (source : List Char) (cursor : Int) (call : OpenCall) :
    find? source cursor = some call ↔ call.On (openAfter (source.take cursor.toNat)) := by
  have hwalk := walk_reverse (source.take cursor.toNat) 0 0
  rw [List.drop_zero] at hwalk
  rw [find?, Backward.before, hwalk]
  exact innermost?_eq_some_iff _ call

-- the brackets of an unfinished argument: its commas are not those of the call
example : find? "f(a), g(b, [1, 2, (3), ".toList 23 = some ⟨7, 1⟩ := by decide

end OpenCall
end ScriptSense
