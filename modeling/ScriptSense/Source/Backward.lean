import ScriptSense.Text.Name
import ScriptSense.Bracket

/-! Matching backward from a cursor. The text before the cursor is given nearest character first, so
a backward match is a piece of the front of that list and its result is what remains behind it.
Every function returns a tail of its argument: the length of the tail is the start of the match. -/
namespace ScriptSense
namespace Backward

open Text

/-- The characters before position `n`, nearest first. -/
def before (source : List Char) (n : Nat) : List Char := (source.take n).reverse

@[simp] theorem before_length (source : List Char) (n : Nat) :
    (before source n).length = min n source.length := by
  simp [before]

/-- Takes `text`, written in reading order, off the end. -/
def literal? (text : List Char) (behind : List Char) : Option (List Char) :=
  if text.reverse.isPrefixOf behind then some (behind.drop text.length) else none

/-- Takes the longest identifier off the end; the digits a run begins with are no part of it. -/
def identifier? (behind : List Char) : Option (List Char) :=
  let run := behind.takeWhile isNameChar
  let name := run.reverse.dropWhile isDigit
  if name.isEmpty then none else some (behind.drop name.length)

def skipBlanks (behind : List Char) : List Char := behind.dropWhile isBlank

def group? : List Char → Option (List Char)
  | [] => none
  | c :: behind =>
    match Bracket.ofChar? c with
    | some ⟨shape, false⟩ =>
      (Bracket.partnerDistance false [shape] behind).map fun n => behind.drop (n + 1)
    | _ => none

/-- Takes `text` off the end unless it is the tail of a longer identifier. -/
def word? (text : List Char) (behind : List Char) : Option (List Char) :=
  (literal? text behind).filter fun rest => !(rest.head?.any isNameChar)

/-- Takes the mark of a member access off the end: `?.`, or a dot that does not follow a dot. -/
def memberMark? (behind : List Char) : Option (List Char) :=
  match behind with
  | '.' :: '?' :: rest => some rest
  | '.' :: rest => if rest.head? = some '.' then none else some rest
  | _ => none

/-- Takes a `?.` off the end if there is one. -/
def skipOptionalMark : List Char → List Char
  | '.' :: '?' :: rest => rest
  | behind => behind

/-- Takes the keyword `new` and the blanks after it off the end. -/
def newKeyword? (behind : List Char) : Option (List Char) :=
  let rest := skipBlanks behind
  if rest.length < behind.length then word? "new".toList rest else none

/-- The member mark and the partial name typed after it, where the first `window` characters behind
the cursor must hold the whole of it. Blanks may follow the mark. -/
def receiverTail? (window : Nat) (behind : List Char) : Option (List Char) :=
  let run := behind.takeWhile isNameChar
  if run.getLast?.any isDigit then none
  else
    let rest := skipBlanks (behind.drop run.length)
    let used := behind.length - rest.length
    match rest with
    | '.' :: '?' :: tail =>
      if used + 2 ≤ window then some tail
      else if used + 1 ≤ window then some ('?' :: tail) else none
    | '.' :: tail =>
      if used + 1 ≤ window && tail.head? != some '.' then some tail else none
    | _ => none

theorem literal?_isSuffix {text behind rest : List Char} (h : literal? text behind = some rest) :
    rest <:+ behind := by
  unfold literal? at h
  split at h
  · cases h; exact List.drop_suffix _ _
  · cases h

theorem identifier?_isSuffix {behind rest : List Char} (h : identifier? behind = some rest) :
    rest <:+ behind := by
  simp only [identifier?] at h
  split at h
  · cases h
  · cases h; exact List.drop_suffix _ _

theorem skipBlanks_isSuffix (behind : List Char) : skipBlanks behind <:+ behind :=
  List.dropWhile_suffix _

theorem group?_length {behind rest : List Char} (h : group? behind = some rest) :
    rest.length < behind.length := by
  unfold group? at h
  split at h
  · cases h
  · split at h
    · obtain ⟨n, hn, rfl⟩ := Option.map_eq_some_iff.1 h
      simp only [List.length_drop, List.length_cons]; omega
    · cases h

theorem identifier?_length {behind rest : List Char} (h : identifier? behind = some rest) :
    rest.length < behind.length := by
  simp only [identifier?] at h
  split at h
  · cases h
  · rename_i hne
    cases h
    have hpos : 0 < ((behind.takeWhile isNameChar).reverse.dropWhile isDigit).length :=
      List.length_pos_iff.2 (by simpa using hne)
    have hdrop :=
      (List.dropWhile_suffix isDigit (l := (behind.takeWhile isNameChar).reverse)).length_le
    have htake := (List.takeWhile_prefix isNameChar (l := behind)).length_le
    simp only [List.length_reverse] at hdrop
    simp only [List.length_drop]; omega

theorem skipOptionalMark_length (behind : List Char) :
    (skipOptionalMark behind).length ≤ behind.length := by
  unfold skipOptionalMark
  split
  · simp only [List.length_cons]; omega
  · exact Nat.le_refl _

theorem memberMark?_length {behind rest : List Char} (h : memberMark? behind = some rest) :
    rest.length < behind.length := by
  unfold memberMark? at h
  split at h
  · cases h; simp only [List.length_cons]; omega
  · split at h
    · cases h
    · cases h; simp
  · cases h

end Backward
end ScriptSense
