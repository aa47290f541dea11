import ScriptSense.Source.Backward

/-! The call whose arguments hold the cursor. Walking backward, balanced groups are stepped over;
the first unclosed round bracket is the call, and commas on its own level number the argument. -/
namespace ScriptSense

/-- An unclosed call: where its bracket stands and which argument the cursor is in. -/
structure OpenCall where
  bracket : Nat
  argument : Nat
  deriving DecidableEq, Repr

namespace OpenCall

/-- `depth` counts the groups closed on the way that are still to be opened. A semicolon on the
cursor's own level ends the search, and an unclosed array or map starts the count of commas anew. -/
def walk (depth commas : Nat) : List Char → Option OpenCall
  | [] => none
  | c :: behind =>
    if Bracket.isClosing c then walk (depth + 1) commas behind
    else if Bracket.isOpening c then
      match depth with
      | d + 1 => walk d commas behind
      | 0 => if c == '(' then some ⟨behind.length, commas⟩ else walk 0 0 behind
    else if depth == 0 && c == ',' then walk depth (commas + 1) behind
    else if depth == 0 && c == ';' then none
    else walk depth commas behind

def find? (source : List Char) (cursor : Int) : Option OpenCall :=
  walk 0 0 (Backward.before source cursor.toNat)

end OpenCall
end ScriptSense
