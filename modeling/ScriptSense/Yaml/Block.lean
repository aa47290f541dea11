import ScriptSense.Text.Name
import ScriptSense.Yaml.Cursor

/-! Texts in indented lines. A header tells whether the lines are kept or folded, what becomes of
the line breaks at the end, and sometimes how deep the lines are indented. -/
namespace ScriptSense
namespace Yaml

inductive Chomping where
  | strip
  | clip
  | keep
  deriving DecidableEq, Repr

structure BlockHeader where
  chomping : Chomping
  /-- How much deeper than their surroundings the lines are, if it is given. -/
  step : Option Nat
  deriving DecidableEq, Repr

def chomping? : List Char → Option (Chomping × List Char)
  | '+' :: rest => some (.keep, rest)
  | '-' :: rest => some (.strip, rest)
  | _ => none

def step? : List Char → Option (Nat × List Char)
  | c :: rest => if Text.isDigit c then some (c.toNat - '0'.toNat, rest) else none
  | [] => none

def blockHeader (text : List Char) : BlockHeader × List Char :=
  match chomping? text with
  | some (chomping, rest) =>
    match step? rest with
    | some (n, rest) => (⟨chomping, some n⟩, rest)
    | none => (⟨chomping, none⟩, rest)
  | none =>
    match step? text with
    | some (n, rest) =>
      match chomping? rest with
      | some (chomping, rest) => (⟨chomping, some n⟩, rest)
      | none => (⟨.clip, some n⟩, rest)
    | none => (⟨.clip, none⟩, text)

def indentTo (depth : Nat) (p : Cursor) : Cursor :=
  p.skip (min (depth - p.column) (p.rest.takeWhile (· == ' ')).length)

/-- Empty lines, and the indentation of the line after them. -/
def emptyLines (depth : Nat) : Nat → Cursor → List Char × Cursor
  | 0, p => ([], p)
  | fuel + 1, p =>
    let p := indentTo depth p
    match p.rest with
    | c :: _ =>
      if isBreak c then
        let more := emptyLines depth fuel p.next
        (breakText c :: more.1, more.2)
      else ([], p)
    | [] => ([], p)

/-- Empty lines at the beginning, with the deepest column that their spaces reach. -/
def firstLines (deepest : Nat) : Nat → Cursor → List Char × Nat × Cursor
  | 0, p => ([], deepest, p)
  | fuel + 1, p =>
    match p.rest with
    | c :: _ =>
      if isBreak c then
        let more := firstLines deepest fuel p.next
        (breakText c :: more.1, more.2)
      else if c == ' ' then firstLines (max deepest p.next.column) fuel p.next
      else ([], deepest, p)
    | [] => ([], deepest, p)

/-- The text from a first line on. `before` are the line breaks of the empty lines before it. -/
def blockLines (folding : Bool) (chomping : Chomping) (depth : Nat) :
    Nat → (before : List Char) → Cursor → List Char × Cursor
  | 0, _, p => ([], p)
  | fuel + 1, before, p =>
    let (line, p) := p.span fun c => !isBreak c
    let ending := (p.rest.head?.map breakText).toList
    let (empties, p) := emptyLines depth p.rest.length p.next
    if p.column == depth && !p.rest.isEmpty then
      let deeper (text : List Char) : Bool := (text.head?.map isBlank).getD false
      let joint :=
        if folding && ending == ['\n'] && !deeper line && !deeper p.rest then
          if empties.isEmpty then [' '] else []
        else ending
      let (text, p) := blockLines folding chomping depth fuel empties p
      (before ++ line ++ joint ++ text, p)
    else
      let tail :=
        match chomping with
        | .strip => []
        | .clip => ending
        | .keep => ending ++ empties
      (before ++ line ++ tail, p)

/-- Reads a text in indented lines from its first character on; `around` is the indentation of what
is around it. -/
def block? (folding : Bool) (around : Int) (p : Cursor) : Option (List Char × Cursor) := do
  let (header, _) := blockHeader p.next.rest
  let marks := p.next.rest.length - (blockHeader p.next.rest).2.length
  let p := p.next.skip marks
  if header.step == some 0 || !endsField p.rest then none
  else
    let p ← p.finishLine?
    let least := (max (around + 1) 1).toNat
    let fuel := p.rest.length + 1
    let (before, depth, p) :=
      match header.step with
      | some n =>
        let depth := least + n - 1
        let (before, p) := emptyLines depth fuel p
        (before, depth, p)
      | none =>
        let (before, deepest, p) := firstLines 0 fuel p
        (before, max least deepest, p)
    if p.column == depth && !p.rest.isEmpty then
      return blockLines folding header.chomping depth fuel before p
    else return (if header.chomping == .keep then before else [], p)

end Yaml
end ScriptSense
