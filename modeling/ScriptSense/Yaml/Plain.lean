import ScriptSense.Yaml.Cursor

/-! Texts without quotes. They end at a comment, at a colon before a blank, and inside brackets at a
bracket or comma; lines that are indented deeper than their surroundings continue them. -/
namespace ScriptSense
namespace Yaml

/-- The characters that no text without quotes holds inside brackets. -/
def isFlowMark (c : Char) : Bool := [',', '?', '[', ']', '\x7b', '\x7d'].contains c

def dividesKey (inFlow : Bool) (rest : List Char) : Bool :=
  endsWord rest ||
    (inFlow && match rest with
      | c :: _ => [',', '[', ']', '\x7b', '\x7d'].contains c
      | [] => false)

/-- The characters in front that belong to a text without quotes, up to a blank. -/
def plainRun (inFlow : Bool) : List Char → List Char
  | [] => []
  | c :: rest =>
    if isBlank c || isBreak c then []
    else if c == ':' && dividesKey inFlow rest then []
    else if inFlow && isFlowMark c then []
    else c :: plainRun inFlow rest

/-- The characters that mean something else where a text could begin. -/
def isIndicator (c : Char) : Bool :=
  [',', '[', ']', '\x7b', '\x7d', '#', '&', '*', '!', '|', '>', '\'', '"', '%', '@',
    '\x60'].contains c

/-- Whether a text without quotes can begin here. -/
def startsPlain (inFlow : Bool) : List Char → Bool
  | [] => false
  | c :: rest =>
    if isBlank c || isBreak c then false
    else if c == '-' then !endsWord rest
    else if c == '?' || c == ':' then !endsWord rest && !inFlow
    else !isIndicator c

/-- A text without quotes, and whether its last line has ended. -/
structure Plain where
  text : List Char
  cursor : Cursor
  crossed : Bool
  deriving Repr

/-- The rest of a text without quotes. `pending` is what the blanks before it stand for; `least` is
the indentation of a line that continues the text. -/
def plainFrom (inFlow : Bool) (least : Int) :
    Nat → (pending : List Char) → (crossed : Bool) → Cursor → Plain
  | 0, _, crossed, p => ⟨[], p, crossed⟩
  | fuel + 1, pending, crossed, p =>
    let run := if p.rest.head? == some '#' then [] else plainRun inFlow p.rest
    if run.isEmpty then ⟨[], p, crossed⟩
    else
      let p := p.skip run.length
      let spaces := p.rest.takeWhile (· == ' ')
      let q := p.skip spaces.length
      let gap := breaksIn (· == ' ') q.rest
      let after := q.skip gap.length
      let said := pending ++ run
      if gap.breaks.isEmpty then
        if spaces.isEmpty then ⟨said, p, false⟩
        else
          let more := plainFrom inFlow least fuel spaces false q
          { more with text := said ++ more.text }
      else if gap.marker || (!inFlow && (after.column : Int) < least) then ⟨said, after, true⟩
      else
        let more := plainFrom inFlow least fuel (folded gap.breaks) true after
        { more with text := said ++ more.text }

def plain (inFlow : Bool) (least : Int) (p : Cursor) : Plain :=
  plainFrom inFlow least p.rest.length [] false p

end Yaml
end ScriptSense
