import ScriptSense.Data.Shown
import ScriptSense.Text.Utf8
import ScriptSense.Yaml.Content
import ScriptSense.Yaml.Lexer

/-! The value that a YAML text describes. Aliases stand for the nodes they name, a merge key brings
the entries of other maps into a map, and of equal keys the last one counts. A list or map that
contains itself is unrolled as far as a reader may look into it. -/
namespace ScriptSense
namespace Yaml

structure Contents where
  nodes : Array (Option Content)
  deriving Repr

namespace Contents

def get (c : Contents) (n : Nat) : Content := ((c.nodes.getD n none).getD (.value .null))

def parts (c : Contents) (n : Nat) : List Nat :=
  match c.get n with
  | .list items => items
  | .map rows => rows.map (·.2)
  | .pairs entries => entries.flatMap fun e => [e.1, e.2]
  | .value _ | .set _ => []

def reach (c : Contents) : (fuel : Nat) → (met pending : List Nat) → List Nat
  | 0, met, _ => met
  | _, met, [] => met
  | fuel + 1, met, n :: rest =>
    if met.contains n then c.reach fuel met rest
    else c.reach fuel (n :: met) (c.parts n ++ rest)

def reachFuel (c : Contents) : Nat :=
  (List.range c.nodes.size).foldl (fun total n => total + (c.parts n).length + 1) 1

def isKnot (c : Contents) (n : Nat) : Bool :=
  (c.reach (c.reachFuel + (c.parts n).length) [] (c.parts n)).contains n

def commaJoined (texts : List String) : String := ", ".intercalate texts

def shownValue (v : Value) : String := String.ofList v.shown

/-- A node as a part of a message. Inside of the lists and maps of which `around` are the numbers,
those themselves are only hinted at. -/
def shown (c : Contents) : (fuel : Nat) → (around : List Nat) → Nat → String
  | 0, _, _ => "..."
  | fuel + 1, around, n =>
    let inner := c.shown fuel (n :: around)
    let repeated := around.contains n
    match c.get n with
    | .value v => shownValue v
    | .list items =>
      if repeated then "[...]" else "[" ++ commaJoined (items.map inner) ++ "]"
    | .map rows =>
      let texts := rows.map fun row => shownValue row.1 ++ ": " ++ inner row.2
      if repeated then "\x7b...\x7d" else "\x7b" ++ commaJoined texts ++ "\x7d"
    | .set keys =>
      if keys.isEmpty then "set()" else "\x7b" ++ commaJoined (keys.map shownValue) ++ "\x7d"
    | .pairs entries =>
      let texts := entries.map fun e => "(" ++ inner e.1 ++ ", " ++ inner e.2 ++ ")"
      if repeated then "[...]" else "[" ++ commaJoined texts ++ "]"

/-- How often something that contains itself is unrolled; settings are not nested deeper. -/
def mostTurns : Nat := 6

/-- The value of a node. `knots` are the nodes that contain themselves. -/
def value (c : Contents) (knots : List Nat) : (fuel turns : Nat) → Nat → Value
  | 0, _, _ => .null
  | fuel + 1, turns, n =>
    let isKnot := knots.contains n
    let text (_ : Unit) : String := c.shown (c.nodes.size + 1) [] n
    if isKnot && turns == 0 then .other (text ()) (text ())
    else
      let inner := c.value knots fuel (if isKnot then turns - 1 else turns)
      let styled (v : Value) : Value := if isKnot then .styled (text ()) v else v
      match c.get n with
      | .value v => v
      | .list items => styled (.list (items.map inner))
      | .map rows => styled (.ofRows (rows.map fun row => (row.1, inner row.2)))
      | .set keys => .styled (text ()) (.list keys)
      | .pairs entries =>
        styled (.list (entries.map fun e =>
          let pair := "(" ++ shownValue (inner e.1) ++ ", " ++ shownValue (inner e.2) ++ ")"
          .styled pair (.list [inner e.1, inner e.2])))

/-- The value of a root, with enough fuel for every turn through all nodes. Only nodes with names
can bring something into itself. -/
def valueFrom (c : Contents) (named : Bool) (root : Nat) : Value :=
  let knots := if named then (List.range c.nodes.size).filter c.isKnot else []
  c.value knots ((mostTurns + 1) * (c.nodes.size + 1)) mostTurns root

end Contents

/-- The character that does not exist and yet is named at the end of some tokens. -/
def noCharacter? (tokens : List Token) : Option Nat :=
  match tokens.getLast? with
  | some (.noCharacter code) => some code
  | _ => none

def valueOf (n : Nat) (graph : Graph) : Except Fault Value := do
  let nodes ← Builder.contentsFrom graph n
  return (Contents.mk nodes).valueFrom (!graph.anchors.isEmpty) n

/-- Reads the only document of a text; without one the value is null. A character that does not
exist is noticed only if all before it is in order. -/
def read (text : List Char) : Except Fault Value :=
  let text := Utf8.normalBreaks text
  if !text.all isAllowed then .error .malformed
  else
    match cut? text with
    | none => .error .malformed
    | some tokens =>
      match Node.document? tokens with
      | none => .error .malformed
      | some none => .ok .null
      | some (some root) =>
        match Graph.empty.ofNode? root, noCharacter? tokens with
        | none, _ => .error .malformed
        | some _, some code => .error (.ofCode code)
        | some (n, graph), none => valueOf n graph

end Yaml
end ScriptSense
