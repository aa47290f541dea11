import ScriptSense.Script.Stack

/-! Reading a script along all the ways the grammar leaves open. Each reader has a stack; where
several actions are possible it divides, readers in the same situation become one again, and a
reader that gets stuck is given up as long as another one goes on. Only so many readers are kept,
the ones of the greatest weight. -/
namespace ScriptSense
namespace Script

inductive Status where
  | active
  /-- The next token does not fit. -/
  | stuck
  | ended
  deriving DecidableEq, Repr

structure Reader where
  vertex : Nat
  status : Status
  deriving DecidableEq, Repr

structure Machine where
  graph : Graph
  readers : List Reader
  /-- The best reading of the whole text so far: its parts, and the comments around them. -/
  finished : Option Tree

namespace Machine

def mostReaders : Nat := 6

/-- Most readers that may arise beside those, in between. -/
def mostExtra : Nat := 4

def start (text : List Char) : Machine :=
  let marked := text.head? == some '\ufeff'
  let first : Vertex :=
    ⟨State.start, if marked then 1 else 0, if marked then text.drop 1 else text, [], 0⟩
  ⟨#[first], [⟨0, .active⟩], none⟩

def setStatus (m : Machine) (r : Nat) (status : Status) : Machine :=
  { m with readers := m.readers.modify r fun x => { x with status := status } }

def vertexOf (m : Machine) (r : Nat) : Nat := (m.readers[r]?.map (·.vertex)).getD 0

/-- Makes two readers in the same situation one, if they are. -/
def join? (g : Graph) (a b : Reader) : Option Graph :=
  if a.status = .active && b.status = .active && g.same a.vertex b.vertex then
    some ((g.linksAt b.vertex).foldl (fun g l => g.addLink (g.size + 1) a.vertex l) g)
  else none

/-- Joins a new reader to the first of the others it can be joined to, the reader `r` excepted. -/
def joinAny (g : Graph) (new : Reader) (r : Nat) : (index : Nat) → List Reader → Option Graph
  | _, [] => none
  | i, old :: rest =>
    if i == r then joinAny g new r (i + 1) rest
    else (join? g old new) <|> joinAny g new r (i + 1) rest

def withoutTail (trees : List Tree) : List Tree × List Tree :=
  let tail := trees.reverse.takeWhile (·.isComment)
  (trees.take (trees.length - tail.length), tail.reverse)

/-- The best node of a production over one of the ways down, and the comments after it. -/
def build (production : Nat) (behind : Extent) : List (List Tree) → Option (Tree × List Tree)
  | [] => none
  | first :: others =>
    let make := fun trees =>
      let parts := withoutTail trees
      (Tree.ofProduction production behind parts.1, parts.2)
    some <| others.foldl
      (fun best trees =>
        let next := make trees
        if best.1.yieldsTo next.1 then next else best)
      (make first)

/-- Puts a new node on top of the vertex below it, with the comments that follow it. -/
def pushNode (g : Graph) (v : Nat) (production : Nat) (trees : List (List Tree)) :
    Option (Graph × Nat) := do
  let x ← g[v]?
  let (node, comments) ← build production ⟨x.place, x.place, x.place, x.rest⟩ trees
  let state ← x.state.after? (.rule (ruleOf production))
  return comments.foldl (fun (g, top) c => g.push top state c) (g.push v state node)

/-- Reduces along one group of ways down. The new reader joins an older one or stands last. -/
def reduceWay (r production limit : Nat) (m : Machine) (ways : Graph.Ways) : Machine :=
  if limit < m.readers.length then m
  else
    match pushNode m.graph ways.vertex production ways.trees with
    | none => m
    | some (graph, top) =>
      let new : Reader := ⟨top, .active⟩
      match joinAny graph new r 0 m.readers with
      | some joined => { m with graph := joined }
      | none => { m with graph := graph, readers := m.readers ++ [new] }

/-- Applies a production on the stack of reader `r`; the results stand behind all readers. -/
def reduce (m : Machine) (r production : Nat) : Machine :=
  let count := (productions[production]?.map (·.steps.size)).getD 0
  let ended := (m.readers.filter (·.status == .ended)).length
  let limit := mostReaders + mostExtra + ended
  (m.graph.pop (m.vertexOf r) count).foldl (reduceWay r production limit) m

def shift (m : Machine) (r : Nat) (state : State) (leaf : Tree) : Machine :=
  let (graph, top) := m.graph.push (m.vertexOf r) state leaf
  { m with graph := graph, readers := m.readers.modify r fun x => { x with vertex := top } }

/-- The whole script: the parts of its topmost node, with the comments around them. -/
def whole (trees : List Tree) : Option Tree :=
  match trees.reverse.span (·.isComment) with
  | (after, .node production _ extent parts :: before) =>
    let children := before.reverse ++ parts ++ after.reverse
    some (.node production (children.foldl (fun sum c => sum + c.weight) 0) extent children)
  | _ => none

/-- Ends reader `r` at the end of the text and keeps the best of its readings. -/
def accept (m : Machine) (r : Nat) : Machine :=
  let readings :=
    (m.graph.bottoms (m.graph.size + 2) [⟨m.vertexOf r, [], 0⟩] []).filterMap whole
  let better := fun (best : Option Tree) (t : Tree) =>
    match best with
    | some old => if old.yieldsTo t then some t else best
    | none => some t
  { m with finished := readings.foldl better m.finished }.setStatus r .ended

structure Pass where
  machine : Machine
  /-- The reader that takes the place of the one at hand. -/
  successor : Option Nat := none
  reduced : Bool := false
  /-- Nothing is left to do on this token. -/
  done : Bool := false

def perform (r token : Nat) (state : State) (leaf : Tree) (p : Pass) (action : Action) : Pass :=
  if p.done then p
  else
    match action with
    | .shift =>
      match state.after? (.token token) with
      | some next => { p with machine := p.machine.shift r next leaf, done := true }
      | none => p
    | .accept => { p with machine := p.machine.accept r, done := true }
    | .reduce production =>
      let before := p.machine.readers.length
      let machine := p.machine.reduce r production
      let successor := if before < machine.readers.length then some before else p.successor
      { p with machine := machine, successor := successor, reduced := true }

/-- Puts the last found successor in the place of reader `r`. -/
def succeed (m : Machine) (r successor : Nat) : Machine :=
  match m.readers[successor]? with
  | some new => { m with readers := (m.readers.set r new).eraseIdx successor }
  | none => m

/-- Acts on a token until it is read or reader `r` is stuck, ended or joined to another. A keyword
that does not fit is read as a name where names fit. -/
def act (r : Nat) (leaf : Nat → Tree) (isKeyword : Bool) :
    (fuel : Nat) → (token : Nat) → Machine → Machine
  | 0, _, m => m.setStatus r .stuck
  | fuel + 1, token, m =>
    match m.graph[m.vertexOf r]? with
    | none => m.setStatus r .stuck
    | some x =>
      let pass := (x.state.actions token).foldl (perform r token x.state (leaf token))
        { machine := m }
      if pass.done then pass.machine
      else
        match pass.successor with
        | some s => act r leaf isKeyword fuel token (pass.machine.succeed r s)
        | none =>
          if pass.reduced then pass.machine.setStatus r .ended
          else if isExtra token then m.shift r x.state (leaf token)
          else if isKeyword && token != nameToken && !x.state.reservesToken token &&
              x.state.expected.contains nameToken then
            act r leaf isKeyword fuel nameToken m
          else m.setStatus r .stuck

def advance (fuel : Nat) (m : Machine) (r : Nat) : Machine :=
  match m.graph[m.vertexOf r]? with
  | none => m.setStatus r .stuck
  | some x =>
    match x.state.sight? x.rest with
    | none => m.setStatus r .stuck
    | some s =>
      let start := x.place + s.skipped
      let extent : Extent := ⟨x.place, start, start + s.length, x.rest.drop (s.skipped + s.length)⟩
      act r (fun token => .leaf token extent) s.isKeyword fuel s.token m

def placeOf (m : Machine) (r : Nat) : Nat := (m.graph[m.vertexOf r]?.map (·.place)).getD 0

/-- Lets reader `r` read on until it is past all others; one that is not the first may also stop
beside them. -/
def advanceUntil (work : Nat) (r : Nat) : (fuel : Nat) → (last : Nat) → Machine → Machine × Nat
  | 0, last, m => (m, last)
  | fuel + 1, last, m =>
    if (m.readers[r]?.map (·.status)) == some .active then
      let m := m.advance work r
      let place := m.placeOf r
      if last < place || (r != 0 && place == last) then (m, place)
      else advanceUntil work r fuel last m
    else (m, last)

/-- Lets every reader read on, in order; new ones come to their turn. -/
def advanceAll (work : Nat) : (fuel : Nat) → (r last : Nat) → Machine → Machine × Nat
  | 0, _, last, m => (m, last)
  | fuel + 1, r, last, m =>
    if r < m.readers.length then
      let (m, last) := advanceUntil work r work last m
      advanceAll work fuel (r + 1) last m
    else (m, last)

/-- Puts a reader among those that are kept, in the order of their weights. A stuck reader gives way
to one that is not, and readers in the same situation are joined. -/
def settleReader (g : Graph) : List Reader → Reader → Graph × List Reader
  | [], new => (g, [new])
  | old :: rest, new =>
    if old.status = .active && new.status = .stuck then (g, old :: rest)
    else if old.status = .stuck && new.status = .active then settleReader g rest new
    else
      match join? g old new with
      | some joined => (joined, old :: rest)
      | none =>
        if g.weightAt old.vertex < g.weightAt new.vertex then
          let (g, rest) := settleReader g rest old
          (g, new :: rest)
        else
          let (g, rest) := settleReader g rest new
          (g, old :: rest)

/-- Drops the readers that have ended, orders the others and keeps the foremost. -/
def condense (m : Machine) : Machine :=
  let going := m.readers.filter (·.status != .ended)
  let (graph, readers) := going.foldl
    (fun (g, kept) r => settleReader g kept r) (m.graph, [])
  { m with graph := graph, readers := readers.take mostReaders }

/-- Reads on until no reader is left, or all of them are stuck. -/
def run (work : Nat) : (fuel : Nat) → (last : Nat) → Machine → Option Tree
  | 0, _, m => m.finished
  | fuel + 1, last, m =>
    let (m, last) := advanceAll work work 0 last m
    let m := m.condense
    if m.readers.all (·.status == .stuck) then m.finished
    else run work fuel last m

end Machine

/-- The one reading of a script, if it is well formed. -/
def read? (text : List Char) : Option Tree :=
  let work := 64 * (text.length + 16)
  Machine.run work work 0 (Machine.start text)

end Script
end ScriptSense
