import ScriptSense.Script.Production

/-! Where a reader of scripts stands: the productions it may be inside of, each with what may follow
it, and what it may do on the next token. Levels and sides settle what they can; what they leave
open are several actions, and each of them is then tried. -/
namespace ScriptSense
namespace Script

structure Item where
  production : Nat
  dot : Nat
  follow : Follow
  deriving DecidableEq, Repr

namespace Item

def step? (i : Item) : Option Step := stepAt? i.production i.dot

def rule (i : Item) : Nat := ruleOf i.production

end Item

structure State where
  /-- The productions under way. -/
  kernel : List Item
  /-- For each rule that may begin here, what may follow it. -/
  openings : Array (Option Follow)
  /-- The tokens that may come next. -/
  expected : TokenSet
  /-- Whether the reserved words are reserved here: a name may come, and it names no property. -/
  reserves : Bool

inductive Action where
  | shift
  | reduce (production : Nat)
  | accept
  deriving DecidableEq, Repr

namespace State

/-- Opens a rule, and with it the rules that may begin where it begins. -/
def openRule (rule : Nat) (after : Follow) (openings : Array (Option Follow)) :
    Array (Option Follow) :=
  (reaches[rule]?.getD []).foldl
    (fun table entry =>
      let follow := if entry.2.inherits then entry.2.follow.union after.trimmed
        else entry.2.follow
      table.modify entry.1 fun old => some ((old.map follow.union).getD follow))
    openings

def openItem (openings : Array (Option Follow)) (i : Item) : Array (Option Follow) :=
  match i.step? with
  | some ⟨.rule r, _⟩ =>
    let after :=
      match stepAt? i.production (i.dot + 1) with
      | some next => firstOf next.symbol
      | none => i.follow
    openRule r after openings
  | _ => openings

def emptyItems (openings : Array (Option Follow)) : List Item :=
  match openings[scriptRule]?.join with
  | none => []
  | some follow =>
    (productionsByRule[scriptRule]?.getD []).filterMap fun p =>
      if (stepAt? p 0).isNone then some ⟨p, 0, follow⟩ else none

def completed (kernel : List Item) (openings : Array (Option Follow)) : List Item :=
  kernel.filter (·.step?.isNone) ++ emptyItems openings

/-- For each production that begins with a name, whether the name is that of a property. -/
def namePlaces : List (Nat × Bool) :=
  (beginningWith (.token nameToken)).map fun p =>
    (ruleOf p, ((stepAt? p 0).map (·.isProperty)).getD false)

def reservesWords (kernel done : List Item) (openings : Array (Option Follow)) : Bool :=
  let met := kernel.filterMap fun i =>
    match i.step? with
    | some ⟨.token t, isProperty⟩ => if t == nameToken then some isProperty else none
    | _ => none
  let opened := namePlaces.filterMap fun place =>
    if (openings[place.1]?.join).isSome then some place.2 else none
  let after := done.filterMap fun i =>
    if i.follow.tokens.contains nameToken then some i.follow.isProperty else none
  let all := met ++ opened ++ after
  !all.isEmpty && !all.any id

/-- Where one stands with the given productions under way. -/
def ofKernel (kernel : List Item) : State :=
  let openings := kernel.foldl openItem (Array.replicate ruleNames.size none)
  let done := completed kernel openings
  let expected := kernel.foldl
    (fun set i =>
      match i.step? with
      | some step => set.union (firstOf step.symbol).tokens
      | none => set)
    (done.foldl (fun set i => set.union i.follow.tokens) .empty)
  ⟨kernel, openings, expected, reservesWords kernel done openings⟩

def start : State := ofKernel [⟨startProduction, 0, ⟨.singleton endToken, false⟩⟩]

def kernelAfter (s : State) (symbol : Symbol) : List Item :=
  s.kernel.filterMap (fun i =>
    match i.step? with
    | some step => if step.symbol = symbol then some { i with dot := i.dot + 1 } else none
    | none => none) ++
  (beginningWith symbol).filterMap fun p =>
    (s.openings[ruleOf p]?.join).map fun follow => ⟨p, 1, follow⟩

def after? (s : State) (symbol : Symbol) : Option State :=
  match s.kernelAfter symbol with
  | [] => none
  | kernel => some (ofKernel kernel)

def same (a b : State) : Bool := a.kernel = b.kernel

end State

/-- What competes for a token: the level of a production and the rules that have it. -/
structure Rival where
  level : Option String
  rules : List Nat

namespace Rival

def meets (r : Rival) : Rung → Bool
  | .level name => r.level == some name
  | .rule name => r.rules.any fun i => ruleNames[i]? == some name

/-- Compares two rivals on one ordering, as far as it mentions them. -/
def compareOn (a b : Rival) (sawA sawB : Bool) : List Rung → Ordering
  | [] => .eq
  | rung :: rest =>
    if a.meets rung then if sawB then .lt else compareOn a b true sawB rest
    else if b.meets rung then if sawA then .gt else compareOn a b sawA true rest
    else compareOn a b sawA sawB rest

/-- Which of two rivals binds more tightly; the first ordering that mentions both decides. -/
def compare (a b : Rival) : Ordering :=
  ((ladders.map (compareOn a b false false)).find? (· != .eq)).getD .eq

end Rival

/-- The reductions that are left for a token, with what they bring to a competition. -/
structure Contest where
  chosen : List Nat := []
  rival : Rival := ⟨none, []⟩
  sides : List (Option Side) := []

namespace Contest

/-- Lets one more production compete: it replaces looser ones, gives way to tighter ones, and stands
beside its equals. -/
def enter (c : Contest) (production : Nat) : Contest :=
  match productions[production]? with
  | none => c
  | some p =>
    let joined : Contest :=
      ⟨c.chosen ++ [production], ⟨p.level, distinct (c.rival.rules ++ [p.rule])⟩,
        c.sides ++ [p.side]⟩
    if c.chosen.isEmpty then joined
    else
      match Rival.compare ⟨p.level, [p.rule]⟩ c.rival with
      | .gt => ⟨[production], ⟨p.level, [p.rule]⟩, [p.side]⟩
      | .eq => joined
      | .lt => c

end Contest

namespace State

def sortKey (i : Item) : List Int :=
  match productions[i.production]? with
  | some p => [i.dot, p.rule, p.weight, p.steps.size, i.production]
  | none => []

def reducible (s : State) (token : Nat) : List Item :=
  let found := (completed s.kernel s.openings).filter fun i => i.follow.tokens.contains token
  if found.length ≤ 1 then found
  else found.mergeSort fun a b => !(sortKey b < sortKey a)

def underWay (s : State) (token : Nat) : List Item :=
  s.kernel.filter fun i =>
    i.dot != 0 &&
      match i.step? with
      | some step => (firstOf step.symbol).tokens.contains token
      | none => false

def rivalOf (i : Item) : Rival := ⟨productions[i.production]?.bind (·.level), [i.rule]⟩

/-- Whether to keep the reductions and whether to keep the shift, when both are possible. Joining
runs of a repeated part comes before making them longer. -/
def verdict (under done : List Item) (contest : Contest) : Bool × Bool :=
  let parties := (under ++ done).map (·.rule)
  match parties with
  | [] => (true, true)
  | first :: others =>
    if isRepeat first && others.all (· == first) then (true, false)
    else
      let outcomes := under.map fun i => (rivalOf i).compare contest.rival
      match outcomes.contains .lt, outcomes.contains .gt with
      | false, true => (false, true)
      | true, false => (true, false)
      | true, true => (true, true)
      | false, false =>
        if contest.sides.all (· == some .left) then (true, false)
        else if contest.sides.all (· == some .right) then (false, true)
        else (true, true)

def actions (s : State) (token : Nat) : List Action :=
  let done := s.reducible token
  let reduce := fun p => if p == startProduction then Action.accept else Action.reduce p
  let shifts := !(s.kernelAfter (.token token)).isEmpty
  if done.isEmpty then if shifts then [.shift] else []
  else
    let contest := done.foldl (fun c i => c.enter i.production) {}
    let reductions := contest.chosen.map reduce
    if !shifts then reductions
    else
      let kept := verdict (s.underWay token) done contest
      (if kept.1 then reductions else []) ++ (if kept.2 then [.shift] else [])

end State
end Script
end ScriptSense
