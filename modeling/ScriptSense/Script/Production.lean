import ScriptSense.Script.Grammar

/-! The grammar in numbers: tokens and rules have indices, every rule its productions, and a
repeated part is a rule of its own that joins two runs into one. -/
namespace ScriptSense
namespace Script

/-- A finite set of tokens, one bit for each. -/
structure TokenSet where
  bits : Nat
  deriving DecidableEq, Repr

namespace TokenSet

def empty : TokenSet := ⟨0⟩

def singleton (t : Nat) : TokenSet := ⟨1 <<< t⟩

def union (a b : TokenSet) : TokenSet := ⟨a.bits ||| b.bits⟩

def contains (s : TokenSet) (t : Nat) : Bool := s.bits.testBit t

end TokenSet

inductive Symbol where
  | token (index : Nat)
  | rule (index : Nat)
  deriving DecidableEq, Repr

/-- One place of a production, and whether a word there names a property. -/
structure Step where
  symbol : Symbol
  isProperty : Bool
  deriving DecidableEq, Repr

structure Production where
  rule : Nat
  steps : Array Step
  level : Option String
  side : Option Side
  weight : Int
  deriving DecidableEq, Repr

/-- The step that comes first, or after so many others. -/
def Production.step? (p : Production) (dot : Nat) : Option Step := p.steps[dot]?

def distinct {α : Type} [BEq α] (xs : List α) : List α :=
  (xs.foldl (fun seen x => if seen.contains x then seen else x :: seen) []).reverse

def bodies : List Rule := distinct (rules.flatMap fun r => r.2.repeats)

/-- The lexemes that are read in view of what the grammar expects; they follow all others. -/
def contextualLexemes : List Lexeme :=
  [.comment, .statementEnd, .templateText, .questionMark, .markupComment, .markupText]

/-- The tokens; the end of the text is the first of them and names are the second. -/
def tokens : Array Token :=
  let late := contextualLexemes.map Token.lexeme
  let early := (rules.flatMap fun r => r.2.tokens).filter (!late.contains ·)
  (distinct ([Token.lexeme .endOfText, Token.lexeme .name] ++ early) ++ late).toArray

def endToken : Nat := 0

def nameToken : Nat := 1

def tokenIndex (t : Token) : Nat := tokens.idxOf t

/-- The names of the rules; those that stand for repeated parts have none. -/
def ruleNames : Array String := (rules.map (·.1) ++ bodies.map fun _ => "").toArray

def ruleIndex (name : String) : Nat := ruleNames.idxOf name

def isRepeat (rule : Nat) : Bool := rules.length ≤ rule

def scriptRule : Nat := 0

/-- Stands above the rule of a whole script. -/
def startRule : Nat := ruleNames.size

def Place.step : Place → Step
  | .token t isProperty => ⟨.token (tokenIndex t), isProperty⟩
  | .use name => ⟨.rule (ruleIndex name), false⟩
  | .many body => ⟨.rule (rules.length + bodies.idxOf body), false⟩

def productionsOf (rule : Nat) (meaning : Rule) : List Production :=
  distinct <| (meaning.alternatives false).map fun a =>
    ⟨rule, (a.places.map Place.step).toArray, a.level, a.side, a.weight⟩

/-- A repeated part is met once, or is two runs of itself. -/
def productionsOfRepeat (rule : Nat) (body : Rule) : List Production :=
  ⟨rule, #[⟨.rule rule, false⟩, ⟨.rule rule, false⟩], none, none, 0⟩ :: productionsOf rule body

/-- The productions; the first is the one a script is read for. -/
def productions : Array Production :=
  (⟨startRule, #[⟨.rule scriptRule, false⟩], none, none, 0⟩ ::
    (rules.zipIdx.flatMap (fun r => productionsOf r.2 r.1.2) ++
      bodies.zipIdx.flatMap fun b => productionsOfRepeat (rules.length + b.2) b.1)).toArray

def startProduction : Nat := 0

/-- The step of a production after so many others; there is none after the last. -/
def stepAt? (production dot : Nat) : Option Step :=
  productions[production]?.bind fun p => p.step? dot

def ruleOf (production : Nat) : Nat := (productions[production]?.map (·.rule)).getD startRule

def indexed (size : Nat) (key : Production → Option Nat) : Array (List Nat) :=
  productions.zipIdx.foldr
    (fun p table =>
      match key p.1 with
      | some k => table.modify k (p.2 :: ·)
      | none => table)
    (Array.replicate size [])

def beginningWithToken : Array (List Nat) :=
  indexed tokens.size fun p =>
    match p.step? 0 with
    | some ⟨.token t, _⟩ => some t
    | _ => none

def beginningWithRule : Array (List Nat) :=
  indexed ruleNames.size fun p =>
    match p.step? 0 with
    | some ⟨.rule r, _⟩ => some r
    | _ => none

def beginningWith : Symbol → List Nat
  | .token t => beginningWithToken[t]?.getD []
  | .rule r => beginningWithRule[r]?.getD []

def productionsByRule : Array (List Nat) := indexed ruleNames.size fun p => some p.rule

/-- What may follow a construct: which tokens, and whether a word among them names a property. -/
structure Follow where
  tokens : TokenSet
  isProperty : Bool
  deriving DecidableEq, Repr

namespace Follow

def nothing : Follow := ⟨.empty, false⟩

def union (a b : Follow) : Follow := ⟨a.tokens.union b.tokens, a.isProperty || b.isProperty⟩

end Follow

/-- What a production may begin with, given what the rules may begin with. -/
def Production.first (p : Production) (known : Array Follow) : Follow :=
  match p.step? 0 with
  | some ⟨.token t, isProperty⟩ => ⟨.singleton t, isProperty⟩
  | some ⟨.rule r, _⟩ => known[r]?.getD .nothing
  | none => .nothing

/-- Repeats a step until nothing changes, at most so often. -/
def settle {α : Type} [DecidableEq α] (step : α → α) : Nat → α → α
  | 0, a => a
  | n + 1, a =>
    let b := step a
    if b = a then a else settle step n b

def firsts : Array Follow :=
  settle
    (fun known =>
      productions.foldl (fun table p => table.modify p.rule (·.union (p.first known))) known)
    ruleNames.size (Array.replicate ruleNames.size .nothing)

/-- What a symbol may begin with; a token alone says nothing about properties. -/
def firstOf : Symbol → Follow
  | .token t => ⟨.singleton t, false⟩
  | .rule r => firsts[r]?.getD .nothing

/-- A rule that may begin where another one begins: what may follow it there, and whether also
everything may that follows the other one. -/
structure Reach where
  follow : Follow
  inherits : Bool
  deriving DecidableEq, Repr

namespace Reach

def union (a b : Reach) : Reach := ⟨a.follow.union b.follow, a.inherits || b.inherits⟩

end Reach

/-- A word among the tokens names a property only if there may be a word. -/
def Follow.trimmed (f : Follow) : Follow :=
  if f.tokens.contains nameToken then f else ⟨f.tokens, false⟩

/-- For each rule, the rules its productions begin with; `none` for what follows says that the
production ends there. -/
def leftEdges : Array (List (Nat × Option Follow)) :=
  productionsByRule.map fun ps =>
    distinct <| ps.filterMap fun p =>
      match stepAt? p 0, stepAt? p 1 with
      | some ⟨.rule r, _⟩, none => some (r, none)
      | some ⟨.rule r, _⟩, some next => some (r, some (firstOf next.symbol).trimmed)
      | _, _ => none

def reachStep (known : Array (Option Reach)) : Array (Option Reach) :=
  known.zipIdx.foldl
    (fun table entry =>
      match entry.1 with
      | none => table
      | some here =>
        (leftEdges[entry.2]?.getD []).foldl
          (fun table edge =>
            let found : Reach :=
              match edge.2 with
              | none => here
              | some follow => ⟨follow, false⟩
            table.modify edge.1 fun old => some ((old.map found.union).getD found))
          table)
    known

/-- For each rule, the rules that may begin where it begins, itself included. -/
def reaches : Array (List (Nat × Reach)) :=
  (Array.range ruleNames.size).map fun r =>
    let start := (Array.replicate ruleNames.size none).modify r fun _ => some ⟨.nothing, true⟩
    let found := settle reachStep ruleNames.size start
    found.zipIdx.toList.filterMap fun entry => entry.1.map fun reach => (entry.2, reach)

end Script
end ScriptSense
