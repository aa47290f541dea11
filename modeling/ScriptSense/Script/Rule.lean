import ScriptSense.Script.Lexeme

/-! Grammars as data. A rule says what a construct is made of; its alternatives are the plain
sequences of symbols that it stands for. Where two readings compete, the levels and sides decide
between them ahead of time, and the weights afterwards. -/
namespace ScriptSense
namespace Script

inductive Side where
  | left
  | right
  deriving DecidableEq, Repr

inductive Rule where
  | token (t : Token)
  /-- The construct of that name. -/
  | use (name : String)
  | empty
  | seq (parts : List Rule)
  | choice (parts : List Rule)
  /-- One or more. -/
  | many (body : Rule)
  /-- Binds at a named level, or groups to a side, or both. -/
  | rank (level : Option String) (side : Option Side) (body : Rule)
  | weight (w : Int) (body : Rule)
  /-- A place for the name of a property, where no word is reserved. -/
  | property (body : Rule)
  deriving BEq, Repr

namespace Rule

instance : Coe String Rule := ⟨fun chars => token (.text chars)⟩

instance : Coe Lexeme Rule := ⟨fun kind => token (.lexeme kind)⟩

def optional (body : Rule) : Rule := choice [body, empty]

/-- Any number, none included. -/
def repeated (body : Rule) : Rule := optional (many body)

def level (name : String) (body : Rule) : Rule := rank (some name) none body

def leftOf (name : String) (body : Rule) : Rule := rank (some name) (some .left) body

def rightOf (name : String) (body : Rule) : Rule := rank (some name) (some .right) body

def grouped (side : Side) (body : Rule) : Rule := rank none (some side) body

def listed (body : Rule) : Rule := seq [body, repeated (seq [",", body])]

mutual

def repeats : Rule → List Rule
  | many body => [body]
  | seq parts | choice parts => repeatsAll parts
  | rank _ _ body | weight _ body | property body => body.repeats
  | token _ | use _ | empty => []

def repeatsAll : List Rule → List Rule
  | [] => []
  | part :: rest => part.repeats ++ repeatsAll rest

end

mutual

def tokens : Rule → List Token
  | token t => [t]
  | seq parts | choice parts => tokensAll parts
  | many body | rank _ _ body | weight _ body | property body => body.tokens
  | use _ | empty => []

def tokensAll : List Rule → List Token
  | [] => []
  | part :: rest => part.tokens ++ tokensAll rest

end

end Rule

inductive Place where
  | token (t : Token) (isProperty : Bool)
  | use (name : String)
  | many (body : Rule)

/-- A plain sequence that a rule stands for, and how it competes. -/
structure Alternative where
  places : List Place
  level : Option String := none
  side : Option Side := none
  weight : Int := 0

namespace Alternative

/-- Of two weights, the one further from zero. -/
def heavier (a b : Int) : Int := if a.natAbs < b.natAbs then b else a

def append (a b : Alternative) : Alternative :=
  ⟨a.places ++ b.places, a.level <|> b.level, a.side <|> b.side, heavier a.weight b.weight⟩

end Alternative

namespace Rule

mutual

/-- The alternatives of a rule; `isProperty` says whether it stands for the name of a property. -/
def alternatives (isProperty : Bool) : Rule → List Alternative
  | token t => [{ places := [.token t isProperty] }]
  | use name => [{ places := [.use name] }]
  | empty => [{ places := [] }]
  | seq parts => sequences isProperty parts
  | choice parts => choices isProperty parts
  | many body => [{ places := [.many body] }]
  | rank level side body =>
    (alternatives isProperty body).map fun a =>
      { a with level := level <|> a.level, side := side <|> a.side }
  | weight w body =>
    (alternatives isProperty body).map fun a =>
      { a with weight := Alternative.heavier a.weight w }
  | property body => alternatives true body

def sequences (isProperty : Bool) : List Rule → List Alternative
  | [] => [{ places := [] }]
  | part :: rest =>
    let tails := sequences isProperty rest
    (alternatives isProperty part).flatMap fun front => tails.map front.append

def choices (isProperty : Bool) : List Rule → List Alternative
  | [] => []
  | part :: rest => alternatives isProperty part ++ choices isProperty rest

end

end Rule
end Script
end ScriptSense
