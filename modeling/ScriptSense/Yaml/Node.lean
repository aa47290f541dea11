import ScriptSense.Data.Assoc
import ScriptSense.Yaml.Token

/-! The tree that a YAML document describes. Nodes may have a tag, and an anchor by which an alias
refers to them. -/
namespace ScriptSense
namespace Yaml

structure Labels where
  anchor : Option String
  /-- The full tag; a single exclamation mark asks for none. -/
  tag : Option String
  deriving DecidableEq, Repr

def Labels.none : Labels := ⟨.none, .none⟩

inductive Node where
  | reference (name : String)
  | scalar (labels : Labels) (text : String) (plain : Bool)
  | list (labels : Labels) (items : List Node)
  | map (labels : Labels) (entries : List (Node × Node))
  deriving Repr, Inhabited

namespace Node

def empty : Node := scalar .none "" true

abbrev Handles := Assoc String

def standardTag (name : String) : String := "tag:yaml.org,2002:" ++ name

def usualHandles : Handles := [("!", "!"), ("!!", standardTag "")]

def fullTag? (handles : Handles) (t : TagText) : Option String :=
  match t.handle with
  | some handle => (handles.get? handle).map (· ++ t.suffix)
  | none => some t.suffix

/-- The labels before a node: an anchor and a tag, in either order. -/
def labels? (handles : Handles) : List Token → Option (Labels × List Token)
  | .anchor name :: .tag t :: rest =>
    (fullTag? handles t).map fun tag => (⟨some name, some tag⟩, rest)
  | .tag _ :: .noCharacter code :: rest => some (.none, .noCharacter code :: rest)
  | .tag t :: .anchor name :: rest =>
    (fullTag? handles t).map fun tag => (⟨some name, some tag⟩, rest)
  | .anchor name :: rest => some (⟨some name, none⟩, rest)
  | .tag t :: rest => (fullTag? handles t).map fun tag => (⟨none, some tag⟩, rest)
  | rest => some (.none, rest)

/-- Where a node stands, which decides how a list or map may be written there. -/
inductive Place where
  /-- Inside brackets. -/
  | flow
  | block
  /-- In a block, where the dashes of a list may stand at the indentation of what is around it. -/
  | entry
  deriving DecidableEq, Repr

def nextIn (options : List Token) : List Token → Bool
  | [] => false
  | t :: _ => options.contains t

mutual

/-- A node with its labels; where labels stand alone, the node itself is left out. -/
def node? (handles : Handles) (place : Place) : Nat → List Token → Option (Node × List Token)
  | 0, _ => none
  | _ + 1, .reference name :: rest => some (reference name, rest)
  | fuel + 1, tokens => do
    let (labels, tokens) ← labels? handles tokens
    let absent := if labels == .none then none else some (scalar labels "" true, tokens)
    match tokens with
    | .noCharacter _ :: _ => return (empty, tokens)
    | .dash :: _ =>
      if place == .entry then
        let (items, rest) ← dashes? handles false fuel tokens
        return (list labels items, rest)
      else absent
    | .scalar text plain :: rest => return (scalar labels text plain, rest)
    | .openList :: rest =>
      let (items, rest) ← flowItems? handles true fuel rest
      return (list labels items, rest)
    | .openMap :: rest =>
      let (entries, rest) ← flowEntries? handles true fuel rest
      return (map labels entries, rest)
    | .blockList :: rest =>
      if place == .flow then absent
      else
        let (items, rest) ← dashes? handles true fuel rest
        return (list labels items, rest)
    | .blockMap :: rest =>
      if place == .flow then absent
      else
        let (entries, rest) ← blockEntries? handles fuel rest
        return (map labels entries, rest)
    | _ => absent

def dashes? (handles : Handles) (indented : Bool) :
    Nat → List Token → Option (List Node × List Token)
  | 0, _ => none
  | fuel + 1, .dash :: rest => do
    let ends := if indented then [.dash, .blockEnd] else [.dash, .key, .value, .blockEnd]
    let (item, rest) ←
      if nextIn ends rest then some (empty, rest) else node? handles .block fuel rest
    let (items, rest) ← dashes? handles indented fuel rest
    return (item :: items, rest)
  | _ + 1, tokens =>
    if indented then
      match tokens with
      | .blockEnd :: rest => some ([], rest)
      | .noCharacter _ :: _ => some ([], tokens)
      | _ => none
    else some ([], tokens)

def blockValue? (handles : Handles) : Nat → List Token → Option (Node × List Token)
  | 0, _ => none
  | fuel + 1, .value :: rest =>
    if nextIn [.key, .value, .blockEnd] rest then some (empty, rest)
    else node? handles .entry fuel rest
  | _ + 1, tokens => some (empty, tokens)

def blockEntries? (handles : Handles) : Nat → List Token → Option (List (Node × Node) × List Token)
  | 0, _ => none
  | fuel + 1, .key :: rest => do
    let (key, rest) ← if nextIn [.key, .value, .blockEnd] rest then some (empty, rest)
      else node? handles .entry fuel rest
    let (value, rest) ← blockValue? handles fuel rest
    let (entries, rest) ← blockEntries? handles fuel rest
    return ((key, value) :: entries, rest)
  | _ + 1, .blockEnd :: rest => some ([], rest)
  | _ + 1, .noCharacter code :: rest => some ([], .noCharacter code :: rest)
  | _ + 1, _ => none

def flowValue? (handles : Handles) (close : Token) : Nat → List Token → Option (Node × List Token)
  | 0, _ => none
  | fuel + 1, .value :: rest =>
    if nextIn [.comma, close] rest then some (empty, rest) else node? handles .flow fuel rest
  | _ + 1, tokens => some (empty, tokens)

def flowEntry? (handles : Handles) (close : Token) :
    Nat → List Token → Option ((Node × Node) × List Token)
  | 0, _ => none
  | fuel + 1, tokens => do
    let (key, rest) ← if nextIn [.value, .comma, close] tokens then some (empty, tokens)
      else node? handles .flow fuel tokens
    let (value, rest) ← flowValue? handles close fuel rest
    return ((key, value), rest)

def flowItems? (handles : Handles) (first : Bool) :
    Nat → List Token → Option (List Node × List Token)
  | 0, _ => none
  | _ + 1, .closeList :: rest => some ([], rest)
  | _ + 1, .noCharacter code :: rest => some ([], .noCharacter code :: rest)
  | fuel + 1, tokens => do
    let tokens ←
      match first, tokens with
      | true, _ => some tokens
      | false, .comma :: rest => some rest
      | false, _ => none
    match tokens with
    | .key :: rest =>
      let (entry, rest) ← flowEntry? handles .closeList fuel rest
      let (items, rest) ← flowItems? handles false fuel rest
      return (map .none [entry] :: items, rest)
    | .closeList :: rest => return ([], rest)
    | _ =>
      let (item, rest) ← node? handles .flow fuel tokens
      let (items, rest) ← flowItems? handles false fuel rest
      return (item :: items, rest)

/-- The entries of a map in brackets, and the closing bracket. A key alone has no value. -/
def flowEntries? (handles : Handles) (first : Bool) :
    Nat → List Token → Option (List (Node × Node) × List Token)
  | 0, _ => none
  | _ + 1, .closeMap :: rest => some ([], rest)
  | _ + 1, .noCharacter code :: rest => some ([], .noCharacter code :: rest)
  | fuel + 1, tokens => do
    let tokens ←
      match first, tokens with
      | true, _ => some tokens
      | false, .comma :: rest => some rest
      | false, _ => none
    match tokens with
    | .key :: rest =>
      let (entry, rest) ← flowEntry? handles .closeMap fuel rest
      let (entries, rest) ← flowEntries? handles false fuel rest
      return (entry :: entries, rest)
    | .closeMap :: rest => return ([], rest)
    | _ =>
      let (key, rest) ← node? handles .flow fuel tokens
      let (entries, rest) ← flowEntries? handles false fuel rest
      return ((key, empty) :: entries, rest)

end

/-- The directives before a document: at most one version, which must be 1, and each handle once. -/
def directives? (versioned : Bool) (handles : Handles) : List Token → Option (Handles × List Token)
  | .directive (.version major) :: rest =>
    if versioned || major != 1 then none else directives? true handles rest
  | .directive (.tagHandle handle stem) :: rest =>
    if handles.has handle then none else directives? versioned (handles ++ [(handle, stem)]) rest
  | .directive .unknown :: rest => directives? versioned handles rest
  | tokens => some (handles, tokens)

def skipEnds (tokens : List Token) : List Token := tokens.dropWhile (· == .documentEnd)

/-- Whether a document may end here, as far as the tokens behind it show. -/
def mayEnd (tokens : List Token) : Bool :=
  match directives? false [] tokens with
  | some (_, .noCharacter _ :: _) => true
  | _ => tokens.isEmpty

/-- The document from its root on; nothing may follow it. -/
def rootOnly? (handles : Handles) (fuel : Nat) (tokens : List Token) : Option Node := do
  let (root, rest) ← node? handles .block fuel tokens
  if mayEnd (skipEnds rest) then some root else none

def document? (tokens : List Token) : Option (Option Node) :=
  let fuel := 4 * tokens.length + 4
  match tokens with
  | [] => some none
  | .directive _ :: _ | .documentStart :: _ => do
    let (handles, tokens) ← directives? false [] tokens
    match tokens with
    | .documentStart :: rest =>
      match rest with
      | [] => return some empty
      | .documentEnd :: more => if mayEnd (skipEnds more) then return some empty else none
      | .directive _ :: _ | .documentStart :: _ => none
      | _ => (rootOnly? (Assoc.putAll usualHandles handles) fuel rest).map some
    | .noCharacter _ :: _ => return some empty
    | _ => none
  | _ => (rootOnly? usualHandles fuel tokens).map some

end Node
end Yaml
end ScriptSense
