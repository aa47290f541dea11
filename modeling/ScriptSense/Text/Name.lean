import ScriptSense.Text.Blank
import ScriptSense.Text.Case

/-! Identifiers, dotted chains and qualified names. Identifiers here are ASCII: a letter or an
underscore, then letters, digits and underscores. -/
namespace ScriptSense
namespace Text

def isDigit (c : Char) : Bool := '0' ≤ c && c ≤ '9'

def isLetter (c : Char) : Bool := ('a' ≤ c && c ≤ 'z') || ('A' ≤ c && c ≤ 'Z')

def isNameStart (c : Char) : Bool := isLetter c || c == '_'

def isNameChar (c : Char) : Bool := isNameStart c || isDigit c

theorem isNameChar_of_isNameStart {c : Char} (h : isNameStart c = true) : isNameChar c = true := by
  simp [isNameChar, h]

theorem isNameChar_of_isDigit {c : Char} (h : isDigit c = true) : isNameChar c = true := by
  simp [isNameChar, h]

/-- A text made of name material: one underscore, or a nonempty run of letters and digits. -/
def isNameMaterial (t : List Char) : Bool :=
  t == ['_'] || (!t.isEmpty && t.all fun c => isLetter c || isDigit c)

def isIdentifier : List Char → Bool
  | [] => false
  | c :: cs => isNameStart c && cs.all isNameChar

/-- How far a dotted chain goes on after its first character. -/
def chainTail : List Char → Nat
  | [] => 0
  | c :: cs =>
    if isNameChar c then chainTail cs + 1
    else if c == '.' && (cs.head?.any isNameStart) then chainTail cs + 1
    else 0

/-- The longest dotted chain of identifiers at the front, and what follows it. -/
def chain? : List Char → Option (List Char × List Char)
  | [] => none
  | c :: cs =>
    if isNameStart c then
      some (c :: cs.take (chainTail cs), cs.drop (chainTail cs))
    else none

/-- Splits at every separator; `n` separators give `n + 1` pieces. -/
def splitAt (separator : Char) : List Char → List (List Char)
  | [] => [[]]
  | c :: cs =>
    if c == separator then [] :: splitAt separator cs
    else
      match splitAt separator cs with
      | [] => [[c]]
      | piece :: pieces => (c :: piece) :: pieces

theorem splitAt_ne_nil (separator : Char) (t : List Char) : splitAt separator t ≠ [] := by
  cases t with
  | nil => simp [splitAt]
  | cons c cs =>
    simp only [splitAt]
    split
    · simp
    · split <;> simp

def joinWith (separator : List Char) : List (List Char) → List Char
  | [] => []
  | [piece] => piece
  | piece :: pieces => piece ++ separator ++ joinWith separator pieces

theorem joinWith_splitAt (separator : Char) (t : List Char) :
    joinWith [separator] (splitAt separator t) = t := by
  induction t with
  | nil => rfl
  | cons c cs ih =>
    simp only [splitAt]
    by_cases h : c = separator
    · subst h
      cases hs : splitAt c cs with
      | nil => exact absurd hs (splitAt_ne_nil c cs)
      | cons piece pieces =>
        rw [hs] at ih
        simp [joinWith, ih]
    · cases hs : splitAt separator cs with
      | nil => exact absurd hs (splitAt_ne_nil separator cs)
      | cons piece pieces =>
        rw [hs] at ih
        cases pieces with
        | nil => simp_all [joinWith]
        | cons next more => simp_all [joinWith]

/-- The segments of a qualified name; a name with an empty segment has none. -/
def segments? (name : String) : Option (List String) :=
  let pieces := splitAt '.' name.toList
  if pieces.all (!·.isEmpty) then some (pieces.map String.ofList) else none

def accessorVerbs : List (List Char) := ["get".toList, "set".toList, "reset".toList]

/-- The property an accessor name stands for: `setLabel` stands for `label`. -/
def propertyOfAccessor? (name : List Char) : Option (List Char) :=
  accessorVerbs.findSome? fun verb =>
    if verb.isPrefixOf name then
      match name.drop verb.length with
      | c :: cs => if isUpper c then some (decapitalize (c :: cs)) else none
      | [] => none
    else none

end Text
end ScriptSense
