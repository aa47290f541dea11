import Mathlib.Data.List.TakeWhile
import ScriptSense.Expr
import ScriptSense.Script.Lexeme
import ScriptSense.Text.Blank
import ScriptSense.Text.Name

/-! Addressable expressions as trees, and their plain texts. -/
namespace ScriptSense
namespace Script

/-- An addressable expression; a construction has the parts of its dotted name. -/
inductive Phrase where
  | identifier (name : String)
  | this
  | super
  | member (object : Phrase) (property : String) (optional : Bool)
  | call (callee : Phrase) (arguments : List Phrase) (optional : Bool)
  | construct (path : List String) (arguments : List Phrase)

namespace Phrase

def contextualWords : List String :=
  ["async", "await", "get", "let", "of", "set", "static", "using", "yield"]

/-- Whether a word is an identifier that no script gives a meaning of its own. -/
def isValueName (word : String) : Bool :=
  Text.isIdentifier word.toList && !reserved.contains word && !contextualWords.contains word &&
    word != "undefined"

/-- Whether a word may name a property; a dollar sign is a letter there, and no word is reserved. -/
def isPropertyName (word : String) : Bool :=
  match word.toList with
  | [] => false
  | c :: cs => (Text.isNameStart c || c == '$') && cs.all fun d => Text.isNameChar d || d == '$'

def isConstruct : Phrase → Bool
  | construct .. => true
  | _ => false

mutual

/-- Whether names are in order, and constructions stand only by themselves or before the dot of a
member access. -/
def isWellFormed : Phrase → Bool
  | identifier name => isValueName name
  | this | super => true
  | member object property optional =>
    object.isWellFormed && isPropertyName property && !(optional && object.isConstruct)
  | call callee arguments _ => callee.isWellFormed && !callee.isConstruct && allWellFormed arguments
  | construct path arguments =>
    !path.isEmpty && path.all isValueName && allWellFormed arguments

def allWellFormed : List Phrase → Bool
  | [] => true
  | e :: es => e.isWellFormed && allWellFormed es

end

def memberMark (optional : Bool) : String := if optional then "?." else "."

def callMark (optional : Bool) : String := if optional then "?." else ""

def bracketed (arguments : List String) : String := "(" ++ ", ".intercalate arguments ++ ")"

mutual

def print : Phrase → String
  | identifier name => name
  | this => "this"
  | super => "super"
  | member object property optional => object.print ++ memberMark optional ++ property
  | call callee arguments optional =>
    callee.print ++ callMark optional ++ bracketed (printAll arguments)
  | construct path arguments => "new " ++ ".".intercalate path ++ bracketed (printAll arguments)

def printAll : List Phrase → List String
  | [] => []
  | e :: es => e.print :: printAll es

end

/-- What an expression is as a node: every part with its own text. -/
def node : Phrase → Expr
  | identifier name => .identifier name
  | this => .this
  | super => .super
  | member object property optional =>
    .member (member object property optional).print object.node property optional
  | call callee arguments optional =>
    .call (call callee arguments optional).print callee.node (arguments.map print) optional
  | construct path arguments =>
    .construct (construct path arguments).print (".".intercalate path) (arguments.map print)

/-- Whether an expression is a chain of identifiers without optional links. -/
def isDotted : Phrase → Bool
  | identifier _ => true
  | member object _ optional => object.isDotted && !optional
  | _ => false

theorem printAll_eq_map (es : List Phrase) : printAll es = es.map print := by
  induction es with
  | nil => rfl
  | cons e es ih => rw [printAll, ih, List.map_cons]

theorem text_node (e : Phrase) : e.node.text = e.print := by
  cases e <;> simp [node, Expr.text, print]

/-- The dotted name of what is read: the text itself for dotted chains, nothing for all others. -/
theorem dottedName?_node (e : Phrase) :
    e.node.dottedName? = if e.isDotted then some e.print else none := by
  match e with
  | identifier name => rfl
  | this => rfl
  | super => rfl
  | member object property true => simp [node, Expr.dottedName?, isDotted]
  | member object property false =>
    have ih := dottedName?_node object
    rw [node, Expr.dottedName?, ih]
    cases h : object.isDotted <;> simp [isDotted, h, print, memberMark]
  | call callee arguments optional => rfl
  | construct path arguments => rfl

/-! Words. -/

def isLetter (c : Char) : Bool := Text.isNameStart c || c == '$'

def isPart (c : Char) : Bool := Text.isNameChar c || c == '$'

theorem isPart_of_isLetter {c : Char} (h : isLetter c = true) : isPart c = true := by
  rw [isLetter, Bool.or_eq_true] at h
  rw [isPart, Bool.or_eq_true]
  exact h.imp_left Text.isNameChar_of_isNameStart

theorem toNat_of_isPart {c : Char} (h : isPart c = true) : 36 ≤ c.toNat ∧ c.toNat ≤ 122 := by
  simp only [isPart, Text.isNameChar, Text.isNameStart, Text.isLetter, Text.isDigit,
    Bool.or_eq_true, Bool.and_eq_true, decide_eq_true_eq, beq_iff_eq, Char.le_def, UInt32.le_iff_toNat_le] at h
  rcases h with (((h | h) | rfl) | h) | rfl
  · change 97 ≤ c.toNat ∧ c.toNat ≤ 122 at h
    omega
  · change 65 ≤ c.toNat ∧ c.toNat ≤ 90 at h
    omega
  · decide
  · change 48 ≤ c.toNat ∧ c.toNat ≤ 57 at h
    omega
  · decide

theorem isBlank_of_isPart {c : Char} (h : isPart c = true) :
    Text.isBlank c = false := by
  obtain ⟨hlow, hhigh⟩ := toNat_of_isPart h
  simp only [Text.isBlank, Text.blankRanges, List.any_cons, List.any_nil, Bool.or_eq_false_iff,
    Bool.and_eq_false_iff, decide_eq_false_iff_not, and_true]
  omega

theorem isPropertyName_iff {word : String} : isPropertyName word = true ↔
    ∃ c cs, word.toList = c :: cs ∧ isLetter c = true ∧ ∀ d ∈ cs, isPart d = true := by
  rw [isPropertyName]
  cases word.toList with
  | nil => simp
  | cons c cs =>
    simp only [Bool.and_eq_true, List.all_eq_true]
    constructor
    · intro h
      exact ⟨c, cs, rfl, h⟩
    · rintro ⟨c', cs', he, h⟩
      obtain ⟨rfl, rfl⟩ := List.cons.inj he
      exact h

theorem isPart_of_mem {word : String} (h : isPropertyName word = true) {d : Char}
    (hd : d ∈ word.toList) : isPart d = true := by
  obtain ⟨c, cs, he, hc, hcs⟩ := isPropertyName_iff.mp h
  rw [he] at hd
  rcases List.mem_cons.mp hd with rfl | hd
  · exact isPart_of_isLetter hc
  · exact hcs d hd

theorem isPropertyName_of_isIdentifier {word : String}
    (h : Text.isIdentifier word.toList = true) : isPropertyName word = true := by
  rw [isPropertyName]
  cases hw : word.toList with
  | nil => simp [hw, Text.isIdentifier] at h
  | cons c cs =>
    rw [hw, Text.isIdentifier, Bool.and_eq_true, List.all_eq_true] at h
    simp only [Bool.and_eq_true, Bool.or_eq_true, List.all_eq_true]
    exact ⟨Or.inl h.1, fun d hd => Or.inl (h.2 d hd)⟩

theorem isPropertyName_of_isValueName {word : String} (h : isValueName word = true) :
    isPropertyName word = true := by
  simp only [isValueName, Bool.and_eq_true] at h
  exact isPropertyName_of_isIdentifier h.1.1.1

theorem length_pos_of_isPropertyName {word : String} (h : isPropertyName word = true) :
    0 < word.toList.length := by
  obtain ⟨c, cs, he, -⟩ := isPropertyName_iff.mp h
  simp [he]

def word? (text : List Char) : Option (String × List Char) :=
  if text.head?.any isLetter then
    some (String.ofList (text.takeWhile isPart), text.dropWhile isPart)
  else none

/-- A text that does not go on with the word before it. -/
def Stops (rest : List Char) : Prop := ∀ c, rest.head? = some c → isPart c = false

theorem stops_nil : Stops [] := by simp [Stops]

theorem stops_cons {c : Char} (h : isPart c = false) (rest : List Char) : Stops (c :: rest) := by
  simp [Stops, h]

theorem stops_memberMark (optional : Bool) (rest : List Char) :
    Stops ((memberMark optional).toList ++ rest) := by
  cases optional <;> exact stops_cons (by decide) _

theorem stops_callMark (optional : Bool) (rest : List Char) :
    Stops ((callMark optional).toList ++ '(' :: rest) := by
  cases optional <;> exact stops_cons (by decide) _

theorem word?_append {word : String} (hw : isPropertyName word = true) {rest : List Char}
    (hr : Stops rest) : word? (word.toList ++ rest) = some (word, rest) := by
  obtain ⟨c, cs, he, hc, -⟩ := isPropertyName_iff.mp hw
  have hparts : ∀ d ∈ word.toList, isPart d = true := fun d hd => isPart_of_mem hw hd
  have htake : rest.takeWhile isPart = [] := by
    cases rest with
    | nil => rfl
    | cons d ds => simp [hr d rfl]
  have hdrop : rest.dropWhile isPart = rest := by
    cases rest with
    | nil => rfl
    | cons d ds => simp [hr d rfl]
  have hhead : (word.toList ++ rest).head?.any isLetter = true := by simp [he, hc]
  rw [word?, if_pos hhead, List.takeWhile_append_of_pos hparts, List.dropWhile_append_of_pos hparts,
    htake, hdrop]
  simp

def following : List Phrase → List Char
  | [] => []
  | e :: es => ',' :: ' ' :: (e.print.toList ++ following es)

theorem toList_intercalate_cons (e : Phrase) (es : List Phrase) :
    (", ".intercalate (printAll (e :: es))).toList = e.print.toList ++ following es := by
  induction es generalizing e with
  | nil => simp [printAll, following]
  | cons f es ih =>
    rw [printAll, printAll, String.intercalate_cons_cons]
    have := ih f
    rw [printAll] at this
    simp [this, following]

theorem toList_print (e : Phrase) (he : e.isWellFormed = true) :
    ∃ c cs, e.print.toList = c :: cs ∧ isLetter c = true := by
  match e with
  | identifier name =>
    rw [isWellFormed] at he
    obtain ⟨c, cs, hc, hl, -⟩ := isPropertyName_iff.mp (isPropertyName_of_isValueName he)
    exact ⟨c, cs, hc, hl⟩
  | this => exact ⟨'t', _, rfl, by decide⟩
  | super => exact ⟨'s', _, rfl, by decide⟩
  | member object property optional =>
    simp only [isWellFormed, Bool.and_eq_true] at he
    obtain ⟨c, cs, hc, hl⟩ := toList_print object he.1.1
    simp [print, hc, hl]
  | call callee arguments optional =>
    simp only [isWellFormed, Bool.and_eq_true] at he
    obtain ⟨c, cs, hc, hl⟩ := toList_print callee he.1.1
    simp [print, hc, hl]
  | construct path arguments =>
    have hn : isLetter 'n' = true := by decide
    simp [print, hn]

def inner (es : List Phrase) : List Char := (", ".intercalate (printAll es)).toList

theorem toList_member (object : Phrase) (property : String) (optional : Bool) :
    (member object property optional).print.toList =
      object.print.toList ++ ((memberMark optional).toList ++ property.toList) := by simp [print]

theorem toList_call (callee : Phrase) (es : List Phrase) (optional : Bool) :
    (call callee es optional).print.toList =
      callee.print.toList ++ ((callMark optional).toList ++ '(' :: (inner es ++ [')'])) := by
  simp [print, bracketed, inner]

theorem toList_construct (path : List String) (es : List Phrase) :
    (construct path es).print.toList =
      "new".toList ++ ' ' :: ((".".intercalate path).toList ++ '(' :: (inner es ++ [')'])) := by
  simp [print, bracketed, inner]

end Phrase
end Script
end ScriptSense
