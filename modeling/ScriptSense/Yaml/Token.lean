/-! The tokens of a YAML text. Indentation shows as tokens that begin and end blocks. -/
namespace ScriptSense
namespace Yaml

/-- A tag as it is written; without a handle the suffix is the whole tag. -/
structure TagText where
  handle : Option String
  suffix : String
  deriving DecidableEq, Repr

inductive Directive where
  /-- The version of the language that a document is written in. -/
  | version (major : Nat)
  /-- A short form for the beginnings of tags. -/
  | tagHandle (handle stem : String)
  | unknown
  deriving DecidableEq, Repr

inductive Token where
  | directive (d : Directive)
  | documentStart
  | documentEnd
  | blockList
  | blockMap
  | blockEnd
  | openList
  | closeList
  | openMap
  | closeMap
  | dash
  | comma
  | key
  | value
  | reference (name : String)
  | anchor (name : String)
  | tag (t : TagText)
  | scalar (text : String) (plain : Bool)
  /-- A text in quotes that names a character which does not exist. Nothing behind it is read. -/
  | noCharacter (code : Nat)
  deriving DecidableEq, Repr

end Yaml
end ScriptSense
