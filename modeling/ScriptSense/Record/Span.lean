import ScriptSense.Schema.Decode

/-! Places in source files. -/
namespace ScriptSense

/-- A place: its line and column, and its distance from the beginning of the file. -/
structure Position where
  line : Int
  column : Int
  index : Int
  deriving DecidableEq, Repr

namespace Position

def decode : Schema.Decoder Position :=
  Schema.record "SourcePosition" fun entries =>
    Position.mk <$> Schema.required (.plain "line") Schema.integer entries
      <*> Schema.required (.plain "column") Schema.integer entries
      <*> Schema.required (.plain "index") Schema.integer entries

def toValue (p : Position) : Value :=
  .map [("line", .int p.line), ("column", .int p.column), ("index", .int p.index)]

end Position

structure Span where
  start : Position
  stop : Position
  deriving DecidableEq, Repr

namespace Span

/-- Both ends belong to a span. -/
def contains (s : Span) (offset : Int) : Bool := s.start.index ≤ offset && offset ≤ s.stop.index

def decode : Schema.Decoder Span :=
  Schema.record "SourceSpan" fun entries =>
    Span.mk <$> Schema.required (.plain "start") Position.decode entries
      <*> Schema.required (.plain "end") Position.decode entries

def toValue (s : Span) : Value := .map [("start", s.start.toValue), ("end", s.stop.toValue)]

end Span
end ScriptSense
