import ScriptSense.Data.Value

/-! What happens, as data. An event has a level, a name and named values; whoever keeps a log
decides which levels it records. -/
namespace ScriptSense

inductive Level where
  | debug
  | info
  | warning
  | error
  | critical
  deriving DecidableEq, Repr

namespace Level

def rank : Level → Nat
  | debug => 10
  | info => 20
  | warning => 30
  | error => 40
  | critical => 50

def name : Level → String
  | debug => "debug"
  | info => "info"
  | warning => "warning"
  | error => "error"
  | critical => "critical"

/-- Whether a log kept from `least` on records this level. -/
def reaches (level least : Level) : Bool := least.rank ≤ level.rank

end Level

structure Event where
  level : Level
  name : String
  fields : Assoc Value
  deriving Repr

end ScriptSense
