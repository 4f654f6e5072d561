/-!
Events: what a run says about itself to whoever listens.
-/

namespace GeneratorBench

inductive Level
  | error
  | warn
  | info
  | debug
  | trace
  deriving Repr, DecidableEq, Inhabited

namespace Level

def rank : Level → Nat
  | error => 0
  | warn => 1
  | info => 2
  | debug => 3
  | trace => 4

/-- A listener at level `log` hears what is at least as severe. -/
def isWithin (l log : Level) : Bool := l.rank ≤ log.rank

def name : Level → String
  | error => "ERROR"
  | warn => "WARN"
  | info => "INFO"
  | debug => "DEBUG"
  | trace => "TRACE"

end Level

inductive Event.Field
  | text (s : String)
  | count (n : Nat)
  deriving Repr, DecidableEq, Inhabited

structure Event where
  level : Level
  message : String
  fields : List (String × Event.Field) := []
  deriving Repr, DecidableEq, Inhabited

end GeneratorBench
