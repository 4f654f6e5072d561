import GeneratorBench.Json
import GeneratorBench.Text.Position

/-!
Diagnostics: what a compilation, an analyzer or a generator has to say about a text. They are data
and never end a run.
-/

namespace GeneratorBench

inductive Severity
  | hidden
  | info
  | warning
  | error
  deriving Repr, DecidableEq, Inhabited

namespace Severity

def rank : Severity → Nat
  | hidden => 0
  | info => 1
  | warning => 2
  | error => 3

instance : LE Severity := ⟨fun s t => s.rank ≤ t.rank⟩

instance (s t : Severity) : Decidable (s ≤ t) := inferInstanceAs (Decidable (s.rank ≤ t.rank))

def displayOrder : List Severity := [error, warning, info, hidden]

def name : Severity → String
  | hidden => "hidden"
  | info => "info"
  | warning => "warning"
  | error => "error"

end Severity

/-- Where a diagnostic points to. What concerns a whole compilation points nowhere. -/
structure Location where
  path : Option String := none
  span : Option Span := none
  deriving Repr, DecidableEq, Inhabited

namespace Location

/-- A path that is shown at all: an empty one counts as none. -/
def properPath (path : Option String) : Option String := path.filter (· ≠ "")

def inTree (path : Option String) (span : Span) : Location := ⟨properPath path, some span⟩

def isInSource (l : Location) : Bool := l.path.isSome

end Location

structure Diagnostic where
  id : String
  severity : Severity
  message : String
  location : Location := {}
  deriving Repr, DecidableEq, Inhabited

namespace Diagnostic

def path (d : Diagnostic) : Option String := d.location.path

def render (d : Diagnostic) : String :=
  let place := match d.location.path, d.location.span with
    | some path, some span => " (at " ++ path ++ span.render ++ ")"
    | some path, none => " (at " ++ path ++ ")"
    | none, some span => " (at " ++ span.render ++ ")"
    | none, none => ""
  d.severity.name ++ " " ++ d.id ++ ": " ++ d.message ++ place

def positionJson (p : Position) : Json :=
  .object [("line", .number p.line), ("character", .number p.column)]

def spanJson (s : Span) : Json :=
  .object [("start", positionJson s.start), ("end", positionJson s.stop)]

def toJson (d : Diagnostic) : Json :=
  .object [
    ("id", .text d.id),
    ("severity", .text d.severity.name),
    ("message", .text d.message),
    ("location", .object [
      ("path", .ofOption .text d.location.path),
      ("span", .ofOption spanJson d.location.span)])]

end Diagnostic

end GeneratorBench
