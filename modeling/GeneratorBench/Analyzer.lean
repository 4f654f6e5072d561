import GeneratorBench.Compilation.Basic
import GeneratorBench.Run.Session

/-!
Analyzers look at a compilation and report diagnostics. One that fails is reported in its turn and
leaves the others alone.
-/

namespace GeneratorBench

structure Analyzer (σ : Type) where
  id : String
  analyze : Compilation → Callback σ (Except Failure (List Diagnostic))

namespace Analyzer

variable {σ : Type}

def failed (id : String) (f : Failure) : Diagnostic where
  id := "AD0001"
  severity := .warning
  message := "Analyzer '" ++ id ++ "' threw an exception: " ++ f.headline

def report (a : Analyzer σ) : Except Failure (List Diagnostic) → List Diagnostic
  | .ok ds => ds
  | .error f => [failed a.id f]

/-- What the analyzers report, one after the other; none if the request is cancelled. -/
def runAll (c : Compilation) : List (Analyzer σ) → Session σ → Option (List Diagnostic) × Session σ
  | [], s => (if s.cancelled then none else some [], s)
  | a :: as, s =>
    if s.cancelled then (none, s)
    else
      let (outcome, s) := s.call (.analyze a.id) (a.analyze c)
      let (later, s) := runAll c as s
      (later.map (a.report outcome ++ ·), s)

end Analyzer

end GeneratorBench
