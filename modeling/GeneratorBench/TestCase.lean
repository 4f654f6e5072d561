import GeneratorBench.Observation.Plugin
import GeneratorBench.Run.Schedule

/-!
Test cases: code, a configuration and the results of the runs so far. A case never changes; adding
to it or running it makes another one, whose history is longer by the new result.
-/

namespace GeneratorBench

structure TestCase (σ : Type) where
  configuration : Configuration σ
  imports : List String := []
  scope : Option String := none
  fragments : List Fragment := []
  /-- Results of runs, oldest first. -/
  results : List (TestResult σ) := []

namespace TestCase

variable {σ : Type} (t : TestCase σ)

def addFragment (f : Fragment) : TestCase σ := { t with fragments := t.fragments ++ [f] }

def addCode (code : String) : TestCase σ := t.addFragment ⟨none, code⟩

def addImports (imports : List String) : TestCase σ := { t with imports := t.imports ++ imports }

def inNamespace (name : String) : TestCase σ := { t with scope := some name }

def withConfiguration (configuration : Configuration σ) : TestCase σ := { t with configuration }

def configure (change : Configuration σ → Except Error (Configuration σ)) :
    Except Error (TestCase σ) :=
  (change t.configuration).map t.withConfiguration

/-- The result of a case that ran exactly once. -/
def result : Except Error (TestResult σ) :=
  match t.results with
  | [] => .error .noResults
  | [r] => .ok r
  | rs => .error (.multipleResults rs.length)

def latestResult? : Option (TestResult σ) := t.results.getLast?

def context : RunContext σ where
  configuration := t.configuration
  imports := t.imports
  scope := t.scope
  fragments := t.fragments

/-- Runs the case. If something listens it is told what `logging` selects. -/
def run (logging : LoggingOptions) (s : Session σ) :
    Except Error (TestCase σ × TestResult σ) × Session σ :=
  let plugins := if s.log.isSome then [logging.plugin] else []
  let (outcome, run) := Run.runAll plugins ⟨t.context, s⟩
  (outcome.map fun r => ({ t with results := t.results ++ [r] }, r), run.session)

end TestCase

end GeneratorBench
