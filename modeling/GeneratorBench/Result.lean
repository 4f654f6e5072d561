import GeneratorBench.Compilation.Binding
import GeneratorBench.Error
import GeneratorBench.Generator.Run

/-!
Results: what a run of a test case came to. The three views of diagnostics went through the
filters of the configuration; the drivers of the generators did not.
-/

namespace GeneratorBench

inductive Stage
  | analyzer
  | generator
  | final
  deriving Repr, DecidableEq, Inhabited

namespace Stage

def all : List Stage := [analyzer, generator, final]

def name : Stage → String
  | analyzer => "Analyzer"
  | generator => "Generator"
  | final => "Final compilation analysis"

end Stage

/-- Drivers by the id of their generator, in the order they came in. -/
abbrev Drivers (σ : Type) := List (String × GeneratorDriver σ)

/-- A driver under an id that is there already takes the place of the one that has it. -/
def Drivers.insert {σ : Type} (drivers : Drivers σ) (id : String) (driver : GeneratorDriver σ) : Drivers σ :=
  if drivers.any (·.1 == id) then
    drivers.map fun old => if old.1 == id then (id, driver) else old
  else drivers ++ [(id, driver)]

structure TestResult (σ : Type) where
  drivers : Drivers σ
  analyzerDiagnostics : List Diagnostic
  generatorDiagnostics : List Diagnostic
  finalDiagnostics : List Diagnostic
  compilation : Compilation

namespace TestResult

variable {σ : Type} (r : TestResult σ)

def diagnostics : Stage → List Diagnostic
  | .analyzer => r.analyzerDiagnostics
  | .generator => r.generatorDiagnostics
  | .final => r.finalDiagnostics

def allDiagnostics : List Diagnostic := Stage.all.flatMap r.diagnostics

def driver (id : String) : Except Error (GeneratorDriver σ) :=
  match r.drivers.lookup id with
  | some d => .ok d
  | none => .error (.unknownGenerator id)

/-- A generator that is known but has not run counts as unknown. -/
def runOf (id : String) : Except Error GeneratorRun :=
  match r.driver id with
  | .error e => .error e
  | .ok d =>
    match d.lastRun with
    | some run => .ok run
    | none => .error (.unknownGenerator id)

def exception (id : String) : Except Error (Option GeneratorException) :=
  (r.runOf id).map (·.exception)

def runs : List GeneratorRun := r.drivers.filterMap (·.2.lastRun)

def generatedTrees : List SourceTree := r.runs.flatMap (·.trees)

/-- The first generated tree whose file goes by that name, whatever its folder. -/
def generatedFile? (name : String) : Option SourceTree :=
  r.generatedTrees.find? fun t => t.shortName? == some name

end TestResult

structure GeneratorSummary where
  id : String
  kind : GeneratorKind
  generatedFiles : List String
  diagnostics : List Diagnostic
  exception : Option GeneratorException
  trackedInputs : Nat
  deriving Repr, DecidableEq, Inhabited

structure ResultSummary where
  analyzerDiagnostics : List Diagnostic
  generatorDiagnostics : List Diagnostic
  finalDiagnostics : List Diagnostic
  generators : List GeneratorSummary
  emitSuccess : Bool
  deriving Repr, DecidableEq, Inhabited

def GeneratorDriver.summary {σ : Type} (id : String) (d : GeneratorDriver σ) : GeneratorSummary where
  id := id
  kind := d.generator.kind
  generatedFiles := d.lastRun.elim [] fun run => run.trees.map (·.filePath)
  diagnostics := d.lastRun.elim [] (·.diagnostics)
  exception := d.lastRun.bind (·.exception)
  trackedInputs := d.lastRun.elim 0 (·.trackedInputs)

namespace GeneratorException

def toJson (e : GeneratorException) : Json :=
  .object [("message", .text e.message), ("panicked", .bool e.panicked)]

end GeneratorException

namespace GeneratorSummary

def toJson (g : GeneratorSummary) : Json :=
  .object [
    ("id", .text g.id),
    ("kind", .text g.kind.name),
    ("generated_files", .texts g.generatedFiles),
    ("diagnostics", .list (g.diagnostics.map Diagnostic.toJson)),
    ("exception", .ofOption GeneratorException.toJson g.exception),
    ("tracked_inputs", .number g.trackedInputs)]

end GeneratorSummary

namespace ResultSummary

def toJson (s : ResultSummary) : Json :=
  .object [
    ("analyzer_diagnostics", .list (s.analyzerDiagnostics.map Diagnostic.toJson)),
    ("generator_diagnostics", .list (s.generatorDiagnostics.map Diagnostic.toJson)),
    ("final_diagnostics", .list (s.finalDiagnostics.map Diagnostic.toJson)),
    ("generators", .list (s.generators.map GeneratorSummary.toJson)),
    ("emit_success", .bool s.emitSuccess)]

end ResultSummary

namespace TestResult

def summary {σ : Type} (r : TestResult σ) : ResultSummary where
  analyzerDiagnostics := r.analyzerDiagnostics
  generatorDiagnostics := r.generatorDiagnostics
  finalDiagnostics := r.finalDiagnostics
  generators := r.drivers.map fun (id, d) => d.summary id
  emitSuccess := r.compilation.emits

end TestResult

end GeneratorBench
